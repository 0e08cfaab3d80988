import Anneal.Proofs.Program.Steps
import Anneal.Proofs.Repair.Convergence
import Anneal.Proofs.Text.Blank

/-! What convergence says about the bytes that two programs printed. The comparison sees captured
text: bytes past the limit are only counted, and bytes that are no text all read alike. -/

namespace Anneal.Repair

open Anneal.Text

variable {σ : Type} {s : Setup σ} {q : Request} {machine : Program.Machine σ}

def captured (c : CompilerSettings) (stdout : Bytes) : String :=
  (Capture.cut c.outputLimit stdout).text "stdout"

/-- The entry of a run in which the program of the request exited with 0 in time: the world before
it, with the input that the request names, led to this complete output, of which the entry tells. -/
def Entry.Produces (machine : Program.Machine σ) (q : Request) (side : Side)
    (c : CompilerSettings) (e : Entry σ) (stdout : Bytes) : Prop :=
  ∃ r seen, e.call = q.running side (.ok r) ∧
    Program.Child machine.toHost ⟨executableFor (q.source side), []⟩ q.stdinPath
      (c.runSeconds * 1000) e.before (some seen) e.after ∧
    seen.ending = .exited 0 ∧ seen.timedOut = false ∧ seen.stdout = stdout ∧
    r.ok = true ∧ r.text = captured c stdout

theorem run_produces {side : Side} {l : Language} {c : CompilerSettings} {r : StepResult}
    {w w' : World σ}
    (h : (Program.toolchain machine l c).run (executableFor (q.source side)) q.stdinPath w =
      (.ok r, w')) (hr : r.ok = true) :
    ∃ stdout, Entry.Produces machine q side c ⟨q.running side (.ok r), w, w'⟩ stdout := by
  obtain ⟨step, child, w'', hstep, hchild, hclassified⟩ :=
    Program.toolchain_run machine l c (executableFor (q.source side)) q.stdinPath w
  obtain ⟨hsame, rfl⟩ := Prod.mk.inj (h.symm.trans hstep)
  obtain rfl := Except.ok.inj hsame
  obtain ⟨seen, hseen, hend, htime⟩ := hclassified.ok_iff.1 hr
  obtain ⟨_, hseen', htext⟩ := hclassified.output hr
  obtain rfl := Option.some.inj (hseen.symm.trans hseen')
  obtain rfl : child = some seen := hseen
  exact ⟨seen.stdout, r, seen, rfl, hchild, hend, htime, rfl, hr, htext⟩

theorem mem_runs {side : Side} {calls : List Call} {r : StepResult} :
    r ∈ runs side calls ↔ ∃ executable stdin, Call.run side executable stdin (.ok r) ∈ calls := by
  unfold runs
  rw [List.mem_filterMap]
  constructor
  · rintro ⟨c, hc, hr⟩
    split at hr
    next side' executable stdin r' =>
      split at hr
      next hside =>
        obtain rfl := Option.some.inj hr
        exact ⟨executable, stdin, hside ▸ hc⟩
      · cases hr
    · cases hr
  · rintro ⟨executable, stdin, hc⟩
    exact ⟨_, hc, if_pos rfl⟩

theorem Printed.produces {side : Side} {es : List (Entry σ)} {output : String} {l : Language}
    {c : CompilerSettings} (ht : s.toolchain side = Program.toolchain machine l c)
    (hes : ∀ e ∈ es, e.Genuine s q) (h : Printed side (callsOf es) output) :
    ∃ e ∈ es, ∃ stdout, e.Produces machine q side c stdout ∧ output = captured c stdout := by
  obtain ⟨r, hr, hok, rfl⟩ := h
  obtain ⟨executable, stdin, hcall⟩ := mem_runs.1 hr
  obtain ⟨⟨call, before, after⟩, he, rfl⟩ := List.mem_map.1 hcall
  obtain ⟨rfl, rfl, hrun⟩ := hes _ he
  rw [ht] at hrun
  obtain ⟨stdout, hproduces⟩ := run_produces hrun hok
  refine ⟨_, he, stdout, hproduces, ?_⟩
  obtain ⟨_, _, hcall, -, -, -, -, -, htext⟩ := hproduces
  cases hcall
  exact htext

theorem captured_encode {c : CompilerSettings} {text : String}
    (h : (encode text).length ≤ c.outputLimit) : captured c (encode text) = text := by
  unfold captured Capture.cut Capture.text
  rw [List.take_of_length_le h, decodeLossy_encode, Nat.sub_eq_zero_of_le h, Capture.notice,
    if_pos rfl, String.append_empty]

theorem diagnoseAndFix_printed {agent : Agent} {w : World σ} {r : Report} {p : Progress σ}
    (h : diagnoseAndFix s q agent w = (.ok r, p)) (hstop : r.stop = .converged) :
    ∃ v output expected, (verifications p.entries).getLast? = some v ∧
      p.entries = v.earlier ++ v.own ∧ Printed .candidate (callsOf v.own) output ∧
      Printed .reference (callsOf p.entries) expected ∧
      s.settings.comparison.accepts output expected = true := by
  have hconv := diagnoseAndFix_convergent h
  obtain ⟨v, output, hv, ha⟩ := hconv.converged_iff.1 hstop
  have hentries := (hconv.final v (List.mem_of_getLast? hv) output ha).1
  obtain ⟨-, hprinted, -, expected, hprinted', haccepts⟩ := ha
  refine ⟨v, output, expected, hv, hentries, hprinted, ?_, haccepts⟩
  rw [hentries, callsOf_append]
  exact hprinted'

/-- The outputs of a run of the candidate in the last verification and of one of the reference were
captured as the same text up to blanks. If they are valid texts within the limits, they are the same
up to blanks as a whole. -/
def CapturedAlike (machine : Program.Machine σ) (q : Request) (c c' : CompilerSettings)
    (entries : List (Entry σ)) : Prop :=
  ∃ v e stdout e' stdout', (verifications entries).getLast? = some v ∧ e ∈ v.own ∧
    e.Produces machine q .candidate c stdout ∧ e' ∈ entries ∧
    e'.Produces machine q .reference c' stdout' ∧
    trim (captured c stdout) = trim (captured c' stdout') ∧
    ∀ text text', stdout = encode text → stdout.length ≤ c.outputLimit →
      stdout' = encode text' → stdout'.length ≤ c'.outputLimit → SameUpToBlanks stdout stdout'

theorem converged_captured_alike {lc lr : Language} {c c' : CompilerSettings} {agent : Agent}
    {w : World σ} {r : Report} {p : Progress σ}
    (hc : s.candidate = Program.toolchain machine lc c)
    (hr : s.reference = Program.toolchain machine lr c') (hx : s.settings.comparison = .exact)
    (h : diagnoseAndFix s q agent w = (.ok r, p)) (hstop : r.stop = .converged) :
    Traced s q w p.entries p.world ∧ CapturedAlike machine q c c' p.entries := by
  refine ⟨diagnoseAndFix_traced h, ?_⟩
  have hgenuine := diagnoseAndFix_genuine h
  obtain ⟨v, _, _, hv, hentries, hprinted, hprinted', haccepts⟩ := diagnoseAndFix_printed h hstop
  have hown : ∀ e ∈ v.own, e.Genuine s q := fun e he =>
    hgenuine e (hentries ▸ List.mem_append_right _ he)
  obtain ⟨e, he, stdout, hp, rfl⟩ :=
    Printed.produces (show s.toolchain .candidate = _ from hc) hown hprinted
  -- The reference may have run in an earlier verification.
  obtain ⟨e', he', stdout', hp', rfl⟩ :=
    Printed.produces (show s.toolchain .reference = _ from hr) hgenuine hprinted'
  rw [hx] at haccepts
  have htrim : trim (captured c stdout) = trim (captured c' stdout') := beq_iff_eq.1 haccepts
  refine ⟨v, e, stdout, e', stdout', hv, he, hp, he', hp', htrim, ?_⟩
  rintro text text' rfl hlen rfl hlen'
  rw [captured_encode hlen, captured_encode hlen'] at htrim
  exact sameUpToBlanks_of_trim htrim

def printing (stdout other : Bytes) : Program.Machine Unit where
  spawn c _ w := (.ok (if c.program = "candidate" then 1 else 2), w)
  feed _ _ w := w
  waitTimeout _ _ w := (.ok (some (.exited 0)), w)
  kill _ w := (.ok (), w)
  wait _ w := (.ok (.exited 0), w)
  written _ w := (.done (.ok ()), w)
  reads pid channel w := (.ofStream (match channel with
    | .stdout => if pid = 1 then stdout else other
    | .stderr => []), w)
  settles := ⟨by simp, by simp [Program.Reads.ofStream]⟩

def printingSettings (limit : Nat) : CompilerSettings := ⟨"compiler", [], 120, 10, limit⟩

def printingSetup (limit : Nat) (stdout other : Bytes) : Setup Unit where
  client := ⟨fun name => .error (.unknownBackend name), fun name _ _ w =>
    (.error (.unknownBackend name), w)⟩
  candidate := Program.toolchain (printing stdout other) .rust (printingSettings limit)
  reference := Program.toolchain (printing stdout other) .cpp (printingSettings limit)
  settings := {}
  journal := none

def printingRequest : Request := ⟨"candidate.rs", "reference.cpp", none, none⟩

def printingWorld : World Unit := ⟨Disk.empty, false, 0, ()⟩

def printingRun (limit : Nat) (stdout other : Bytes) : Except Failure Report × Progress Unit :=
  diagnoseAndFix (printingSetup limit stdout other) printingRequest (.new "none" "" 1) printingWorld

theorem printed_six_alike :
    ∃ r p, printingRun 100 (encode "6\n") (encode " 6") = (.ok r, p) ∧ r.stop = .converged ∧
      Traced (printingSetup 100 (encode "6\n") (encode " 6")) printingRequest printingWorld
        p.entries p.world ∧
      CapturedAlike (printing (encode "6\n") (encode " 6")) printingRequest
        (printingSettings 100) (printingSettings 100) p.entries := by
  have h : (printingRun 100 (encode "6\n") (encode " 6")).1.toOption.map Report.stop =
      some .converged := by decide +kernel
  obtain ⟨r, p, hrun, hstop⟩ := exists_report h
  exact ⟨r, p, hrun, hstop, converged_captured_alike rfl rfl rfl hrun hstop⟩

def printedBy (stdout other : Bytes) : Side → Bytes
  | .candidate => stdout
  | .reference => other

theorem Entry.Produces.printing {stdout other output : Bytes} {side : Side}
    {c : CompilerSettings} {e : Entry Unit}
    (h : e.Produces (printing stdout other) printingRequest side c output) :
    output = printedBy stdout other side := by
  obtain ⟨_, seen, -, hchild, -, -, rfl, -⟩ := h
  cases hchild with
  | seen hi hn hs hseen =>
    cases hseen with
    | mk hend hfed hout herr =>
      obtain ⟨reads, hreads, -, rfl⟩ := hout
      cases hs
      cases hreads
      refine (Capture.flatten_pieces _).trans ?_
      cases side with
      | candidate =>
        have hname : executableFor "candidate.rs" = "candidate" := by decide +kernel
        simp [Request.source, printingRequest, hname, printedBy]
      | reference =>
        have hname : executableFor "reference.cpp" ≠ "candidate" := by decide +kernel
        simp [Request.source, printingRequest, hname, printedBy]

def ConvergesOn (limit : Nat) (stdout other : Bytes) : Prop :=
  ∃ r p, printingRun limit stdout other = (.ok r, p) ∧ r.stop = .converged ∧
    (∃ e ∈ p.entries, e.Produces (printing stdout other) printingRequest .candidate
      (printingSettings limit) stdout) ∧
    ∃ e ∈ p.entries, e.Produces (printing stdout other) printingRequest .reference
      (printingSettings limit) other

theorem convergesOn_of_stop {limit : Nat} {stdout other : Bytes}
    (h : (printingRun limit stdout other).1.toOption.map Report.stop = some .converged) :
    ConvergesOn limit stdout other := by
  obtain ⟨r, p, hrun, hstop⟩ := exists_report h
  have hgenuine := diagnoseAndFix_genuine hrun
  obtain ⟨v, output, _, -, hentries, hprinted, hprinted', -⟩ := diagnoseAndFix_printed hrun hstop
  have hall : Printed .candidate (callsOf p.entries) output := by
    rw [hentries, callsOf_append, printed_append]
    exact .inr hprinted
  have hproduces {side : Side} {output : String} {l : Language}
      (ht : (printingSetup limit stdout other).toolchain side =
        Program.toolchain (printing stdout other) l (printingSettings limit))
      (hp : Printed side (callsOf p.entries) output) :
      ∃ e ∈ p.entries, e.Produces (printing stdout other) printingRequest side
        (printingSettings limit) (printedBy stdout other side) := by
    obtain ⟨e, he, output, hp, -⟩ := hp.produces ht hgenuine
    exact ⟨e, he, hp.printing ▸ hp⟩
  exact ⟨r, p, hrun, hstop, hproduces rfl hall, hproduces rfl hprinted'⟩

/-- Bytes that are no text, and bytes past the limit, may differ where a repair converges. -/
theorem converges_on_other_bytes :
    ConvergesOn 100 [0xFF] [0xFE] ∧ ¬ SameUpToBlanks [0xFF] [0xFE] ∧
      ConvergesOn 1 (encode "ab") (encode "ac") ∧
      ¬ SameUpToBlanks (encode "ab") (encode "ac") := by
  refine ⟨convergesOn_of_stop (by decide +kernel), fun h => ?_,
    convergesOn_of_stop (by decide +kernel), fun h => ?_⟩
  · have := h.mem (x := 0xFF) (by decide) (by simp)
    simp at this
  · have := h.mem (x := 0x62) (by decide) (by decide +kernel)
    exact absurd this (by decide +kernel)

end Anneal.Repair
