import Anneal.Proofs.Repair.Check

/-! The verdict on a verification is what the answers of the toolchains say about it. The output of
the reference may come from an earlier verification: what is remembered of it is the output that
was printed by then. -/

namespace Anneal.Repair

variable {σ : Type} {s : Setup σ} {q : Request}

structure Remembers (known : Option String) (calls : List Call) : Prop where
  printed : ∀ output, Printed .reference calls output ↔ known = some output
  compiled : ∀ output, known = some output → Compiled .reference calls

structure Judged (s : Setup σ) (v : Verification σ) (verdict : Verdict) : Prop where
  fails : ∀ c d, Fails s v c d ↔ ∃ output, verdict = .failed c (.fail c.stage output d)
  breaks : ∀ d, Breaks v d ↔ verdict = .referenceBroken d
  agrees : ∀ output, Agrees s v output ↔ verdict = .converged output

def Call.isApart : Call → Bool
  | .compile _ _ _ => false
  | .run _ _ _ _ => false
  | _ => true

theorem compilations_apart (side : Side) {calls : List Call}
    (h : ∀ c ∈ calls, c.isApart = true) : compilations side calls = [] := by
  refine List.filterMap_eq_nil_iff.2 fun c hc => ?_
  have := h c hc
  cases c <;> simp_all [Call.isApart]

theorem runs_apart (side : Side) {calls : List Call} (h : ∀ c ∈ calls, c.isApart = true) :
    runs side calls = [] := by
  refine List.filterMap_eq_nil_iff.2 fun c hc => ?_
  have := h c hc
  cases c <;> simp_all [Call.isApart]

theorem fails_iff {v : Verification σ} {c : FailureClass} {d : String} :
    Fails s v c d ↔
      (c = .compileError ∧ ∃ r ∈ compilations .candidate v.calls, r.ok = false ∧ r.text = d) ∨
      (c = .runtimeError ∧ ∃ r ∈ runs .candidate v.calls, r.ok = false ∧ r.text = d) ∨
      (c = .outputMismatch ∧ ∃ output expected, Printed .candidate v.calls output ∧
        Printed .reference v.callsSoFar expected ∧
        s.settings.comparison.accepts output expected = false ∧
        Prompts.mismatchReport s.candidate.language.displayName output
          s.reference.language.displayName expected = d) := by
  constructor
  · rintro (⟨hc, hf⟩ | ⟨hr, hf⟩ | ⟨hc, hr, hf⟩)
    · exact .inl ⟨rfl, _, hc, hf, rfl⟩
    · exact .inr (.inl ⟨rfl, _, hr, hf, rfl⟩)
    · exact .inr (.inr ⟨rfl, _, _, hc, hr, hf, rfl⟩)
  · rintro (⟨rfl, r, hr, hf, rfl⟩ | ⟨rfl, r, hr, hf, rfl⟩ | ⟨rfl, o, e, ho, he, hf, rfl⟩)
    · exact .compile hr hf
    · exact .run hr hf
    · exact .compare ho he hf

theorem breaks_iff {v : Verification σ} {d : String} :
    Breaks v d ↔
      (∃ c ∈ compilations .reference v.calls, c.ok = false ∧
        "reference program failed to compile:\n" ++ c.text = d) ∨
      (∃ r ∈ runs .reference v.calls, r.ok = false ∧
        "reference program failed to run:\n" ++ r.text = d) := by
  constructor
  · rintro (⟨hc, hf⟩ | ⟨hr, hf⟩)
    · exact .inl ⟨_, hc, hf, rfl⟩
    · exact .inr ⟨_, hr, hf, rfl⟩
  · rintro (⟨c, hc, hf, rfl⟩ | ⟨r, hr, hf, rfl⟩)
    · exact .compile hc hf
    · exact .run hr hf

theorem failed_eq_iff (c c' : FailureClass) (output d d' : String) :
    (∃ output', Verdict.failed c (.fail c.stage output d) = .failed c' (.fail c'.stage output' d')) ↔
      c' = c ∧ d = d' := by
  constructor
  · rintro ⟨_, h⟩
    simp only [Verdict.failed.injEq, Outcome.fail, Outcome.mk.injEq, Option.some.injEq] at h
    exact ⟨h.1.symm, h.2.2.2.2⟩
  · rintro ⟨rfl, rfl⟩
    exact ⟨output, rfl⟩

variable {v : Verification σ} {c r : StepResult}

theorem judged_compileFails (hc : c.ok = false) (hcs : compilations .candidate v.calls = [c])
    (hrs : runs .candidate v.calls = []) (hcs' : compilations .reference v.calls = [])
    (hrs' : runs .reference v.calls = []) :
    Judged s v (.failed .compileError (.fail .compile "" c.text)) where
  fails c' d := by
    rw [show Stage.compile = FailureClass.compileError.stage from rfl, failed_eq_iff]
    simp [fails_iff, Printed, hcs, hrs, hc]
  breaks d := by simp [breaks_iff, hcs', hrs']
  agrees output := by simp [Agrees, Compiled, hcs, hc]

theorem judged_runFails (hc : c.ok = true) (hr : r.ok = false)
    (hcs : compilations .candidate v.calls = [c]) (hrs : runs .candidate v.calls = [r])
    (hcs' : compilations .reference v.calls = []) (hrs' : runs .reference v.calls = []) :
    Judged s v (.failed .runtimeError (.fail .run "" r.text)) where
  fails c' d := by
    rw [show Stage.run = FailureClass.runtimeError.stage from rfl, failed_eq_iff]
    simp [fails_iff, Printed, hcs, hrs, hc, hr]
  breaks d := by simp [breaks_iff, hcs', hrs']
  agrees output := by simp [Agrees, Printed, hrs, hr]

theorem judged_judge {expected : String} (hc : c.ok = true) (hr : r.ok = true)
    (hcs : compilations .candidate v.calls = [c]) (hrs : runs .candidate v.calls = [r])
    (hk : Remembers (some expected) v.callsSoFar)
    (hcs' : ∀ c ∈ compilations .reference v.calls, c.ok = true)
    (hrs' : ∀ r ∈ runs .reference v.calls, r.ok = true) :
    Judged s v (judge s r.text expected) := by
  have hcompiled : Compiled .candidate v.calls := by simp [Compiled, hcs, hc]
  have hprinted (output : String) : Printed .candidate v.calls output ↔ r.text = output := by
    simp [Printed, hrs, hr]
  have hcompiled' := hk.compiled expected rfl
  have hprinted' (output : String) : Printed .reference v.callsSoFar output ↔
      expected = output := by
    simp [hk.printed]
  have hbreaks (d : String) : ¬ Breaks v d := by
    rw [breaks_iff]
    rintro (⟨c, hc, hf, -⟩ | ⟨r, hr, hf, -⟩)
    · simp [hcs' c hc] at hf
    · simp [hrs' r hr] at hf
  have hagrees (output : String) : Agrees s v output ↔
      r.text = output ∧ s.settings.comparison.accepts r.text expected = true := by
    constructor
    · rintro ⟨-, ho, -, e, he, ha⟩
      obtain rfl := (hprinted output).1 ho
      obtain rfl := (hprinted' e).1 he
      exact ⟨rfl, ha⟩
    · rintro ⟨rfl, ha⟩
      exact ⟨hcompiled, (hprinted _).2 rfl, hcompiled', expected, (hprinted' _).2 rfl, ha⟩
  unfold judge
  split
  next ha =>
    refine ⟨fun c' d => ?_, fun d => ?_, fun output => ?_⟩
    · simp [fails_iff, hcs, hrs, hc, hr, hprinted, hprinted', ha]
    · simp [hbreaks]
    · simp [hagrees, ha]
  next ha =>
    refine ⟨fun c' d => ?_, fun d => ?_, fun output => ?_⟩
    · rw [show Stage.compare = FailureClass.outputMismatch.stage from rfl, failed_eq_iff]
      simp [fails_iff, hcs, hrs, hc, hr, hprinted, hprinted', ha]
    · simp [hbreaks]
    · simp [hagrees, ha]

theorem judged_broken {diagnostic : String} (hrs : ∀ r ∈ runs .candidate v.calls, r.ok = true)
    (hcs : ∀ c ∈ compilations .candidate v.calls, c.ok = true)
    (hp : ∀ output, ¬ Printed .reference v.callsSoFar output)
    (hb : ∀ d, Breaks v d ↔ diagnostic = d) : Judged s v (.referenceBroken diagnostic) where
  fails c d := by
    rw [fails_iff]
    constructor
    · rintro (⟨-, c, hc, hf, -⟩ | ⟨-, r, hr, hf, -⟩ | ⟨-, _, e, -, he, -⟩)
      · simp [hcs c hc] at hf
      · simp [hrs r hr] at hf
      · exact absurd he (hp e)
    · rintro ⟨_, h⟩
      cases h
  breaks d := by rw [hb, Verdict.referenceBroken.injEq]
  agrees output := by
    constructor
    · rintro ⟨-, -, -, e, he, -⟩
      exact absurd he (hp e)
    · intro h
      cases h

theorem printed_append {side : Side} {cs ds : List Call} {output : String} :
    Printed side (cs ++ ds) output ↔ Printed side cs output ∨ Printed side ds output := by
  simp [Printed, or_and_right, exists_or]

theorem compiled_append {side : Side} {cs ds : List Call} :
    Compiled side (cs ++ ds) ↔ Compiled side cs ∨ Compiled side ds := by
  simp [Compiled, or_and_right, exists_or]

theorem Remembers.append {known : Option String} {cs ds : List Call} (h : Remembers known cs)
    (hd : ∀ output, ¬ Printed .reference ds output) : Remembers known (cs ++ ds) where
  printed output := by rw [printed_append, or_iff_left (hd output), h.printed]
  compiled output hk := compiled_append.2 (.inl (h.compiled output hk))

theorem ReferenceCheck.candidate {calls : List Call}
    {result : Except Failure (Except String String)} (h : ReferenceCheck q calls result) :
    compilations .candidate calls = [] ∧ runs .candidate calls = [] := by
  cases h <;> simp [compilations, runs, Request.compiling, Request.running]

theorem ReferenceCheck.silent {calls : List Call} {result : Except Failure (Except String String)}
    (h : ReferenceCheck q calls result) (hr : ∀ output, result ≠ .ok (.ok output)) :
    ∀ output, ¬ Printed .reference calls output := by
  intro output
  cases h with
  | printed hc hr' => exact absurd rfl (hr _)
  | _ => simp_all [Printed, runs, Request.compiling, Request.running]

theorem ReferenceCheck.breaks {calls : List Call} {diagnostic : String}
    (h : ReferenceCheck q calls (.ok (.error diagnostic)))
    (hcs : compilations .reference v.calls = compilations .reference calls)
    (hrs : runs .reference v.calls = runs .reference calls) (d : String) :
    Breaks v d ↔ diagnostic = d := by
  rw [breaks_iff, hcs, hrs]
  cases h with
  | compileFails hc =>
    simp [compilations, runs, Request.compiling, hc]
  | runFails hc hr =>
    simp [compilations, runs, Request.compiling, Request.running, hc, hr]

theorem Check.remembers {known known' : Option String} {cs calls : List Call}
    {result : Except Failure Verdict} (hk : Remembers known cs)
    (h : Check s q known calls result known') : Remembers known' (cs ++ calls) := by
  have hcand (c r : StepResult) (calls : List Call) (output : String) :
      Printed .reference (q.compiling .candidate (.ok c) :: q.running .candidate (.ok r) :: calls)
        output ↔ Printed .reference calls output := by
    simp [Printed, runs, Request.compiling, Request.running]
  cases h with
  | unanswered hc hr hn hq =>
    subst hn
    refine hk.append fun output => ?_
    rw [hcand]
    exact hq.silent (by simp) output
  | broken hc hr hn hq =>
    subst hn
    refine hk.append fun output => ?_
    rw [hcand]
    exact hq.silent (by simp) output
  | answered hc hr hn hq =>
    subst hn
    cases hq with
    | printed hc' hr' =>
      refine ⟨fun output => ?_, fun output _ => compiled_append.2 (.inr ?_)⟩
      · rw [printed_append, hk.printed, hcand]
        simp [Printed, runs, Request.compiling, Request.running, hr']
      · simp [Compiled, compilations, Request.compiling, Request.running, hc']
  | _ => exact hk.append fun output => by simp [Printed, runs, Request.compiling, Request.running]

/-- `more` stands for what follows the verification: the model call and the write. -/
theorem Check.judged {known known' : Option String} {calls more : List Call} {verdict : Verdict}
    (hk : Remembers known (callsOf v.earlier)) (h : Check s q known calls (.ok verdict) known')
    (hv : v.calls = calls ++ more) (hm : ∀ c ∈ more, c.isApart = true) : Judged s v verdict := by
  have hcs (side : Side) : compilations side v.calls = compilations side calls := by
    rw [hv, compilations_append, compilations_apart side hm, List.append_nil]
  have hrs (side : Side) : runs side v.calls = runs side calls := by
    rw [hv, runs_append, runs_apart side hm, List.append_nil]
  have hk' : Remembers known' v.callsSoFar := by
    have hmore (output : String) : ¬ Printed .reference more output := by
      simp [Printed, runs_apart _ hm]
    have := (h.remembers hk).append hmore
    rwa [List.append_assoc, ← hv] at this
  cases h with
  | compileFails hc => exact judged_compileFails hc (hcs _) (hrs _) (hcs _) (hrs _)
  | runFails hc hr => exact judged_runFails hc hr (hcs _) (hrs _) (hcs _) (hrs _)
  | compared hc hr hn =>
    refine judged_judge hc hr (hcs _) (hrs _) (hn ▸ hk') ?_ ?_
    · rw [hcs]
      simp [compilations, Request.compiling, Request.running]
    · rw [hrs]
      simp [runs, Request.compiling, Request.running]
  | broken hc hr hn hq =>
    obtain ⟨hcc, hrc⟩ := hq.candidate
    refine judged_broken ?_ ?_ (fun output => ?_) (hq.breaks (hcs _) (hrs _))
    · have : runs .candidate v.calls = [_] := (hrs _).trans (congrArg (_ :: ·) hrc)
      simp [this, hr]
    · have : compilations .candidate v.calls = [_] := (hcs _).trans (congrArg (_ :: ·) hcc)
      simp [this, hc]
    · simp [hk'.printed]
  | answered hc hr hn hq =>
    cases hq with
    | printed hc' hr' =>
      refine judged_judge hc hr (hcs _) (hrs _) hk' ?_ ?_
      · rw [hcs]
        simp [compilations, Request.compiling, Request.running, hc']
      · rw [hrs]
        simp [runs, Request.compiling, Request.running, hr']

end Anneal.Repair
