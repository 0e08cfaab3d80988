import Anneal.Proofs.Repair.Chain
import Anneal.Proofs.Repair.Journal

/-! A journal that begins with an empty directory is a faithful record of its repair, as long as no
tool and no model writes into the directory and the candidate is not the log itself. -/

namespace Anneal

open Disk

def Journal.names (n : Nat) : List String :=
  "session.log" :: "report.json" :: (List.range' 1 n).map fun k => s!"attempt-{k}.json"

namespace Repair

open Journal

variable {σ : Type} {s : Setup σ} {q : Request} {j : Journal} {w : World σ}

/-- The directory of the journal holds these files and no others, and each is read back as what it
tells of. The log has an event for the start, one for each verification and one for the end. -/
structure Faithful (s : Setup σ) (q : Request) (j : Journal) (home : Place) (r : Report)
    (p : Progress σ) : Prop where
  files : ∀ place, Below (placeOf home j.dir) place → (p.world.disk.node? place ≠ none ↔
    ∃ name ∈ Journal.names r.attempts.length, place = placeOf home j.dir ++ [name])
  attempt : ∀ k a, r.attempts[k]? = some a →
    ∃ text, p.world.disk.readTextNow (j.attemptPath (k + 1)) = .ok text ∧
      Json.Records Attempt.ofJson text a
  report : ∃ text, p.world.disk.readTextNow j.reportPath = .ok text ∧
    Json.Records Report.ofJson text r
  log : ∃ events notes, p.world.disk.readTextNow j.logPath = .ok (logText events) ∧
    events.map Prod.snd = startMessage s q :: numbered notes ++ [finishMessage r] ∧
    List.Forall₂ (Logged s) (verifications p.entries) notes ∧
    events.length = r.verifications + 2

section Ended

variable {d₀ : Disk} {r : Report} {p : Progress σ}

theorem Ended.number (h : Ended s q j d₀ r p) {k : Nat} {a : Attempt}
    (ha : r.attempts[k]? = some a) : a.number = k + 1 := by
  have hk : (r.attempts.map Attempt.number)[k]? = some a.number := by
    rw [List.getElem?_map, ha]
    rfl
  rw [h.numbered] at hk
  obtain ⟨hlt, he⟩ := List.getElem?_eq_some_iff.1 hk
  rw [List.getElem_range'] at he
  omega

theorem Ended.attempt (h : Ended s q j d₀ r p) {k : Nat} {a : Attempt}
    (ha : r.attempts[k]? = some a) :
    ∃ text, p.world.disk.readTextNow (j.attemptPath (k + 1)) = .ok text ∧
      Json.Records Attempt.ofJson text a := by
  obtain ⟨_, _, -, -, hc⟩ := h.closed
  have hmem : a ∈ r.attempts := List.mem_of_getElem? ha
  have hread := (hc.attempt a hmem).readText
  rw [h.number ha] at hread
  exact ⟨_, hread, (h.fits.attempts a hmem).records⟩

theorem Ended.files (h : Ended s q j d₀ r p)
    (hempty : ∀ place, Below (placeOf d₀.home j.dir) place → d₀.node? place = none)
    {place : Place} (hb : Below (placeOf d₀.home j.dir) place) :
    p.world.disk.node? place ≠ none ↔
      ∃ name ∈ Journal.names r.attempts.length, place = placeOf d₀.home j.dir ++ [name] := by
  obtain ⟨_, _, -, -, hc⟩ := h.closed
  constructor
  · intro hn
    by_contra hnames
    simp only [not_exists, not_and] at hnames
    refine hn ((hc.others place hb ?_ ?_ fun a ha => ?_).trans (hempty place hb))
    · rw [placeOf_logPath]
      exact hnames _ (by simp [Journal.names])
    · rw [placeOf_reportPath]
      exact hnames _ (by simp [Journal.names])
    · rw [placeOf_attemptPath]
      have hnumber : a.number ∈ r.attempts.map Attempt.number := List.mem_map_of_mem ha
      rw [h.numbered] at hnumber
      refine hnames _ (List.mem_cons_of_mem _ (List.mem_cons_of_mem _ ?_))
      exact List.mem_map.2 ⟨a.number, hnumber, rfl⟩
  · rintro ⟨name, hname, rfl⟩
    have hhome := hc.home
    rcases List.mem_cons.1 hname with rfl | hname
    · rw [← placeOf_logPath, ← hhome]
      exact hc.log.node
    rcases List.mem_cons.1 hname with rfl | hname
    · rw [← placeOf_reportPath, ← hhome]
      exact hc.report.node
    · obtain ⟨k, hk, rfl⟩ := List.mem_map.1 hname
      rw [← h.numbered] at hk
      obtain ⟨a, ha, rfl⟩ := List.mem_map.1 hk
      rw [← placeOf_attemptPath, ← hhome]
      exact (hc.attempt a ha).node

theorem Ended.faithful (h : Ended s q j d₀ r p)
    (hempty : ∀ place, Below (placeOf d₀.home j.dir) place → d₀.node? place = none) :
    Faithful s q j d₀.home r p where
  files place hb := h.files hempty hb
  attempt k a ha := h.attempt ha
  report := by
    obtain ⟨_, _, -, -, hc⟩ := h.closed
    exact ⟨_, hc.report.readText, h.fits.records⟩
  log := by
    obtain ⟨events, notes, hevents, hnotes, hc⟩ := h.closed
    have hnone : d₀.content? (placeOf d₀.home j.logPath) = none := by
      rw [content?, hempty _ (Keeps.log.below d₀.home)]
    have hlog := hc.log
    rw [hnone, Option.getD_none, List.nil_append] at hlog
    refine ⟨events, notes, hlog.readText, hevents, hnotes, ?_⟩
    have hlength := congrArg List.length hevents
    have hcount := hnotes.length_eq
    rw [List.length_map, List.length_append, List.length_cons, length_numbered,
      List.length_singleton] at hlength
    rw [h.verifications, hcount, hlength]

end Ended

/-- The journal of a repair tells of it and of nothing else. The session's directory is empty at
first, tools and model leave it alone, and the clock stays within the calendar. -/
theorem journal_tells_repair {agent : Agent} {r : Report} {p : Progress σ}
    (hrun : diagnoseAndFix s q agent w = (.ok r, p)) (hj : s.journal = some j)
    (hempty : ∀ place, Below (placeOf w.disk.home j.dir) place → w.disk.node? place = none)
    (hcandidate : placeOf w.disk.home q.candidatePath ≠ placeOf w.disk.home j.logPath)
    (haloof : ∀ e ∈ p.entries, e.call.isWrite = false →
      Same (placeOf w.disk.home j.dir) e.before.disk e.after.disk)
    (hdated : Dated w ∧ ∀ e ∈ p.entries, Dated e.after)
    (hmax : s.settings.maxRetry < Word.bound 32) :
    Faithful s q j w.disk.home r p := by
  have helsewhere : Elsewhere q j w.disk := fun hb => ⟨hcandidate, hempty _ hb⟩
  have hcalls : ∀ e ∈ p.entries, e.Aloof (placeOf w.disk.home j.dir) :=
    fun e he => ⟨haloof e he, hdated.2 e he⟩
  exact (diagnoseAndFix_ended hrun hj hdated.1 hmax helsewhere hcalls).faithful hempty

theorem rehearsal_still {e : Entry Scripted.Script} (h : e.Genuine rehearsal rehearsalRequest)
    (hw : e.call.isWrite = false) : e.after.disk = e.before.disk := by
  obtain ⟨call, before, after⟩ := e
  cases call with
  | compile side source r =>
    have := rehearsal_compile_disk side source before
    rwa [show (rehearsal.toolchain side).compile source before = (r, after) from h.2] at this
  | run side executable stdin r =>
    have := rehearsal_run_disk side executable stdin before
    rwa [show (rehearsal.toolchain side).run executable stdin before = (r, after) from h.2.2] at this
  | chat text r =>
    obtain ⟨a, a', h⟩ := h
    have hcomplete {backend : String} {prompt : Prompt} {options : CompletionOptions}
        {r : Except ClientError String} {w : World Scripted.Script}
        (h : rehearsal.client.complete backend prompt options before = (r, w)) :
        w.disk = before.disk := by
      cases h
      exact cancelDuring_disk _ _ _
    unfold Agent.chat at h
    split at h
    · cases h
      rfl
    · split at h
      next hc =>
        cases h
        exact hcomplete hc
      next hc =>
        cases h
        exact hcomplete hc
  | write text => cases hw

theorem rehearsal_faithful :
    ∃ r p, diagnoseAndFix rehearsal rehearsalRequest rehearsalAgent rehearsalWorld = (.ok r, p) ∧
      rehearsal.journal = some ⟨"s", "log"⟩ ∧
      (∀ place, Below (placeOf rehearsalDisk.home "log") place →
        rehearsalDisk.node? place = none) ∧
      placeOf rehearsalDisk.home rehearsalRequest.candidatePath ≠
        placeOf rehearsalDisk.home (Journal.logPath ⟨"s", "log"⟩) ∧
      (∀ e ∈ p.entries, e.call.isWrite = false →
        Same (placeOf rehearsalDisk.home "log") e.before.disk e.after.disk) ∧
      (Dated rehearsalWorld ∧ ∀ e ∈ p.entries, Dated e.after) ∧
      rehearsal.settings.maxRetry < Word.bound 32 ∧
      Faithful rehearsal rehearsalRequest ⟨"s", "log"⟩ rehearsalDisk.home r p := by
  have hstop : (diagnoseAndFix rehearsal rehearsalRequest rehearsalAgent
      rehearsalWorld).1.toOption.map Report.stop = some .converged := by decide +kernel
  have hempty : ∀ e ∈ rehearsalDisk.nodes, ¬ Below (placeOf rehearsalDisk.home "log") e.1 := by
    decide +kernel
  have hdated : ∀ e ∈ (diagnoseAndFix rehearsal rehearsalRequest rehearsalAgent
      rehearsalWorld).2.entries, Timestamp.isCalendarYear e.after.now.year = true := by
    decide +kernel
  have hcandidate : placeOf rehearsalDisk.home rehearsalRequest.candidatePath ≠
      placeOf rehearsalDisk.home (Journal.logPath ⟨"s", "log"⟩) := by decide +kernel
  obtain ⟨r, p, hrun, -⟩ := exists_report hstop
  rw [hrun] at hdated
  have haloof (e : Entry Scripted.Script) (he : e ∈ p.entries) (hw : e.call.isWrite = false) :
      Same (placeOf rehearsalDisk.home "log") e.before.disk e.after.disk := by
    rw [rehearsal_still (diagnoseAndFix_genuine hrun e he) hw]
    exact .refl _
  have hstart : Dated rehearsalWorld := by
    unfold Dated
    decide +kernel
  have hmax : rehearsal.settings.maxRetry < Word.bound 32 := by decide
  have hempty (place : Place) (hb : Below (placeOf rehearsalDisk.home "log") place) :
      rehearsalDisk.node? place = none := node?_eq_none_of_nodes hempty hb
  exact ⟨r, p, hrun, rfl, hempty, hcandidate, haloof, ⟨hstart, hdated⟩, hmax,
    journal_tells_repair hrun rfl hempty hcandidate haloof ⟨hstart, hdated⟩ hmax⟩

structure Unfaithful (s : Setup Scripted.Script) (q : Request) (w : World Scripted.Script) :
    Prop where
  journal : s.journal = some ⟨"s", "log"⟩
  empty : ∀ place, Below (placeOf w.disk.home "log") place → w.disk.node? place = none
  ends : ∃ r p, diagnoseAndFix s q rehearsalAgent w = (.ok r, p) ∧
    ¬ Faithful s q ⟨"s", "log"⟩ w.disk.home r p

def littering : Setup Scripted.Script :=
  { rehearsal with
    candidate :=
      { rehearsal.candidate with
        compile := fun source w =>
          Scripted.compile .rust source (w.onDisk fun d => d.writeText "log/notes.txt" "").2 } }

def logRequest : Request := ⟨"log/session.log", "main.cpp", none, none⟩

def oneAttempt : Setup Scripted.Script := { rehearsal with settings := { maxRetry := 1 } }

def failingWorld (d : Disk) (code : String) : World Scripted.Script where
  disk := d
  cancelled := false
  clock := 0
  outside :=
    { replies := fun _ => ⟨[.ok (Scripted.modifiedCodeReply code)], []⟩
      results := fun _ => ⟨[.failure "error"], [], 0, 0, []⟩
      cancelAt := none }

theorem not_faithful_of_file {r : Report} {p : Progress σ} {name : String} {c : Char}
    (hc : c ≠ 's' ∧ c ≠ 'r' ∧ c ≠ 'a') (hhead : name.toList.head? = some c) {home : Place}
    (hn : p.world.disk.node? (placeOf home j.dir ++ [name]) ≠ none) :
    ¬ Faithful s q j home r p := by
  intro h
  obtain ⟨other, hother, he⟩ := (h.files _ (below_concat.2 List.prefix_rfl)).1 hn
  obtain rfl : name = other := List.singleton_inj.1 (List.append_cancel_left he)
  rcases List.mem_cons.1 hother with rfl | hother
  · exact hc.1 (Option.some.inj hhead).symm
  rcases List.mem_cons.1 hother with rfl | hother
  · exact hc.2.1 (Option.some.inj hhead).symm
  · obtain ⟨k, -, hk⟩ := List.mem_map.1 hother
    exact attemptName_ne hc.2.2 hhead k hk.symm

theorem not_faithful_of_log {r : Report} {p : Progress σ} {home : Place} {text : String}
    {c : Char} (hread : p.world.disk.readTextNow j.logPath = .ok text)
    (hstart : c ∈ (startMessage s q).toList) (hc : c ∉ text.toList) :
    ¬ Faithful s q j home r p := by
  intro h
  obtain ⟨events, notes, hlog, hevents, -⟩ := h.log
  cases events with
  | nil => cases hevents
  | cons e rest =>
    obtain ⟨now, message⟩ := e
    obtain rfl : message = startMessage s q := (List.cons.inj hevents).1
    obtain rfl := Except.ok.inj (hread.symm.trans hlog)
    apply hc
    rw [show (now, startMessage s q) :: rest = [(now, startMessage s q)] ++ rest from rfl,
      logText_append, logText_singleton]
    simp [entry, hstart]

theorem disturbed_journals :
    Unfaithful littering rehearsalRequest rehearsalWorld ∧
      Unfaithful oneAttempt logRequest (failingWorld rehearsalDisk "fn main() \x7b\x7d") := by
  have hempty : ∀ e ∈ rehearsalDisk.nodes, ¬ Below (placeOf rehearsalDisk.home "log") e.1 := by
    decide +kernel
  constructor
  · refine ⟨rfl, fun _ hb => node?_eq_none_of_nodes hempty hb, ?_⟩
    have hstop : (diagnoseAndFix littering rehearsalRequest rehearsalAgent
        rehearsalWorld).1.toOption.map Report.stop = some .converged := by decide +kernel
    have hnode : (diagnoseAndFix littering rehearsalRequest rehearsalAgent
        rehearsalWorld).2.world.disk.node?
          (placeOf rehearsalDisk.home "log" ++ ["notes.txt"]) ≠ none := by decide +kernel
    obtain ⟨r, p, hrun, -⟩ := exists_report hstop
    rw [hrun] at hnode
    exact ⟨r, p, hrun, not_faithful_of_file (c := 'n') (by decide) (by decide) hnode⟩
  · refine ⟨rfl, fun _ hb => node?_eq_none_of_nodes hempty hb, ?_⟩
    have hstop : (diagnoseAndFix oneAttempt logRequest rehearsalAgent
        (failingWorld rehearsalDisk "fn main() \x7b\x7d")).1.toOption.map Report.stop =
          some .exhausted := by decide +kernel
    have hlog : ((diagnoseAndFix oneAttempt logRequest rehearsalAgent
        (failingWorld rehearsalDisk "fn main() \x7b\x7d")).2.world.disk.readTextNow
          (Journal.logPath ⟨"s", "log"⟩)).toOption.map (fun text => decide ('=' ∈ text.toList)) =
            some false := by decide +kernel
    obtain ⟨r, p, hrun, -⟩ := exists_report hstop
    rw [hrun] at hlog
    cases hread : p.world.disk.readTextNow (Journal.logPath ⟨"s", "log"⟩) with
    | error e =>
      rw [hread] at hlog
      cases hlog
    | ok text =>
      rw [hread] at hlog
      exact ⟨r, p, hrun, not_faithful_of_log (c := '=') hread (by decide +kernel)
        (of_decide_eq_false (Option.some.inj hlog))⟩

end Repair
end Anneal
