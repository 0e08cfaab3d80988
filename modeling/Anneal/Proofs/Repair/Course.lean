import Anneal.Proofs.Repair.Pass

/-! The course of a whole repair. The loop is told once more without a bound of its own, going on
for as long as fewer fixes are recorded than are allowed; it is the same loop. What every pass that
fixes something preserves then holds in front of the last pass. -/

namespace Anneal.Repair

variable {σ : Type} {s : Setup σ} {q : Request}

inductive Runs (s : Setup σ) (q : Request) :
    Progress σ → Except Failure Stop → Progress σ → Prop
  | failed {p p' : Progress σ} {e : Failure} (h : pass s q p = (.error e, p')) :
      Runs s q p (.error e) p'
  | stopped {p p' : Progress σ} {stop : Stop} (h : pass s q p = (.ok (.stopped stop), p')) :
      Runs s q p (.ok stop) p'
  | exhausted {p p' : Progress σ} (h : pass s q p = (.ok .repaired, p'))
      (hm : s.settings.maxRetry ≤ p'.attempts.length) : Runs s q p (.ok (exhaustedStop s)) p'
  | again {p m p' : Progress σ} {r : Except Failure Stop} (h : pass s q p = (.ok .repaired, m))
      (hm : m.attempts.length < s.settings.maxRetry) (hr : Runs s q m r p') : Runs s q p r p'

/-- A whole repair with that loop. -/
inductive Repairs (s : Setup σ) (q : Request) (agent : Agent) (w : World σ) :
    Except Failure Report → Progress σ → Prop
  | unopened {p : Progress σ} {e : Failure}
      (h : log s (startMessage s q) (.start agent w) = (.error e, p)) :
      Repairs s q agent w (.error e) p
  | failed {p p' : Progress σ} {e : Failure}
      (h : log s (startMessage s q) (.start agent w) = (.ok (), p))
      (hr : Runs s q p (.error e) p') : Repairs s q agent w (.error e) p'
  | ended {p m p' : Progress σ} {stop : Stop} {result : Except Failure Report}
      (h : log s (startMessage s q) (.start agent w) = (.ok (), p))
      (hr : Runs s q p (.ok stop) m) (hf : finish s w stop m = (result, p')) :
      Repairs s q agent w result p'

theorem attempts_repaired {p m : Progress σ} (h : pass s q p = (.ok .repaired, m)) :
    m.attempts.length = p.attempts.length + 1 := by
  cases pass_spec h with
  | fixed hv hj hf =>
    cases hf with
    | repaired => exact List.length_append

theorem runs_iff_loop {left : Nat} {p p' : Progress σ} {r : Except Failure Stop}
    (hleft : left = s.settings.maxRetry - 1 - p.attempts.length) :
    Runs s q p r p' ↔ loop s q left p = (r, p') := by
  -- The bound of the loop is what the recorded attempts leave of the budget, pass after pass.
  induction left generalizing p with
  | zero =>
    rw [loop]
    constructor
    · intro h
      cases h with
      | failed h => rw [h]
      | stopped h => rw [h]
      | exhausted h => rw [h]
      | again h hm =>
        have := attempts_repaired h
        omega
    · intro h
      split at h
      next hp =>
        cases h
        exact .failed hp
      next hp =>
        cases h
        exact .stopped hp
      next hp =>
        cases h
        have := attempts_repaired hp
        exact .exhausted hp (by omega)
  | succ left ih =>
    rw [loop]
    constructor
    · intro h
      cases h with
      | failed h => rw [h]
      | stopped h => rw [h]
      | exhausted h hm =>
        have := attempts_repaired h
        omega
      | again h hm hr =>
        have := attempts_repaired h
        rw [h]
        exact (ih (by omega)).1 hr
    · intro h
      split at h
      next hp =>
        cases h
        exact .failed hp
      next hp =>
        cases h
        exact .stopped hp
      next m hp =>
        have := attempts_repaired hp
        exact .again hp (by omega) ((ih (by omega)).2 h)

theorem attempts_start {agent : Agent} {w : World σ} {message : String} {p : Progress σ}
    {r : Except Failure Unit} (h : log s message (.start agent w) = (r, p)) : p.attempts = [] := by
  obtain ⟨_, -, rfl⟩ := log_spec h
  rfl

theorem repairs_iff {agent : Agent} {w : World σ} {result : Except Failure Report}
    {p : Progress σ} :
    Repairs s q agent w result p ↔ diagnoseAndFix s q agent w = (result, p) := by
  unfold diagnoseAndFix
  have hleft {p : Progress σ} (hp : p.attempts = []) :
      s.settings.maxRetry - 1 = s.settings.maxRetry - 1 - p.attempts.length := by simp [hp]
  constructor
  · intro h
    cases h with
    | unopened h => rw [h]
    | failed h hr =>
      rw [h]
      dsimp only
      rw [(runs_iff_loop (hleft (attempts_start h))).1 hr]
    | ended h hr hf =>
      rw [h]
      dsimp only
      rw [(runs_iff_loop (hleft (attempts_start h))).1 hr]
      exact hf
  · intro h
    split at h
    next ho =>
      cases h
      exact .unopened ho
    next m ho =>
      have hl := hleft (attempts_start ho)
      split at h
      next hr =>
        cases h
        exact .failed ho ((runs_iff_loop hl).2 hr)
      next stop m' hr => exact .ended ho ((runs_iff_loop hl).2 hr) h

inductive Concludes (s : Setup σ) (p : Progress σ) :
    Except Failure Pass → Except Failure Stop → Prop
  | failed (e : Failure) : Concludes s p (.error e) (.error e)
  | stopped (stop : Stop) : Concludes s p (.ok (.stopped stop)) (.ok stop)
  | exhausted (hm : s.settings.maxRetry ≤ p.attempts.length) :
      Concludes s p (.ok .repaired) (.ok (exhaustedStop s))

structure Last (s : Setup σ) (q : Request) (I : Progress σ → Prop) (r : Except Failure Stop)
    (p : Progress σ) : Prop where
  intro ::
  exists_pass : ∃ m pr, I m ∧ m.attempts.length < max 1 s.settings.maxRetry ∧
    Passes s q m pr p ∧ Concludes s p pr r

theorem Runs.last {I : Progress σ → Prop} {p p' : Progress σ} {r : Except Failure Stop}
    (hI : ∀ p m, I p → Passes s q p (.ok .repaired) m → I m) (h : Runs s q p r p') (hp : I p)
    (hlt : p.attempts.length < max 1 s.settings.maxRetry) : Last s q I r p' := by
  induction h with
  | failed h => exact ⟨_, _, hp, hlt, pass_spec h, .failed _⟩
  | stopped h => exact ⟨_, _, hp, hlt, pass_spec h, .stopped _⟩
  | exhausted h hm => exact ⟨_, _, hp, hlt, pass_spec h, .exhausted hm⟩
  | again h hm hr ih => exact ih (hI _ _ hp (pass_spec h)) (by omega)

inductive Ends (s : Setup σ) (q : Request) (agent : Agent) (w : World σ)
    (I : Progress σ → Prop) : Except Failure Report → Progress σ → Prop
  | unopened {e : Failure} {w' : World σ} (hj : Journaled s w w')
      (hf : Unjournaled s e w') :
      Ends s q agent w I (.error e) { Progress.start agent w with world := w' }
  | failed {e : Failure} {p : Progress σ} (hl : Last s q I (.error e) p) :
      Ends s q agent w I (.error e) p
  | unfinished {stop : Stop} {e : Failure} {p : Progress σ} {w' : World σ}
      (hl : Last s q I (.ok stop) p) (hj : Journaled s p.world w') (hf : Unjournaled s e w') :
      Ends s q agent w I (.error e) { p with world := w' }
  | finished {stop : Stop} {p : Progress σ} {w' : World σ} (hl : Last s q I (.ok stop) p)
      (hj : Journaled s p.world w') :
      Ends s q agent w I (.ok (report stop w p)) { p with world := w' }

theorem diagnoseAndFix_ends {I : Progress σ → Prop} {agent : Agent} {w : World σ}
    {result : Except Failure Report} {p : Progress σ}
    (hstart : ∀ w', Journaled s w w' → I { Progress.start agent w with world := w' })
    (hI : ∀ p m, I p → Passes s q p (.ok .repaired) m → I m)
    (h : diagnoseAndFix s q agent w = (result, p)) : Ends s q agent w I result p := by
  have hlt : 0 < max 1 s.settings.maxRetry := by omega
  cases repairs_iff.2 h with
  | unopened ho =>
    have hf := log_error ho
    obtain ⟨w', hj, rfl⟩ := log_spec ho
    exact .unopened hj hf
  | failed ho hr =>
    obtain ⟨w', hj, rfl⟩ := log_spec ho
    exact .failed (hr.last hI (hstart w' hj) hlt)
  | @ended _ m _ _ _ ho hr hf =>
    obtain ⟨w', hj, rfl⟩ := log_spec ho
    have hl := hr.last hI (hstart w' hj) hlt
    unfold finish at hf
    dsimp only at hf
    split at hf
    next hlog =>
      cases hf
      have hf := log_error hlog
      obtain ⟨_, hj, rfl⟩ := log_spec hlog
      exact .unfinished (p := m) hl hj hf
    next hlog =>
      obtain ⟨_, hj, rfl⟩ := log_spec hlog
      split at hf
      next hw =>
        cases hf
        obtain ⟨j, hjournal, hop⟩ := withJournal_error hw
        obtain ⟨_, hj', rfl⟩ := writeReport_spec hw
        exact .unfinished (p := m) hl (hj.trans hj') (.report hjournal hop)
      next hw =>
        cases hf
        obtain ⟨_, hj', rfl⟩ := writeReport_spec hw
        exact .finished (p := m) hl (hj.trans hj')

end Anneal.Repair
