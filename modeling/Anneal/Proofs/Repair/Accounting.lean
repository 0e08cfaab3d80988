import Anneal.Proofs.Repair.Convergence

/-! A repair terminates within its budget, and its report accounts for the verifications, the model
calls and the attempts that were made. -/

namespace Anneal.Repair

variable {σ : Type} {s : Setup σ} {q : Request}

/-- The report `r` accounts for the repair that led to `p`. -/
structure Accounts (s : Setup σ) (r : Report) (p : Progress σ) : Prop where
  attempts_le : r.attempts.length ≤ s.settings.maxRetry
  verifications_le : r.verifications ≤ s.settings.maxRetry
  verifications_eq : (verifications p.entries).length = r.verifications
  numbered : r.attempts.map Attempt.number = List.range' 1 r.attempts.length
  exhausted : r.stop = .exhausted →
    r.verifications = s.settings.maxRetry ∧ r.attempts.length = s.settings.maxRetry
  sudden : r.stop ∈ [.converged, .referenceBroken, .responseParse, .transport, .backend] →
    r.verifications = r.attempts.length + 1 ∧ r.attempts.length < s.settings.maxRetry
  cancelled : r.stop = .cancelled →
    r.verifications = r.attempts.length ∨ r.verifications = r.attempts.length + 1
  chats : (callsOf p.entries).countP Call.isChat =
    r.attempts.length + if r.stop ∈ [.responseParse, .transport, .backend] then 1 else 0
  lastDiagnosis : LastDiagnosis s (verifications p.entries) r.lastDiagnostic

theorem stopOfError_reason (e : ClientError) :
    (stopOfError e).reason = .transport ∨ (stopOfError e).reason = .backend := by
  unfold stopOfError
  split
  · exact .inl rfl
  · exact .inr rfl

theorem Leads.chats {p : Progress σ} {verdict : Verdict} {follow : List Call} {stop : Stop}
    (h : Leads p verdict follow (.stopped stop)) :
    follow.countP Call.isChat =
      if stop.reason ∈ [.responseParse, .transport, .backend] then 1 else 0 := by
  cases h with
  | refused _ _ _ e =>
    rcases stopOfError_reason e with he | he <;> simp [he, Call.isChat]
  | _ => rfl

theorem Leads.not_exhausted {p : Progress σ} {verdict : Verdict} {follow : List Call}
    {stop : Stop} (h : Leads p verdict follow (.stopped stop)) : stop.reason ≠ .exhausted := by
  cases h with
  | refused _ _ _ e => rcases stopOfError_reason e with he | he <;> simp [he]
  | _ => simp [cancelledStop]

variable {m p : Progress σ} {stop : Stop}

theorem accounts_of_cancelled (hm : Sound s q m) (hlt : m.attempts.length < s.settings.maxRetry)
    (w w' : World σ) :
    Accounts s (report (cancelledStop m) w m) { m with world := w' } where
  attempts_le := hlt.le
  verifications_le := hm.counted.trans_le hlt.le
  verifications_eq := hm.verified.trans hm.counted.symm
  numbered := hm.numbered
  exhausted h := by cases h
  sudden h := by simp [report, cancelledStop] at h
  cancelled _ := .inl hm.counted
  chats := hm.chats
  lastDiagnosis := hm.lastDiagnosis

theorem accounts_of_stopped {verdict : Verdict} {follow : List Call} {own : List (Entry σ)}
    (hm : Sound s q m) (hlt : m.attempts.length < s.settings.maxRetry)
    (hr : Round s m verdict follow own p) (hl : Leads m verdict follow (.stopped stop))
    (ha : p.attempts = m.attempts) (w w' : World σ) :
    Accounts s (report stop w p) { p with world := w' } := by
  have hcounted : p.verifications = p.attempts.length + 1 := by
    rw [hr.counted, hm.counted, ha]
  have hlt : p.attempts.length < s.settings.maxRetry := ha ▸ hlt
  exact
  { attempts_le := hlt.le
    verifications_le := hcounted.trans_le hlt
    verifications_eq := by
      show (verifications p.entries).length = p.verifications
      rw [hr.verifications, List.length_append, hm.verified, hcounted, ha]
      rfl
    numbered := by
      show p.attempts.map Attempt.number = List.range' 1 p.attempts.length
      rw [ha, hm.numbered]
    exhausted := fun h => absurd h hl.not_exhausted
    sudden := fun _ => ⟨hcounted, hlt⟩
    cancelled := fun _ => .inr hcounted
    chats := by
      show (callsOf p.entries).countP Call.isChat = p.attempts.length + _
      rw [hr.chats, hm.chats, hl.chats, ha]
      rfl
    lastDiagnosis := hr.lastDiagnosis }

theorem accounts_of_exhausted (hp : Sound s q p) (hle : p.attempts.length ≤ s.settings.maxRetry)
    (hge : s.settings.maxRetry ≤ p.attempts.length) (w w' : World σ) :
    Accounts s (report (exhaustedStop s) w p) { p with world := w' } where
  attempts_le := hle
  verifications_le := hp.counted.trans_le hle
  verifications_eq := hp.verified.trans hp.counted.symm
  numbered := hp.numbered
  exhausted _ := ⟨hp.counted.trans (le_antisymm hle hge), le_antisymm hle hge⟩
  sudden h := by simp [report, exhaustedStop] at h
  cancelled h := by cases h
  chats := hp.chats
  lastDiagnosis := hp.lastDiagnosis

theorem Last.accounts (h : Last s q (Sound s q) (.ok stop) p) (hpos : 1 ≤ s.settings.maxRetry)
    (w w' : World σ) : Accounts s (report stop w p) { p with world := w' } := by
  obtain ⟨m, pr, hm, hlt, hp, hc⟩ := h.exists_pass
  rw [max_eq_right hpos] at hlt
  cases hc with
  | stopped =>
    obtain ⟨rfl, hpr⟩ | ⟨verdict, follow, own, hr, hl, ha⟩ := hm.round hp
    · cases hpr
      exact accounts_of_cancelled hm hlt w w'
    · exact accounts_of_stopped hm hlt hr hl (ha.resolve_left (by simp)) w w'
  | exhausted hge =>
    have hle := hp.counters.2
    exact accounts_of_exhausted (hm.repaired hp) (by omega) hge w w'

theorem Last.bounds {r : Except Failure Stop} (h : Last s q (Sound s q) r p)
    (hpos : 1 ≤ s.settings.maxRetry) :
    p.verifications ≤ s.settings.maxRetry ∧ p.attempts.length ≤ s.settings.maxRetry := by
  obtain ⟨m, pr, hm, hlt, hp, -⟩ := h.exists_pass
  rw [max_eq_right hpos] at hlt
  obtain ⟨hv, ha⟩ := hp.counters
  have := hm.counted
  omega

/-- The loop, which ends by what is recorded alone, comes to one end. The counters stay within the
budget there, and a report accounts for the repair. -/
theorem repair_terminates_and_accounts (s : Setup σ) (q : Request) (agent : Agent) (w : World σ)
    (hpos : 1 ≤ s.settings.maxRetry) :
    ∃ result p, diagnoseAndFix s q agent w = (result, p) ∧
      (∀ result' p', Repairs s q agent w result' p' ↔ result' = result ∧ p' = p) ∧
      p.verifications ≤ s.settings.maxRetry ∧ p.attempts.length ≤ s.settings.maxRetry ∧
      ∀ r, result = .ok r → Accounts s r p := by
  rcases hrun : diagnoseAndFix s q agent w with ⟨result, p⟩
  have hends := diagnoseAndFix_sound hrun
  refine ⟨result, p, rfl, fun result' p' => ?_, ?_⟩
  · rw [repairs_iff, hrun, Prod.mk.injEq]
    exact and_congr eq_comm eq_comm
  · cases hends with
    | unopened hj => exact ⟨Nat.zero_le _, Nat.zero_le _, fun _ h => by cases h⟩
    | failed hl => exact ⟨(hl.bounds hpos).1, (hl.bounds hpos).2, fun _ h => by cases h⟩
    | unfinished hl hj =>
      exact ⟨(hl.bounds hpos).1, (hl.bounds hpos).2, fun _ h => by cases h⟩
    | finished hl hj =>
      refine ⟨(hl.bounds hpos).1, (hl.bounds hpos).2, fun r h => ?_⟩
      cases h
      exact hl.accounts hpos _ _

theorem rehearsal_accounts :
    1 ≤ rehearsal.settings.maxRetry ∧ ∃ result p,
      diagnoseAndFix rehearsal rehearsalRequest rehearsalAgent rehearsalWorld = (result, p) ∧
      (∀ result' p', Repairs rehearsal rehearsalRequest rehearsalAgent rehearsalWorld result' p' ↔
        result' = result ∧ p' = p) ∧
      p.verifications ≤ rehearsal.settings.maxRetry ∧
      p.attempts.length ≤ rehearsal.settings.maxRetry ∧
      ∀ r, result = .ok r → Accounts rehearsal r p :=
  ⟨by decide, repair_terminates_and_accounts _ _ _ _ (by decide)⟩

end Anneal.Repair
