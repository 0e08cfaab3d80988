import Anneal.Proofs.Repair.Records

/-! How a repair that ends with a report ends: the last pass, the verdict of its verification, the
calls that follow the verdict, and the stop that comes of them. -/

namespace Anneal.Repair

variable {σ : Type} {s : Setup σ} {q : Request} {p p' : Progress σ}

inductive Leads (p : Progress σ) : Verdict → List Call → Pass → Prop
  | converged (output : String) :
      Leads p (.converged output) [] (.stopped ⟨.converged, output⟩)
  | broken (diagnostic : String) :
      Leads p (.referenceBroken diagnostic) [] (.stopped ⟨.referenceBroken, diagnostic⟩)
  | interrupted (c : FailureClass) (outcome : Outcome) :
      Leads p (.failed c outcome) [] (.stopped (cancelledStop p))
  | refused (c : FailureClass) (outcome : Outcome) (text : String) (e : ClientError) :
      Leads p (.failed c outcome) [.chat text (.error e)] (.stopped (stopOfError e))
  | unusable (c : FailureClass) (outcome : Outcome) (text reply detail : String) :
      Leads p (.failed c outcome) [.chat text (.ok reply)] (.stopped ⟨.responseParse, detail⟩)
  | repaired (c : FailureClass) (outcome : Outcome) (text reply source : String) :
      Leads p (.failed c outcome) [.chat text (.ok reply), .write source] .repaired

structure Round (s : Setup σ) (p : Progress σ) (verdict : Verdict) (follow : List Call)
    (own : List (Entry σ)) (p' : Progress σ) : Prop where
  entries : p'.entries = p.entries ++ own
  verifications : verifications p'.entries = verifications p.entries ++ [⟨p.entries, own⟩]
  judged : Judged s ⟨p.entries, own⟩ verdict
  lastDiagnosis : LastDiagnosis s (Repair.verifications p'.entries) p'.lastDiagnostic
  counted : p'.verifications = p.verifications + 1
  calls : ∃ calls, callsOf own = calls ++ follow ∧ ∀ c ∈ calls, c.isApart = false

def Verdict.diagnosis (before : Option String) : Verdict → Option String
  | .converged _ => before
  | .referenceBroken diagnostic => some diagnostic
  | .failed _ outcome => some outcome.diagnosticText

theorem Verifies.round {es : List (Entry σ)} {verdict : Verdict} {known : Option String}
    {w : World σ} (h : Sound s q p) (hv : Verifies s q p es (.ok verdict) known w)
    (more : List (Entry σ)) (hm : ∀ e ∈ more, e.call.isApart = true)
    (hentries : p'.entries = p.entries ++ (es ++ more))
    (hcounted : p'.verifications = p.verifications + 1)
    (hlast : p'.lastDiagnostic = verdict.diagnosis p.lastDiagnostic) :
    Round s p verdict (callsOf more) (es ++ more) p' where
  entries := hentries
  verifications := by rw [hentries, hv.verifications hm]
  judged := hv.judged h.remembers hm
  lastDiagnosis := by
    have hj := hv.judged h.remembers hm
    rw [hentries, hv.verifications hm, hlast]
    cases verdict with
    | converged output => exact h.lastDiagnosis.undiagnosed hj.undiagnosed
    | referenceBroken d => exact .diagnosed _ (.inr ((hj.breaks d).2 rfl))
    | failed c outcome =>
      obtain ⟨output, d, rfl⟩ := hv.check.failed
      exact .diagnosed _ (.inl ⟨c, hj.failed⟩)
  counted := hcounted
  calls := ⟨callsOf es, callsOf_append es more, hv.check.apart⟩

/-- A pass that comes to something was cancelled from the start or reached a verdict. -/
theorem Sound.round {pr : Pass} (h : Sound s q p) (hp : Passes s q p (.ok pr) p') :
    (p' = p ∧ pr = .stopped (cancelledStop p)) ∨
      ∃ verdict follow own, Round s p verdict follow own p' ∧ Leads p verdict follow pr ∧
        (pr = .repaired ∨ p'.attempts = p.attempts) := by
  have hround {es : List (Entry σ)} {verdict : Verdict} {known : Option String} {w : World σ}
      (hv : Verifies s q p es (.ok verdict) known w) (more : List (Entry σ))
      (hm : ∀ e ∈ more, e.call.isApart = true) (hentries : p'.entries = p.entries ++ es ++ more)
      (hcounted : p'.verifications = p.verifications + 1)
      (hlast : p'.lastDiagnostic = verdict.diagnosis p.lastDiagnostic) :
      Round s p verdict (callsOf more) (es ++ more) p' :=
    hv.round h more hm (hentries.trans (List.append_assoc _ _ _)) hcounted hlast
  cases hp with
  | cancelled hc => exact .inl ⟨rfl, rfl⟩
  | converged hv hj =>
    have hr := hround hv [] (by simp) (List.append_nil _).symm rfl rfl
    exact .inr ⟨_, _, _, hr, .converged _, .inr rfl⟩
  | broken hv hj =>
    have hr := hround hv [] (by simp) (List.append_nil _).symm rfl rfl
    exact .inr ⟨_, _, _, hr, .broken _, .inr rfl⟩
  | interrupted hv hj =>
    have hr := hround hv [] (by simp) (List.append_nil _).symm rfl rfl
    exact .inr ⟨_, _, _, hr, .interrupted _ _, .inr rfl⟩
  | fixed hv hj hf =>
    cases hf with
    | @refused w w' text e agent ha =>
      have hr := hround hv [chatEntry text (.error e) w w'] (List.forall_mem_singleton.2 rfl)
        rfl rfl rfl
      exact .inr ⟨_, _, _, hr, .refused _ _ _ _, .inr rfl⟩
    | @unusable w w' text reply e agent ha hx =>
      have hr := hround hv [chatEntry text (.ok reply) w w'] (List.forall_mem_singleton.2 rfl)
        rfl rfl rfl
      exact .inr ⟨_, _, _, hr, .unusable _ _ _ _ _, .inr rfl⟩
    | @repaired w w' w'' _ text reply x agent agent' ms ha hx hd hj' =>
      have hr := hround hv [chatEntry text (.ok reply) w w', writeEntry x.code w' w'']
        (List.forall_mem_cons.2 ⟨rfl, List.forall_mem_singleton.2 rfl⟩) (List.append_assoc _ _ _)
        rfl rfl
      exact .inr ⟨_, _, _, hr, .repaired _ _ _ _ _, .inl rfl⟩

theorem Passes.counters {r : Except Failure Pass} (h : Passes s q p r p') :
    p'.verifications ≤ p.verifications + 1 ∧ p'.attempts.length ≤ p.attempts.length + 1 := by
  cases h with
  | cancelled => exact ⟨Nat.le_succ _, Nat.le_succ _⟩
  | fixed hv hj hf =>
    cases hf with
    | repaired => exact ⟨le_rfl, List.length_append.le⟩
    | _ => exact ⟨le_rfl, Nat.le_succ _⟩
  | _ => exact ⟨le_rfl, Nat.le_succ _⟩

theorem Round.chats {verdict : Verdict} {follow : List Call} {own : List (Entry σ)}
    (h : Round s p verdict follow own p') :
    (callsOf p'.entries).countP Call.isChat =
      (callsOf p.entries).countP Call.isChat + follow.countP Call.isChat := by
  obtain ⟨calls, hcalls, hapart⟩ := h.calls
  rw [h.entries, callsOf_append, hcalls, List.countP_append, List.countP_append,
    chats_eq_zero hapart, Nat.zero_add]

end Anneal.Repair
