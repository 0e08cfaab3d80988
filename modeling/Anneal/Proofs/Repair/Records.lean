import Anneal.Proofs.Repair.Course
import Anneal.Proofs.Repair.Verdict

/-! What is recorded of a repair. In front of every pass each verification so far has failed and is
followed by one model call and one write, and there is one attempt for each, which tells of them. -/

namespace Anneal.Repair

variable {σ : Type} {s : Setup σ} {q : Request}

theorem ReferenceCheck.opens {calls : List Call} {r : Except Failure (Except String String)}
    (h : ReferenceCheck q calls r) : ∀ c ∈ calls, c.opens = false := by
  cases h <;> simp [Request.compiling, Request.running, Call.opens]

theorem Check.opens {known known' : Option String} {calls : List Call}
    {r : Except Failure Verdict} (h : Check s q known calls r known') :
    ∃ c rest, calls = c :: rest ∧ c.opens = true ∧ ∀ d ∈ rest, d.opens = false := by
  cases h with
  | unanswered _ _ _ hq => exact ⟨_, _, rfl, rfl, List.forall_mem_cons.2 ⟨rfl, hq.opens⟩⟩
  | broken _ _ _ hq => exact ⟨_, _, rfl, rfl, List.forall_mem_cons.2 ⟨rfl, hq.opens⟩⟩
  | answered _ _ _ hq => exact ⟨_, _, rfl, rfl, List.forall_mem_cons.2 ⟨rfl, hq.opens⟩⟩
  | _ => exact ⟨_, _, rfl, rfl, by simp [Request.running, Call.opens]⟩

theorem ReferenceCheck.apart {calls : List Call} {r : Except Failure (Except String String)}
    (h : ReferenceCheck q calls r) : ∀ c ∈ calls, c.isApart = false := by
  cases h <;> simp [Request.compiling, Request.running, Call.isApart]

theorem Check.apart {known known' : Option String} {calls : List Call}
    {r : Except Failure Verdict} (h : Check s q known calls r known') :
    ∀ c ∈ calls, c.isApart = false := by
  have htwo {r r' : Except Failure StepResult} {rest : List Call}
      (hrest : ∀ c ∈ rest, c.isApart = false) :
      ∀ c ∈ q.compiling .candidate r :: q.running .candidate r' :: rest, c.isApart = false :=
    List.forall_mem_cons.2 ⟨rfl, List.forall_mem_cons.2 ⟨rfl, hrest⟩⟩
  cases h with
  | unanswered _ _ _ hq => exact htwo hq.apart
  | broken _ _ _ hq => exact htwo hq.apart
  | answered _ _ _ hq => exact htwo hq.apart
  | _ => simp [Request.compiling, Request.running, Call.isApart]

theorem Check.failed {known known' : Option String} {calls : List Call} {c : FailureClass}
    {outcome : Outcome} (h : Check s q known calls (.ok (.failed c outcome)) known') :
    ∃ output d, outcome = .fail c.stage output d := by
  have hjudge {r : StepResult} {expected : String}
      (hj : judge s r.text expected = .failed c outcome) :
      ∃ output d, outcome = .fail c.stage output d := by
    unfold judge at hj
    split at hj
    · cases hj
    · cases hj
      exact ⟨_, _, rfl⟩
  generalize hr : Except.ok (Verdict.failed c outcome) = r at h
  cases h with
  | compileFails => cases hr; exact ⟨_, _, rfl⟩
  | runFails => cases hr; exact ⟨_, _, rfl⟩
  | compared => exact hjudge (Except.ok.inj hr).symm
  | answered => exact hjudge (Except.ok.inj hr).symm
  | _ => cases hr

theorem chats_eq_zero {calls : List Call} (h : ∀ c ∈ calls, c.isApart = false) :
    calls.countP Call.isChat = 0 := by
  refine List.countP_eq_zero.2 fun c hc => ?_
  have := h c hc
  cases c <;> simp_all [Call.isApart, Call.isChat]

theorem apart_of_opens {c : Call} (h : c.isApart = true) : c.opens = false := by
  cases c <;> first | rfl | cases h

section Verifies

variable {p : Progress σ} {es more : List (Entry σ)} {r : Except Failure Verdict}
  {known : Option String} {w : World σ}

theorem Verifies.opening (h : Verifies s q p es r known w)
    (hm : ∀ e ∈ more, e.call.isApart = true) : Opening (es ++ more) := by
  obtain ⟨c, rest, hcs, hc, hrest⟩ := h.check.opens
  cases es with
  | nil => cases hcs
  | cons e es =>
    obtain ⟨rfl, rfl⟩ := List.cons.inj hcs
    refine ⟨e, es ++ more, rfl, hc, fun f hf => ?_⟩
    rcases List.mem_append.1 hf with hf | hf
    · exact hrest _ (List.mem_map_of_mem hf)
    · exact apart_of_opens (hm f hf)

theorem Verifies.verifications (h : Verifies s q p es r known w)
    (hm : ∀ e ∈ more, e.call.isApart = true) :
    verifications (p.entries ++ (es ++ more)) =
      verifications p.entries ++ [⟨p.entries, es ++ more⟩] :=
  verifications_append (h.opening hm)

theorem Verifies.judged {verdict : Verdict} (h : Verifies s q p es (.ok verdict) known w)
    (hk : Remembers p.referenceOutput (callsOf p.entries))
    (hm : ∀ e ∈ more, e.call.isApart = true) : Judged s ⟨p.entries, es ++ more⟩ verdict :=
  h.check.judged hk (callsOf_append es more) (List.forall_mem_map.2 hm)

theorem Remembers.apart {cs ds : List Call} (h : Remembers known cs)
    (hd : ∀ c ∈ ds, c.isApart = true) : Remembers known (cs ++ ds) :=
  h.append fun output => by simp [Printed, runs_apart _ hd]

theorem Verifies.remembers (h : Verifies s q p es r known w)
    (hk : Remembers p.referenceOutput (callsOf p.entries))
    (hm : ∀ e ∈ more, e.call.isApart = true) :
    Remembers known (callsOf (p.entries ++ (es ++ more))) := by
  rw [callsOf_append, callsOf_append, ← List.append_assoc]
  exact (h.check.remembers hk).apart (List.forall_mem_map.2 hm)

theorem Verifies.chats (h : Verifies s q p es r known w) :
    (callsOf es).countP Call.isChat = 0 :=
  chats_eq_zero h.check.apart

end Verifies

section Judged

variable {v : Verification σ} {c : FailureClass} {outcome : Outcome}

theorem Judged.not_agrees (h : Judged s v (.failed c outcome)) (output : String) :
    ¬ Agrees s v output := by
  rw [h.agrees]
  simp

theorem Judged.failed {output d : String} (h : Judged s v (.failed c (.fail c.stage output d))) :
    Fails s v c d :=
  (h.fails c d).2 ⟨output, rfl⟩

theorem Judged.undiagnosed {output : String} (h : Judged s v (.converged output)) (d : String) :
    ¬ Diagnosed s v d := by
  rintro (⟨c, hf⟩ | hb)
  · obtain ⟨_, hv⟩ := (h.fails c d).1 hf
    cases hv
  · cases (h.breaks d).1 hb

end Judged

structure LastDiagnosis (s : Setup σ) (vs : List (Verification σ)) (last : Option String) :
    Prop where
  none_iff : last = none ↔ ∀ v ∈ vs, ∀ d, ¬ Diagnosed s v d
  eq_some : ∀ d, last = some d → ∃ front v back, vs = front ++ v :: back ∧ Diagnosed s v d ∧
    ∀ u ∈ back, ∀ e, ¬ Diagnosed s u e

theorem lastDiagnosis_nil : LastDiagnosis s [] none := ⟨by simp, fun _ h => by cases h⟩

theorem LastDiagnosis.diagnosed (vs : List (Verification σ)) {v : Verification σ} {d : String}
    (h : Diagnosed s v d) : LastDiagnosis s (vs ++ [v]) (some d) where
  none_iff := by
    constructor
    · intro hn
      cases hn
    · intro hn
      exact absurd h (hn v (by simp) d)
  eq_some e he := by
    cases he
    exact ⟨vs, v, [], rfl, h, by simp⟩

theorem LastDiagnosis.undiagnosed {vs : List (Verification σ)} {v : Verification σ}
    {last : Option String} (h : LastDiagnosis s vs last) (hv : ∀ d, ¬ Diagnosed s v d) :
    LastDiagnosis s (vs ++ [v]) last where
  none_iff := by
    rw [h.none_iff, List.forall_mem_append, List.forall_mem_singleton]
    exact (and_iff_left hv).symm
  eq_some d hd := by
    obtain ⟨front, u, back, rfl, hu, hback⟩ := h.eq_some d hd
    refine ⟨front, u, back ++ [v], by simp, hu, ?_⟩
    rw [List.forall_mem_append, List.forall_mem_singleton]
    exact ⟨hback, hv⟩

structure Fixed (q : Request) (chat write : Entry σ) (a : Attempt) : Prop where
  prompted :
    Prompted q chat.before.disk a.outcome.diagnosticText a.failureClass a.prompt
  answered : ∃ reply x, chat.call = .chat a.prompt (.ok reply) ∧
    Reply.extract reply .repair = .ok x ∧ x.code = a.newCode
  written : write.call = .write (Artifact.sourceText a.newCode)

structure Recorded (s : Setup σ) (q : Request) (v : Verification σ) (a : Attempt) : Prop where
  judged : Judged s v (.failed a.failureClass a.outcome)
  outcome : ∃ output d, a.outcome = .fail a.failureClass.stage output d
  fixed : ∃ es chat write, v.own = es ++ [chat, write] ∧ Fixed q chat write a

theorem Recorded.fails {v : Verification σ} {a : Attempt} (h : Recorded s q v a) :
    Fails s v a.failureClass a.outcome.diagnosticText := by
  have hj := h.judged
  obtain ⟨output, d, ho⟩ := h.outcome
  rw [ho] at hj ⊢
  exact hj.failed

structure Sound (s : Setup σ) (q : Request) (p : Progress σ) : Prop where
  counted : p.verifications = p.attempts.length
  numbered : p.attempts.map Attempt.number = List.range' 1 p.attempts.length
  chats : (callsOf p.entries).countP Call.isChat = p.attempts.length
  remembers : Remembers p.referenceOutput (callsOf p.entries)
  recorded : List.Forall₂ (Recorded s q) (verifications p.entries) p.attempts
  lastDiagnosis : LastDiagnosis s (verifications p.entries) p.lastDiagnostic

theorem Sound.verified {p : Progress σ} (h : Sound s q p) :
    (verifications p.entries).length = p.attempts.length :=
  h.recorded.length_eq

theorem sound_start (agent : Agent) (w w' : World σ) :
    Sound s q { Progress.start agent w with world := w' } where
  counted := rfl
  numbered := rfl
  chats := rfl
  remembers := ⟨fun output => by simp [Progress.start, Printed, runs], fun _ h => by cases h⟩
  recorded := .nil
  lastDiagnosis := lastDiagnosis_nil

def chatEntry (text : String) (r : Except ClientError String) (w w' : World σ) : Entry σ :=
  ⟨.chat text r, w, w'⟩

def writeEntry (code : String) (w w' : World σ) : Entry σ :=
  ⟨.write (Artifact.sourceText code), w, w'⟩

theorem Fixes.more {c : FailureClass} {outcome : Outcome} {start : World σ} {p p' : Progress σ}
    {r : Except Failure Pass} (h : Fixes s q c outcome start p r p') :
    ∃ more, (∀ e ∈ more, e.call.isApart = true) ∧ p'.entries = p.entries ++ more ∧
      p'.referenceOutput = p.referenceOutput := by
  have hone (text : String) (answer : Except ClientError String) (w w' : World σ) :
      ∀ e ∈ [chatEntry text answer w w'], e.call.isApart = true := List.forall_mem_singleton.2 rfl
  have htwo (text reply code : String) (w w' w'' : World σ) :
      ∀ e ∈ [chatEntry text (.ok reply) w w', writeEntry code w' w''], e.call.isApart = true := by
    simp [chatEntry, writeEntry, Call.isApart]
  cases h with
  | unread => exact ⟨[], by simp, (List.append_nil _).symm, rfl⟩
  | refused => exact ⟨_, hone _ _ _ _, rfl, rfl⟩
  | unusable => exact ⟨_, hone _ _ _ _, rfl, rfl⟩
  | unwritten => exact ⟨_, hone _ _ _ _, rfl, rfl⟩
  | unrecorded => exact ⟨_, htwo _ _ _ _ _ _, List.append_assoc _ _ _, rfl⟩
  | repaired => exact ⟨_, htwo _ _ _ _ _ _, List.append_assoc _ _ _, rfl⟩

theorem Sound.extend {p p' : Progress σ} {own : List (Entry σ)} {a : Attempt} (h : Sound s q p)
    (ha : Recorded s q ⟨p.entries, own⟩ a) (hn : a.number = p.attempts.length + 1)
    (hv : verifications (p.entries ++ own) = verifications p.entries ++ [⟨p.entries, own⟩])
    (hchats : (callsOf own).countP Call.isChat = 1)
    (hentries : p'.entries = p.entries ++ own) (hattempts : p'.attempts = p.attempts ++ [a])
    (hcounted : p'.verifications = p.verifications + 1)
    (hremembers : Remembers p'.referenceOutput (callsOf p'.entries))
    (hlast : p'.lastDiagnostic = some a.outcome.diagnosticText) : Sound s q p' where
  counted := by rw [hcounted, h.counted, hattempts, List.length_append, List.length_singleton]
  numbered := by
    rw [hattempts, List.map_append, h.numbered, List.length_append, List.length_singleton,
      List.range'_concat, List.map_singleton, hn, Nat.one_mul, Nat.add_comm 1]
  chats := by
    rw [hentries, callsOf_append, List.countP_append, h.chats, hchats, hattempts,
      List.length_append, List.length_singleton]
  remembers := hremembers
  recorded := by
    rw [hentries, hv, hattempts]
    exact List.rel_append h.recorded (.cons ha .nil)
  lastDiagnosis := by
    rw [hentries, hv, hlast]
    exact .diagnosed _ (.inl ⟨_, ha.fails⟩)

theorem Sound.repaired {p p' : Progress σ} (h : Sound s q p)
    (hp : Passes s q p (.ok .repaired) p') : Sound s q p' := by
  cases hp with
  | @fixed es c outcome known w w' _ _ hv hj hf =>
    cases hf with
    | @repaired w₁ w₂ w₃ w₄ text reply x agent agent' ms ha hx hd hj' =>
      let chat := chatEntry text (.ok reply) w₁ w₂
      let write := writeEntry x.code w₂ w₃
      -- Neither entry opens a verification, so both belong to the one in front of them.
      have hm : ∀ e ∈ [chat, write], e.call.isApart = true := by
        simp [chat, write, chatEntry, writeEntry, Call.isApart]
      have hentries : p.entries ++ es ++ [chat] ++ [write] = p.entries ++ (es ++ [chat, write]) := by
        simp
      have hrecorded : Recorded s q ⟨p.entries, es ++ [chat, write]⟩
          ⟨p.attempts.length + 1, p.world.now, ms, c, outcome, text, x.code⟩ :=
        ⟨hv.judged h.remembers hm, hv.check.failed, es, chat, write, rfl,
          ha.prompted, ⟨reply, x, rfl, hx, rfl⟩, rfl⟩
      refine h.extend hrecorded rfl (hv.verifications hm) ?_ hentries rfl rfl ?_ rfl
      · rw [callsOf_append, List.countP_append, hv.chats]
        rfl
      · show Remembers known (callsOf (p.entries ++ es ++ [chat] ++ [write]))
        rw [hentries]
        exact hv.remembers h.remembers hm

theorem diagnoseAndFix_sound {agent : Agent} {w : World σ} {result : Except Failure Report}
    {p : Progress σ} (h : diagnoseAndFix s q agent w = (result, p)) :
    Ends s q agent w (Sound s q) result p :=
  diagnoseAndFix_ends (fun w' _ => sound_start agent w w') (fun _ _ hp h => hp.repaired h) h

end Anneal.Repair
