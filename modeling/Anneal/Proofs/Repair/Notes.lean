import Anneal.Proofs.Conversation.Speaker
import Anneal.Proofs.Repair.Records

/-! Notes in the conversation of repairs. A verification whose failure got a reply adds one
exchange to the conversation, and the exchange carries a note just if the code of that reply
replaced the candidate. A note goes to the newest exchange, so it is each return between a reply
and its note that matters: none of them leaves an exchange behind that a later note could reach. -/

namespace Anneal.Repair

variable {σ : Type} {s : Setup σ} {q : Request} {speaker : Speaker}

structure Asked (s : Setup σ) (q : Request) (speaker : Speaker) (before : List Exchange)
    (v : Verification σ) (chat : Entry σ) (text : String) (r : Except ClientError String) :
    Prop where
  call : chat.call = .chat text r
  prompted : ∃ c diagnostic, Fails s v c diagnostic ∧
    Prompted q chat.before.disk diagnostic c text
  spoken : ∃ a, (speaker.after before).chat s.client text s.settings.options chat.before =
    (r, a, chat.after)

/-- An exchange is annotated just if its reply held code and the code replaced the candidate, on
the disk that the model left; the note shows that code. -/
structure Noted (q : Request) (number : Nat) (left : Disk) (e : Exchange) : Prop where
  iff : e.note.isSome ↔ ∃ x, Reply.extract e.assistant .repair = .ok x ∧
    (Artifact.writeAtomic left q.candidatePath (Artifact.sourceText x.code)).1 = .ok ()
  text : ∀ note, e.note = some note →
    ∃ x, Reply.extract e.assistant .repair = .ok x ∧ note = attemptNote number x.code

/-- The exchange, if there is one, that the verification with a number adds. -/
inductive Tells (s : Setup σ) (q : Request) (speaker : Speaker) (before : List Exchange)
    (v : Verification σ) (number : Nat) : List Exchange → Prop
  | silent (quiet : ∀ e ∈ v.own, e.call.isChat = false) : Tells s q speaker before v number []
  | refused {es : List (Entry σ)} {chat : Entry σ} {text : String} {e : ClientError}
      (own : v.own = es ++ [chat]) (quiet : ∀ e ∈ es, e.call.isChat = false)
      (asked : Asked s q speaker before v chat text (.error e)) :
      Tells s q speaker before v number []
  | told {es more : List (Entry σ)} {chat : Entry σ} {e : Exchange}
      (own : v.own = es ++ chat :: more) (quiet : ∀ e ∈ es ++ more, e.call.isChat = false)
      (asked : Asked s q speaker before v chat e.user (.ok e.assistant))
      (noted : Noted q number chat.after.disk e) : Tells s q speaker before v number [e]

/-- What an agent that was told `log` has been told after some verifications. -/
inductive Telling (s : Setup σ) (q : Request) (speaker : Speaker) (log : List Exchange) :
    List (Verification σ) → List Exchange → Prop
  | start : Telling s q speaker log [] log
  | next {vs : List (Verification σ)} {v : Verification σ} {told es : List Exchange}
      (h : Telling s q speaker log vs told) (tells : Tells s q speaker told v (vs.length + 1) es) :
      Telling s q speaker log (vs ++ [v]) (told ++ es)

def Conversing (s : Setup σ) (q : Request) (speaker : Speaker) (log : List Exchange)
    (p : Progress σ) : Prop :=
  ∃ told, Telling s q speaker log (verifications p.entries) told ∧ p.agent = speaker.after told

section Noted

variable {number : Nat} {left : Disk} {text reply : String}

theorem noted_none (h : ∀ x, Reply.extract reply .repair = .ok x →
    (Artifact.writeAtomic left q.candidatePath (Artifact.sourceText x.code)).1 ≠ .ok ()) :
    Noted q number left ⟨text, reply, none⟩ where
  iff := by
    constructor
    · intro annotated
      cases annotated
    · rintro ⟨x, hx, written⟩
      exact absurd written (h x hx)
  text note annotated := by cases annotated

theorem noted_some {x : Reply.Extracted} (hx : Reply.extract reply .repair = .ok x)
    (written : (Artifact.writeAtomic left q.candidatePath (Artifact.sourceText x.code)).1 = .ok ()) :
    Noted q number left ⟨text, reply, some (attemptNote number x.code)⟩ where
  iff := ⟨fun _ => ⟨x, hx, written⟩, fun _ => rfl⟩
  text _ annotated := ⟨x, hx, (Option.some.inj annotated).symm⟩

end Noted

section Pass

variable {p p' : Progress σ} {es more : List (Entry σ)} {known : Option String} {w w' : World σ}
  {told log : List Exchange} {c : FailureClass} {outcome : Outcome}

theorem Verifies.quiet {r : Except Failure Verdict} (h : Verifies s q p es r known w) :
    ∀ e ∈ es, e.call.isChat = false := by
  intro e he
  have apart := h.check.apart _ (List.mem_map_of_mem he)
  cases hc : e.call <;> simp_all [Call.isApart, Call.isChat]

theorem Verifies.fails (h : Verifies s q p es (.ok (.failed c outcome)) known w) (hs : Sound s q p)
    (hm : ∀ e ∈ more, e.call.isApart = true) :
    Fails s ⟨p.entries, es ++ more⟩ c outcome.diagnosticText := by
  have judged := h.judged hs.remembers hm
  obtain ⟨output, d, rfl⟩ := h.check.failed
  exact judged.failed

theorem Conversing.next {r : Except Failure Verdict} {added : List Exchange}
    (more : List (Entry σ)) (h : Telling s q speaker log (verifications p.entries) told)
    (hs : Sound s q p) (hv : Verifies s q p es r known w) (hm : ∀ e ∈ more, e.call.isApart = true)
    (tells : Tells s q speaker told ⟨p.entries, es ++ more⟩ (p.attempts.length + 1) added)
    (entries : p'.entries = p.entries ++ (es ++ more))
    (agent : p'.agent = speaker.after (told ++ added)) : Conversing s q speaker log p' := by
  refine ⟨told ++ added, ?_, agent⟩
  rw [entries, hv.verifications hm]
  rw [← hs.verified] at tells
  exact h.next tells

theorem Conversing.silent {r : Except Failure Verdict}
    (h : Conversing s q speaker log p) (hs : Sound s q p) (hv : Verifies s q p es r known w)
    (entries : p'.entries = p.entries ++ es) (agent : p'.agent = p.agent) :
    Conversing s q speaker log p' := by
  obtain ⟨told, telling, spoken⟩ := h
  refine .next [] telling hs hv (by simp) (.silent ?_) ?_ ?_
  · simpa using hv.quiet
  · rw [entries, List.append_nil]
  · rw [agent, spoken, List.append_nil]

theorem Asks.asked {text : String} {r : Except ClientError String} {agent : Agent}
    {w₁ w₂ : World σ} {d : Option String} (more : List (Entry σ))
    (ha : Asks s q c outcome { p.verified es known w' with lastDiagnostic := d } w₁ text r agent w₂)
    (hs : Sound s q p) (hv : Verifies s q p es (.ok (.failed c outcome)) known w)
    (hm : ∀ e ∈ more, e.call.isApart = true) (spoken : p.agent = speaker.after told) :
    Asked s q speaker told ⟨p.entries, es ++ more⟩ (chatEntry text r w₁ w₂) text r where
  call := rfl
  prompted := ⟨c, _, hv.fails hs hm, ha.prompted⟩
  spoken := ⟨agent, spoken ▸ ha.chat⟩

/-- The reply becomes an exchange, with the note that its agent attaches next, if any. -/
theorem Asks.conversing {text reply : String} {agent : Agent} {w₁ w₂ : World σ} {d : Option String}
    (rest : List (Entry σ)) (note : Option String)
    (ha : Asks s q c outcome { p.verified es known w' with lastDiagnostic := d } w₁ text (.ok reply)
      agent w₂)
    (h : Conversing s q speaker log p) (hs : Sound s q p)
    (hv : Verifies s q p es (.ok (.failed c outcome)) known w)
    (apart : ∀ e ∈ rest, e.call.isApart = true) (quiet : ∀ e ∈ rest, e.call.isChat = false)
    (noted : Noted q (p.attempts.length + 1) w₂.disk ⟨text, reply, note⟩)
    (entries : p'.entries = p.entries ++ es ++ [chatEntry text (.ok reply) w₁ w₂] ++ rest)
    (annotated : p'.agent = note.elim agent agent.annotate) : Conversing s q speaker log p' := by
  obtain ⟨told, telling, spoken⟩ := h
  let chat := chatEntry text (.ok reply) w₁ w₂
  have hm : ∀ e ∈ chat :: rest, e.call.isApart = true := List.forall_mem_cons.2 ⟨rfl, apart⟩
  have asked := ha.asked (chat :: rest) hs hv hm spoken
  have heard : agent = speaker.after (told ++ [⟨text, reply, none⟩]) :=
    Speaker.chat_ok (spoken ▸ ha.chat)
  refine .next _ telling hs hv hm
    (.told rfl (List.forall_mem_append.2 ⟨hv.quiet, quiet⟩) asked noted) ?_ ?_
  · rw [entries]
    simp [chat]
  · rw [annotated, heard]
    cases note with
    | none => rfl
    | some note => exact Speaker.annotate_after

theorem Fixes.conversing {start : World σ} {r : Except Failure Pass}
    (hf : Fixes s q c outcome start
      { p.verified es known w' with lastDiagnostic := some outcome.diagnosticText } r p')
    (h : Conversing s q speaker log p) (hs : Sound s q p)
    (hv : Verifies s q p es (.ok (.failed c outcome)) known w) :
    Conversing s q speaker log p' := by
  have replaced {code : String} {w₂ w₃ : World σ}
      (hd : (w₂.onDisk fun d => Artifact.writeAtomic d q.candidatePath (Artifact.sourceText code)) =
        (.ok (), w₃)) :
      (Artifact.writeAtomic w₂.disk q.candidatePath (Artifact.sourceText code)).1 = .ok () := by
    obtain ⟨d, hd, -⟩ := onDisk_eq hd
    rw [hd]
  have apart (code : String) (w₂ w₃ : World σ) :
      ∀ e ∈ [writeEntry code w₂ w₃], e.call.isApart = true := by simp [writeEntry, Call.isApart]
  have quiet (code : String) (w₂ w₃ : World σ) :
      ∀ e ∈ [writeEntry code w₂ w₃], e.call.isChat = false := by simp [writeEntry, Call.isChat]
  cases hf with
  | unread => exact h.silent hs hv rfl rfl
  | @refused w₁ w₂ text e agent ha =>
    obtain ⟨told, telling, spoken⟩ := h
    have hm : ∀ f ∈ [chatEntry text (.error e) w₁ w₂], f.call.isApart = true := by
      simp [chatEntry, Call.isApart]
    have unchanged : agent = p.agent := Speaker.chat_error ha.chat
    refine .next _ telling hs hv hm (.refused rfl hv.quiet (ha.asked _ hs hv hm spoken)) ?_ ?_
    · exact List.append_assoc ..
    · rw [List.append_nil, ← spoken, ← unchanged]
      rfl
  -- No code, or code that could not be written: the exchange stays the newest, but the call is over.
  | unusable ha hx =>
    refine ha.conversing [] none h hs hv (by simp) (by simp) (noted_none fun x hx' => ?_)
      (List.append_nil _).symm rfl
    cases hx.symm.trans hx'
  | unwritten ha hx hd =>
    refine ha.conversing [] none h hs hv (by simp) (by simp) (noted_none fun x hx' written => ?_)
      (List.append_nil _).symm rfl
    cases hx.symm.trans hx'
    rw [hd] at written
    cases written
  | unrecorded ha hx hd _ _ hn =>
    exact ha.conversing _ (some _) h hs hv (apart _ _ _) (quiet _ _ _)
      (noted_some hx (replaced hd)) rfl hn
  | repaired ha hx hd _ hn =>
    exact ha.conversing _ (some _) h hs hv (apart _ _ _) (quiet _ _ _)
      (noted_some hx (replaced hd)) rfl hn

theorem Passes.conversing {r : Except Failure Pass} (hp : Passes s q p r p')
    (h : Conversing s q speaker log p) (hs : Sound s q p) : Conversing s q speaker log p' := by
  cases hp with
  | cancelled => exact h
  | unverified hv => exact h.silent hs hv rfl rfl
  | unlogged hv => exact h.silent hs hv rfl rfl
  | converged hv => exact h.silent hs hv rfl rfl
  | broken hv => exact h.silent hs hv rfl rfl
  | interrupted hv => exact h.silent hs hv rfl rfl
  | fixed hv _ hf => exact hf.conversing h hs hv

end Pass

theorem diagnoseAndFix_conversing (s : Setup σ) (q : Request) (speaker : Speaker)
    (log : List Exchange) (w : World σ) :
    Conversing s q speaker log (diagnoseAndFix s q (speaker.after log) w).2 := by
  let I : Progress σ → Prop := fun p => Sound s q p ∧ Conversing s q speaker log p
  have start (w' : World σ) : I { Progress.start (speaker.after log) w with world := w' } :=
    ⟨sound_start _ w w', log, .start, rfl⟩
  have next (p p' : Progress σ) (h : I p) (hp : Passes s q p (.ok .repaired) p') : I p' :=
    ⟨h.1.repaired hp, hp.conversing h.2 h.1⟩
  have last {r : Except Failure Stop} {m : Progress σ} (hm : Last s q I r m) :
      Conversing s q speaker log m := by
    obtain ⟨_, _, ⟨sound, conversing⟩, -, hp, -⟩ := hm.exists_pass
    exact hp.conversing conversing sound
  cases h : diagnoseAndFix s q (speaker.after log) w with
  | mk result p =>
    cases diagnoseAndFix_ends (fun w' _ => start w') next h with
    | unopened => exact (start _).2
    | failed hm => exact last hm
    | unfinished hm =>
      obtain ⟨told, telling, spoken⟩ := last hm
      exact ⟨told, telling, spoken⟩
    | finished hm =>
      obtain ⟨told, telling, spoken⟩ := last hm
      exact ⟨told, telling, spoken⟩

/-- Repairs by one agent, each in a world of its own. -/
def repairAll (s : Setup σ) (agent : Agent) : List (Request × World σ) →
    List (Request × Progress σ) × Agent
  | [] => ([], agent)
  | (q, w) :: rest =>
    let p := (diagnoseAndFix s q agent w).2
    let later := repairAll s p.agent rest
    ((q, p) :: later.1, later.2)

/-- What an agent that was told `log` has been told after some repairs. -/
inductive Retelling (s : Setup σ) (speaker : Speaker) :
    List Exchange → List (Request × Progress σ) → List Exchange → Prop
  | nil {log : List Exchange} : Retelling s speaker log [] log
  | cons {q : Request} {p : Progress σ} {rest : List (Request × Progress σ)}
      {log told all : List Exchange}
      (first : Telling s q speaker log (verifications p.entries) told)
      (later : Retelling s speaker told rest all) : Retelling s speaker log ((q, p) :: rest) all

theorem repairAll_retelling (s : Setup σ) (speaker : Speaker) (log : List Exchange)
    (jobs : List (Request × World σ)) :
    let done := repairAll s (speaker.after log) jobs
    ∃ told, Retelling s speaker log done.1 told ∧ done.2 = speaker.after told := by
  induction jobs generalizing log with
  | nil => exact ⟨log, .nil, rfl⟩
  | cons job jobs ih =>
    obtain ⟨q, w⟩ := job
    obtain ⟨told, telling, spoken⟩ := diagnoseAndFix_conversing s q speaker log w
    obtain ⟨all, later, agent⟩ := ih told
    dsimp only [repairAll]
    rw [spoken]
    exact ⟨all, .cons telling later, agent⟩

end Anneal.Repair
