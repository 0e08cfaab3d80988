import Anneal.Proofs.Repair.Candidate
import Anneal.Proofs.Rehearsal
import Anneal.Proofs.Repair.Convergence

/-! The candidate and the records form one chain. Verification by verification the file holds the
first text and then the fixes in their order, and each attempt records the verification of the same
place and the fix that followed it. -/

namespace Anneal.Repair

open Disk

variable {σ : Type} {s : Setup σ} {q : Request} {first : String}

def texts (first : String) (attempts : List Attempt) : List String :=
  first :: attempts.map fun a => Artifact.sourceText a.newCode

theorem texts_append (as bs : List Attempt) :
    texts first (as ++ bs) = texts first as ++ bs.map fun a => Artifact.sourceText a.newCode := by
  rw [texts, List.map_append]
  rfl

theorem texts_length (as : List Attempt) : (texts first as)[as.length]? =
    some ((as.map fun a => Artifact.sourceText a.newCode).getLast?.getD first) := by
  rcases List.eq_nil_or_concat as with rfl | ⟨as, a, rfl⟩
  · rfl
  · rw [List.concat_eq_append, texts, List.length_append, List.length_singleton,
      List.getElem?_cons_succ, List.map_append, List.map_singleton, List.getLast?_concat]
    simp

/-- Throughout each verification, and up to the write that follows it, the candidate held the text
of its place. -/
def Held (q : Request) (first : String) (p : Progress σ) : Prop :=
  ∀ (k : Nat) (v : Verification σ), (verifications p.entries)[k]? = some v →
    ∃ text : String, (texts first p.attempts)[k]? = some text ∧
      ∀ e ∈ v.own, e.before.disk.Holds q.candidatePath (Text.encode text)

/-- Each verification comes after the write of the text of its place, and ends with the write of the
next one if there is any. -/
def Placed (first : String) (p : Progress σ) : Prop :=
  ∀ (k : Nat) (v : Verification σ), (verifications p.entries)[k]? = some v →
    (texts first p.attempts)[k]? = some (lastWritten first v.earlier) ∧
      writes (callsOf v.own.dropLast) = []

structure Chained (first : String) (p : Progress σ) : Prop where
  placed : Placed first p
  written : writes (callsOf p.entries) = p.attempts.map fun a => Artifact.sourceText a.newCode

theorem Chained.current {p : Progress σ} (h : Chained first p) :
    (texts first p.attempts)[p.attempts.length]? = some (lastWritten first p.entries) := by
  rw [texts_length, lastWritten, h.written]

/-- A pass adds nothing or one verification, and writes at its end if at all. -/
theorem Passes.own {p p' : Progress σ} {r : Except Failure Pass} (h : Passes s q p r p') :
    p'.entries = p.entries ∨ ∃ own,
      verifications p'.entries = verifications p.entries ++ [⟨p.entries, own⟩] ∧
      writes (callsOf own.dropLast) = [] := by
  have hown {es : List (Entry σ)} {r : Except Failure Verdict} {known : Option String}
      {w : World σ} (hv : Verifies s q p es r known w) (more : List (Entry σ))
      (hentries : p'.entries = p.entries ++ es ++ more)
      (hm : ∀ e ∈ more, e.call.isApart = true) (hw : writes (callsOf more.dropLast) = []) :
      ∃ own, verifications p'.entries = verifications p.entries ++ [⟨p.entries, own⟩] ∧
        writes (callsOf own.dropLast) = [] := by
    refine ⟨es ++ more, ?_, ?_⟩
    · rw [hentries, List.append_assoc, hv.verifications hm]
    · have hes := writes_eq_nil hv.check.apart
      rw [List.dropLast_append]
      split
      · exact writes_eq_nil fun c hc => hv.check.apart c
          (List.map_subset _ (List.dropLast_subset es) hc)
      · rw [callsOf_append, writes_append, hes, hw]
        rfl
  have halone {es : List (Entry σ)} {r : Except Failure Verdict} {known : Option String}
      {w : World σ} (hv : Verifies s q p es r known w) (hentries : p'.entries = p.entries ++ es) :=
    hown hv [] (hentries.trans (List.append_nil _).symm) (by simp) rfl
  have hchat {es : List (Entry σ)} {r : Except Failure Verdict} {known : Option String}
      {w w₁ w₂ : World σ} {text : String} {reply : Except ClientError String}
      (hv : Verifies s q p es r known w)
      (hentries : p'.entries = p.entries ++ es ++ [chatEntry text reply w₁ w₂]) :=
    hown hv [chatEntry text reply w₁ w₂] hentries (List.forall_mem_singleton.2 rfl) rfl
  have hwrite {es : List (Entry σ)} {r : Except Failure Verdict} {known : Option String}
      {w w₁ w₂ w₃ : World σ} {text code : String} {reply : Except ClientError String}
      (hv : Verifies s q p es r known w)
      (hentries : p'.entries =
        p.entries ++ es ++ [chatEntry text reply w₁ w₂] ++ [writeEntry code w₂ w₃]) :=
    hown hv [chatEntry text reply w₁ w₂, writeEntry code w₂ w₃]
      (hentries.trans (List.append_assoc _ _ _))
      (List.forall_mem_cons.2 ⟨rfl, List.forall_mem_singleton.2 rfl⟩) rfl
  cases h with
  | cancelled => exact .inl rfl
  | fixed hv hj hf =>
    cases hf with
    | unread => exact .inr (halone hv rfl)
    | refused => exact .inr (hchat hv rfl)
    | unusable => exact .inr (hchat hv rfl)
    | unwritten => exact .inr (hchat hv rfl)
    | unrecorded => exact .inr (hwrite hv rfl)
    | repaired => exact .inr (hwrite hv rfl)
  | _ hv => exact .inr (halone hv rfl)

theorem Passes.attempts {p p' : Progress σ} {r : Except Failure Pass} (h : Passes s q p r p') :
    r = .ok .repaired ∨ p'.attempts = p.attempts := by
  cases h with
  | fixed hv hj hf => cases hf <;> first | exact .inr rfl | exact .inl rfl
  | _ => exact .inr rfl

theorem Passes.repaired_attempts {p p' : Progress σ} (h : Passes s q p (.ok .repaired) p') :
    ∃ a, p'.attempts = p.attempts ++ [a] ∧
      writes (callsOf p'.entries) =
        writes (callsOf p.entries) ++ [Artifact.sourceText a.newCode] := by
  cases h with
  | @fixed es _ _ _ _ _ _ _ hv hj hf =>
    cases hf with
    | @repaired w₁ w₂ w₃ w₄ text reply x agent agent' ms ha hx hd hj' =>
      refine ⟨_, rfl, ?_⟩
      show writes (callsOf (p.entries ++ es ++ [_] ++ [_])) = _
      rw [callsOf_append, callsOf_append, callsOf_append, writes_append, writes_append,
        writes_append, writes_eq_nil hv.check.apart]
      simp [writes]

theorem Chained.pass {p p' : Progress σ} {r : Except Failure Pass}
    (h : Chained first p) (hm : Sound s q p) (hp : Passes s q p r p') : Placed first p' := by
  have htexts : ∃ rest, texts first p'.attempts = texts first p.attempts ++ rest := by
    obtain rfl | ha := hp.attempts
    · obtain ⟨a, ha, -⟩ := hp.repaired_attempts
      exact ⟨_, ha ▸ texts_append _ _⟩
    · exact ⟨[], by rw [ha, List.append_nil]⟩
  obtain ⟨rest, hrest⟩ := htexts
  have hkeep {k : Nat} {text : String} (hk : (texts first p.attempts)[k]? = some text) :
      (texts first p'.attempts)[k]? = some text := by
    rw [hrest, List.getElem?_append_left (List.getElem?_eq_some_iff.1 hk).1, hk]
  -- A verification is an earlier one or that of this pass, which found the text written last.
  intro k v hv
  obtain he | ⟨own, hown, hwrites⟩ := hp.own
  · rw [he] at hv
    obtain ⟨htext, hwrites⟩ := h.placed k v hv
    exact ⟨hkeep htext, hwrites⟩
  · rw [hown] at hv
    rcases Nat.lt_or_ge k (verifications p.entries).length with hk | hk
    · rw [List.getElem?_append_left hk] at hv
      obtain ⟨htext, hwrites⟩ := h.placed k v hv
      exact ⟨hkeep htext, hwrites⟩
    · obtain ⟨hk', hv'⟩ := List.getElem?_eq_some_iff.1 hv
      rw [List.length_append, List.length_singleton] at hk'
      obtain rfl : k = (verifications p.entries).length := by omega
      rw [List.getElem?_concat_length, Option.some.injEq] at hv
      subst hv
      exact ⟨hkeep (hm.verified ▸ h.current), hwrites⟩

theorem Chained.repaired {p p' : Progress σ} (h : Chained first p) (hm : Sound s q p)
    (hp : Passes s q p (.ok .repaired) p') : Chained first p' := by
  obtain ⟨a, ha, hw⟩ := hp.repaired_attempts
  refine ⟨h.pass hm hp, ?_⟩
  rw [hw, ha, h.written, List.map_append]
  rfl

/-- The calls of a repair from `w` leave the candidate alone, and the journal is kept elsewhere. -/
structure Spared (s : Setup σ) (q : Request) (w : World σ) (entries : List (Entry σ)) : Prop where
  calls : ∀ e ∈ entries, e.Spares q
  journal : s.JournalApart q w.disk.home

theorem Spared.found {w w' : World σ} {es fs : List (Entry σ)} (hs : Spared s q w (es ++ fs))
    (h : Traced s q w es w') (hw : w.disk.Holds q.candidatePath (Text.encode first)) :
    w'.disk.Holds q.candidatePath (Text.encode (lastWritten first es)) :=
  (h.found hs.journal (fun e he => hs.calls e (List.mem_append_left _ he)) ⟨rfl, hw⟩).holds

theorem Placed.held {p : Progress σ} {w w' : World σ} (h : Placed first p)
    (hs : Spared s q w p.entries) (ht : Traced s q w p.entries w')
    (hw : w.disk.Holds q.candidatePath (Text.encode first)) : Held q first p := by
  intro k v hv
  obtain ⟨htext, hwrites⟩ := h k v hv
  refine ⟨_, htext, fun e he => ?_⟩
  obtain ⟨front, back, hown⟩ := List.append_of_mem he
  obtain ⟨rest, hentries⟩ := verifications_mem (List.mem_of_getElem? hv)
  -- Nothing is written in the verification in front of its last entry.
  have hfront : writes (callsOf front) = [] := by
    rw [hown, List.dropLast_append_cons, callsOf_append, writes_append] at hwrites
    exact (List.append_eq_nil_iff.1 hwrites).1
  have hsplit : p.entries = (v.earlier ++ front) ++ e :: (back ++ rest) := by
    rw [hentries, hown]
    simp
  rw [hsplit] at hs ht
  rw [← lastWritten_append hfront]
  exact hs.found ht.front hw

def Answered (calls : List Call) : Prop :=
  ∀ front text back, calls = front ++ .write text :: back →
    ∃ front' prompt reply x, front = front' ++ [.chat prompt (.ok reply)] ∧
      Reply.extract reply .repair = .ok x ∧ text = Artifact.sourceText x.code

theorem answered_of_writes {calls : List Call} (h : writes calls = []) : Answered calls := by
  rintro front text back rfl
  rw [writes_append] at h
  simp [writes] at h

theorem answered_pair {prompt reply : String} {x : Reply.Extracted}
    (hx : Reply.extract reply .repair = .ok x) :
    Answered [.chat prompt (.ok reply), .write (Artifact.sourceText x.code)] := by
  intro front text back h
  rcases front with _ | ⟨c, _ | ⟨c', front⟩⟩
  · cases h
  · cases h
    exact ⟨[], prompt, reply, x, rfl, hx, rfl⟩
  · cases front <;> cases h

theorem Answered.append {cs ds : List Call} (hc : Answered cs) (hd : Answered ds) :
    Answered (cs ++ ds) := by
  intro front text back h
  obtain ⟨rest, hcs, -⟩ | ⟨mid, hds, rfl⟩ := append_eq_append_cons_iff.1 h
  · exact hc front text rest hcs
  · obtain ⟨front', prompt, reply, x, rfl, hx, ht⟩ := hd mid text back hds
    exact ⟨cs ++ front', prompt, reply, x, (List.append_assoc _ _ _).symm, hx, ht⟩

theorem Passes.answered {p p' : Progress σ} {r : Except Failure Pass} (h : Passes s q p r p')
    (hp : Answered (callsOf p.entries)) : Answered (callsOf p'.entries) := by
  have hverified {es : List (Entry σ)} {r : Except Failure Verdict} {known : Option String}
      {w : World σ} (hv : Verifies s q p es r known w) : Answered (callsOf (p.entries ++ es)) := by
    rw [callsOf_append]
    exact hp.append (answered_of_writes (writes_eq_nil hv.check.apart))
  cases h with
  | cancelled => exact hp
  | @fixed es c outcome known w w' _ _ hv hj hf =>
    have hchat (text : String) (r : Except ClientError String) (w₁ w₂ : World σ) :
        Answered (callsOf (p.entries ++ es ++ [chatEntry text r w₁ w₂])) := by
      rw [callsOf_append]
      exact (hverified hv).append (answered_of_writes rfl)
    have hwrite {text reply : String} {x : Reply.Extracted} {w₁ w₂ w₃ : World σ}
        (hx : Reply.extract reply .repair = .ok x) :
        Answered (callsOf (p.entries ++ es ++ [chatEntry text (.ok reply) w₁ w₂] ++
          [writeEntry x.code w₂ w₃])) := by
      rw [callsOf_append, callsOf_append, List.append_assoc]
      exact (hverified hv).append (answered_pair hx)
    cases hf with
    | unread => exact hverified hv
    | refused => exact hchat _ _ _ _
    | unusable => exact hchat _ _ _ _
    | unwritten => exact hchat _ _ _ _
    | unrecorded ha hx => exact hwrite hx
    | repaired ha hx => exact hwrite hx
  | _ hv => exact hverified hv

/-- An attempt tells of the verification `v` and of the fix that follows it. -/
structure Documents (s : Setup σ) (q : Request) (v : Verification σ) (a : Attempt) : Prop where
  failed : a.outcome.passed = false
  classified : a.outcome.failureClass? = some a.failureClass
  staged : a.failureClass.stage = a.outcome.stage
  diagnosed : ∃ d, a.outcome.diagnostic = some d ∧ Fails s v a.failureClass d
  fixed : ∃ es chat write, v.own = es ++ [chat, write] ∧ Fixed q chat write a

theorem Recorded.documents {v : Verification σ} {a : Attempt} (h : Recorded s q v a) :
    Documents s q v a := by
  have hfails := h.fails
  have hfixed := h.fixed
  obtain ⟨output, d, ho⟩ := h.outcome
  rw [ho] at hfails
  refine ⟨by rw [ho]; rfl, ?_, by rw [ho]; rfl, ⟨d, by rw [ho]; rfl, hfails⟩, hfixed⟩
  rw [ho]
  cases a.failureClass <;> rfl

/-- The candidate and the records of a repair that started from the text `first`. -/
structure Chain (s : Setup σ) (q : Request) (first : String) (p : Progress σ) : Prop where
  held : Held q first p
  left : p.world.disk.Holds q.candidatePath (Text.encode (lastWritten first p.entries))
  answered : Answered (callsOf p.entries)
  documented : ∀ (k : Nat) (a : Attempt), p.attempts[k]? = some a →
    ∃ v, (verifications p.entries)[k]? = some v ∧ Documents s q v a

theorem Sound.documented {p : Progress σ} (h : Sound s q p) (k : Nat) (a : Attempt)
    (ha : p.attempts[k]? = some a) :
    ∃ v, (verifications p.entries)[k]? = some v ∧ Documents s q v a := by
  obtain ⟨hk, rfl⟩ := List.getElem?_eq_some_iff.1 ha
  have hk' : k < (verifications p.entries).length := h.verified ▸ hk
  exact ⟨_, List.getElem?_eq_getElem hk', (h.recorded.get hk' hk).documents⟩

structure Linkable (s : Setup σ) (q : Request) (first : String) (p : Progress σ) : Prop where
  sound : Sound s q p
  chained : Chained first p
  answered : Answered (callsOf p.entries)

structure Related (s : Setup σ) (q : Request) (first : String) (p : Progress σ) : Prop where
  placed : Placed first p
  answered : Answered (callsOf p.entries)
  documented : ∀ (k : Nat) (a : Attempt), p.attempts[k]? = some a →
    ∃ v, (verifications p.entries)[k]? = some v ∧ Documents s q v a

theorem Linkable.related {p p' : Progress σ} {r : Except Failure Pass}
    (h : Linkable s q first p) (hp : Passes s q p r p') : Related s q first p' where
  placed := h.chained.pass h.sound hp
  answered := hp.answered h.answered
  documented k a ha := by
    obtain rfl | hattempts := hp.attempts
    · exact (h.sound.repaired hp).documented k a ha
    · rw [hattempts] at ha
      obtain ⟨v, hv, hd⟩ := h.sound.documented k a ha
      refine ⟨v, ?_, hd⟩
      obtain he | ⟨own, hown, -⟩ := hp.own
      · rw [he, hv]
      · rw [hown, List.getElem?_append_left (List.getElem?_eq_some_iff.1 hv).1, hv]

theorem linkable_start (first : String) (agent : Agent) (w w' : World σ) :
    Linkable s q first { Progress.start agent w with world := w' } where
  sound := sound_start agent w w'
  chained := ⟨fun k v hv => by simp [Progress.start, verifications, verificationsFrom] at hv, rfl⟩
  answered := answered_of_writes rfl

theorem Linkable.repaired {p p' : Progress σ} (h : Linkable s q first p)
    (hp : Passes s q p (.ok .repaired) p') : Linkable s q first p' :=
  ⟨h.sound.repaired hp, h.chained.repaired h.sound hp, hp.answered h.answered⟩

theorem Last.related {r : Except Failure Stop} {p : Progress σ}
    (h : Last s q (Linkable s q first) r p) : Related s q first p := by
  obtain ⟨_, _, hm, -, hp, -⟩ := h.exists_pass
  exact hm.related hp

theorem diagnoseAndFix_related (first : String) {agent : Agent} {w : World σ}
    {result : Except Failure Report} {p : Progress σ} (h : diagnoseAndFix s q agent w = (result, p)) :
    Related s q first p ∧ ∀ r, result = .ok r → r.attempts = p.attempts := by
  have hends : Ends s q agent w (Linkable s q first) result p :=
    diagnoseAndFix_ends (fun w' _ => linkable_start first agent w w')
      (fun _ _ hm hp => hm.repaired hp) h
  cases hends with
  | @unopened e w' hj =>
    have hm : Linkable s q first _ := linkable_start first agent w w'
    exact ⟨⟨hm.chained.placed, hm.answered, hm.sound.documented⟩, fun _ h => by cases h⟩
  | failed hl => exact ⟨hl.related, fun _ h => by cases h⟩
  | unfinished hl hj =>
    obtain ⟨hplaced, hanswered, hdocumented⟩ := hl.related
    exact ⟨⟨hplaced, hanswered, hdocumented⟩, fun _ h => by cases h⟩
  | finished hl hj =>
    obtain ⟨hplaced, hanswered, hdocumented⟩ := hl.related
    refine ⟨⟨hplaced, hanswered, hdocumented⟩, fun r h => ?_⟩
    cases h
    rfl

/-- However a repair ends, the candidate and the records form a chain from its first text on, if the
calls of this repair do not write the candidate. -/
theorem repair_chain {agent : Agent} {w : World σ} {result : Except Failure Report}
    {p : Progress σ} (hw : w.disk.Holds q.candidatePath (Text.encode first))
    (h : diagnoseAndFix s q agent w = (result, p)) (hs : Spared s q w p.entries) :
    Chain s q first p ∧ ∀ r, result = .ok r → r.attempts = p.attempts := by
  obtain ⟨hrelated, hattempts⟩ := diagnoseAndFix_related first h
  have htraced := diagnoseAndFix_traced h
  have hall : Spared s q w (p.entries ++ []) := (List.append_nil p.entries).symm ▸ hs
  exact ⟨⟨hrelated.placed.held hs htraced hw, hall.found htraced hw, hrelated.answered,
    hrelated.documented⟩, hattempts⟩

section Copied

variable {limit : Nat} {reply : String} {journal : Option Journal}

theorem copied_spares {e : Entry Text.Bytes}
    (he : e.Genuine (copyingSetup limit reply journal) rehearsalRequest) :
    e.Spares rehearsalRequest := by
  intro hwrite home content hfound
  have hchanges := (copyingSetup_copies limit reply journal).changes he hwrite
  rw [hfound.home] at hchanges
  refine hfound.changes hchanges ?_
  obtain ⟨call, before, after⟩ := e
  cases call with
  | compile side source r =>
    obtain ⟨rfl, -⟩ := he
    have hname : Path.fileName? rehearsalRequest.candidatePath = some "main.rs" := by decide +kernel
    have hname' : Path.fileName? (executableFor (rehearsalRequest.source side)) = some "main" := by
      cases side <;> decide +kernel
    simpa [Call.outputs] using placeOf_ne_of_fileName hname hname' (by decide) home
  | _ => exact List.not_mem_nil

theorem copied_spared {w : World Text.Bytes} {agent : Agent} {result : Except Failure Report}
    {p : Progress Text.Bytes} (h : diagnoseAndFix (copyingSetup limit reply journal)
      rehearsalRequest agent w = (result, p)) :
    Spared (copyingSetup limit reply journal) rehearsalRequest w p.entries where
  calls e he := copied_spares (diagnoseAndFix_genuine h e he)
  journal j path hj hk := by
    have hname : Path.fileName? rehearsalRequest.candidatePath = some "main.rs" := by decide +kernel
    refine hk.placeOf_ne hname ?_ w.disk.home
    rintro (h | h | ⟨number, h⟩)
    · exact absurd h (by decide)
    · exact absurd h (by decide)
    · have := congrArg (fun name => name.toList.head?) h
      rw [Journal.attemptName_toList] at this
      cases this

end Copied

def copiedRun : Except Failure Report × Progress Text.Bytes :=
  diagnoseAndFix (copyingSetup 100 (Scripted.modifiedCodeReply "6") (some ⟨"s", "log"⟩))
    rehearsalRequest rehearsalAgent (copyingWorld (Text.encode "5\n") (Text.encode "6\n"))

theorem copied_chain :
    ∃ r p, copiedRun = (.ok r, p) ∧ r.stop = .converged ∧ r.attempts.length = 1 ∧
      Chain (copyingSetup 100 (Scripted.modifiedCodeReply "6") (some ⟨"s", "log"⟩))
        rehearsalRequest "5\n" p ∧ r.attempts = p.attempts := by
  have hw : (copyingWorld (Text.encode "5\n") (Text.encode "6\n")).disk.Holds "main.rs"
      (Text.encode "5\n") := by
    unfold Holds
    decide +kernel
  have h : copiedRun.1.toOption.map (fun r => (r.stop, r.attempts.length)) =
      some (.converged, 1) := by decide +kernel
  obtain ⟨r, p, hrun, hr⟩ := exists_report h
  obtain ⟨hchain, hattempts⟩ := repair_chain hw hrun (copied_spared hrun)
  exact ⟨r, p, hrun, congrArg Prod.fst hr, congrArg Prod.snd hr, hchain, hattempts r rfl⟩

theorem cancelDuring_disk (m : Scripted.Moment) (number : Nat) (w : World Scripted.Script) :
    (Scripted.cancelDuring m number w).disk = w.disk := by
  unfold Scripted.cancelDuring
  split <;> rfl

theorem rehearsal_compile_disk (side : Side) (source : String) (w : World Scripted.Script) :
    ((rehearsal.toolchain side).compile source w).2.disk = w.disk := by
  cases side <;> exact cancelDuring_disk _ _ _

theorem rehearsal_run_disk (side : Side) (executable : String) (stdin : Option String)
    (w : World Scripted.Script) :
    ((rehearsal.toolchain side).run executable stdin w).2.disk = w.disk := by
  cases side <;> exact cancelDuring_disk _ _ _

structure Overwritten (s : Setup Scripted.Script) (q : Request) (w : World Scripted.Script)
    (first : String) : Prop where
  compile : ∀ side source w, ((s.toolchain side).compile source w).2.disk = w.disk
  run : ∀ side executable stdin w,
    ((s.toolchain side).run executable stdin w).2.disk = w.disk
  holds : w.disk.Holds q.candidatePath (Text.encode first)
  ends : ∃ r p, diagnoseAndFix s q rehearsalAgent w = (.ok r, p) ∧
    writes (callsOf p.entries) = [] ∧ ¬ p.world.disk.Holds q.candidatePath (Text.encode first)

def collidingRequest : Request := ⟨"log/report.json", "main.cpp", none, none⟩

def collidingWorld : World Scripted.Script where
  disk := rehearsalDisk.set ["tmp", "work", "log", "report.json"]
    (.file (Text.encode "fn main() {}\n") false)
  cancelled := false
  clock := 0
  outside := { rehearsalScript with
    results := fun _ => ⟨[.success ""], [.success "6\n"], 0, 0, []⟩ }

def meddling : Setup Scripted.Script :=
  { rehearsal with
    client := ⟨fun _ => .ok .messages, fun backend _ _ w =>
      (.error (Scripted.noReplyLeft backend), (w.onDisk fun d => d.writeBytes "main.rs" []).2)⟩ }

theorem others_replace_candidate :
    Overwritten rehearsal collidingRequest collidingWorld "fn main() {}\n" ∧
      Overwritten meddling rehearsalRequest rehearsalWorld "fn main() {}\n" := by
  have hends {s : Setup Scripted.Script} {q : Request} {w : World Scripted.Script}
      {first : String} (reason : StopReason)
      (hstop : (diagnoseAndFix s q rehearsalAgent w).1.toOption.map Report.stop = some reason)
      (hwrites : writes (callsOf (diagnoseAndFix s q rehearsalAgent w).2.entries) = [])
      (hleft : ¬ (diagnoseAndFix s q rehearsalAgent w).2.world.disk.Holds q.candidatePath
        (Text.encode first)) :
      ∃ r p, diagnoseAndFix s q rehearsalAgent w = (.ok r, p) ∧
        writes (callsOf p.entries) = [] ∧
        ¬ p.world.disk.Holds q.candidatePath (Text.encode first) := by
    obtain ⟨r, p, hrun, -⟩ := exists_report hstop
    rw [hrun] at hwrites hleft
    exact ⟨r, p, hrun, hwrites, hleft⟩
  refine ⟨⟨rehearsal_compile_disk, rehearsal_run_disk, ?_, ?_⟩,
    ⟨rehearsal_compile_disk, rehearsal_run_disk, ?_, ?_⟩⟩
  · unfold Holds
    decide +kernel
  · refine hends .converged (by decide +kernel) (by decide +kernel) ?_
    unfold Holds
    decide +kernel
  · unfold Holds
    decide +kernel
  · refine hends .transport (by decide +kernel) (by decide +kernel) ?_
    unfold Holds
    decide +kernel

end Anneal.Repair
