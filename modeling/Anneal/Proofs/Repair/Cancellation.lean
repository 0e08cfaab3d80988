import Anneal.Proofs.Repair.Convergence

/-! Cancelling a repair. The cancel flag may go up before the repair, while a toolchain works or
while the model is asked. From then on nothing is verified and nobody is asked any more; only a
reply that has come may still be written. -/

namespace Anneal.Repair

variable {σ : Type} {s : Setup σ} {q : Request}

/-- Neither the toolchains nor the model client take the flag down. -/
structure NeverCleared (s : Setup σ) : Prop where
  compile : ∀ side source w, w.cancelled = true →
    ((s.toolchain side).compile source w).2.cancelled = true
  run : ∀ side executable stdin w, w.cancelled = true →
    ((s.toolchain side).run executable stdin w).2.cancelled = true
  complete : ∀ backend prompt options w, w.cancelled = true →
    (s.client.complete backend prompt options w).2.cancelled = true

theorem Journaled.cancelled {w w' : World σ} (h : Journaled s w w') :
    w'.cancelled = w.cancelled := by
  obtain ⟨d, _, -, -, rfl⟩ := h
  rfl

theorem cancelled_of_onDisk {ε α : Type} {op : Disk → Except ε α × Disk} {w w' : World σ}
    {r : Except ε α} (h : w.onDisk op = (r, w')) : w'.cancelled = w.cancelled := by
  obtain ⟨d, -, rfl⟩ := onDisk_eq h
  rfl

theorem NeverCleared.chat (hs : NeverCleared s) {a a' : Agent} {text : String}
    {options : CompletionOptions} {r : Except ClientError String} {w w' : World σ}
    (h : a.chat s.client text options w = (r, a', w')) (hw : w.cancelled = true) :
    w'.cancelled = true := by
  unfold Agent.chat at h
  split at h
  · cases h
    exact hw
  next shape _ =>
    have hc := hs.complete a.backend (a.promptFor text shape) options w hw
    split at h
    next hr =>
      cases h
      rwa [hr] at hc
    next hr =>
      cases h
      rwa [hr] at hc

theorem NeverCleared.genuine (hs : NeverCleared s) {e : Entry σ} (h : e.Genuine s q)
    (hb : e.before.cancelled = true) : e.after.cancelled = true := by
  unfold Entry.Genuine at h
  split at h
  next side source _ _ =>
    obtain ⟨-, h⟩ := h
    have hc := hs.compile side source e.before hb
    rwa [h] at hc
  next side executable stdin _ _ =>
    obtain ⟨-, -, h⟩ := h
    have hc := hs.run side executable stdin e.before hb
    rwa [h] at hc
  next =>
    obtain ⟨_, _, h⟩ := h
    exact hs.chat h hb
  next =>
    rwa [cancelled_of_onDisk h]

theorem NeverCleared.linked (hs : NeverCleared s) {es : List (Entry σ)} {w w' : World σ}
    (h : Linked s q w es w') (hw : w.cancelled = true) : w'.cancelled = true := by
  induction es generalizing w with
  | nil => exact (show w = w' from h) ▸ hw
  | cons e es ih =>
    obtain ⟨rfl, he, hes⟩ := h
    exact ih hes (hs.genuine he hw)

theorem NeverCleared.linked_mem (hs : NeverCleared s) {es : List (Entry σ)} {w w' : World σ}
    (h : Linked s q w es w') {e : Entry σ} (he : e ∈ es) (hc : e.after.cancelled = true) :
    w'.cancelled = true := by
  induction es generalizing w with
  | nil => cases he
  | cons e' es ih =>
    obtain ⟨-, -, hes⟩ := h
    rcases List.mem_cons.1 he with rfl | he
    · exact hs.linked hes hc
    · exact ih hes he

def Call.fault? : Call → Option Failure
  | .compile _ _ (.error f) => some f
  | .run _ _ _ (.error f) => some f
  | _ => none

inductive Reports (s : Setup σ) (w : World σ) (P : Report → Prop) : Except Failure Report → Prop
  | report {r : Report} (h : P r) : Reports s w P (.ok r)
  | unkept {f : Failure} (h : Unjournaled s f w) : Reports s w P (.error f)

inductive CutShort (s : Setup σ) (v : Verification σ) : StopReason → Prop
  | converged {output : String} (h : Agrees s v output) : CutShort s v .converged
  | referenceBroken {d : String} (h : Breaks v d) : CutShort s v .referenceBroken
  | cancelled {c : FailureClass} {d : String} (h : Fails s v c d) : CutShort s v .cancelled

/-- Why a repair stops in which the flag went up on the way to a fix: it is exhausted if that was
the last one allowed. One fix is always allowed. -/
def stopAfterFix (s : Setup σ) (r : Report) : StopReason :=
  if r.attempts.length = max 1 s.settings.maxRetry then .exhausted else .cancelled

/-- What becomes of a repair in which the flag is up after the entry `e`; `later` are the entries
behind that one. -/
inductive Heeded (s : Setup σ) (q : Request) (result : Except Failure Report)
    (entries : List (Entry σ)) (w : World σ) (e : Entry σ) (later : List (Entry σ)) : Prop
  | verifying {v : Verification σ} (he : e.call.isApart = false)
      (hv : (verifications entries).getLast? = some v) (hmem : e ∈ v.own)
      (hlater : ∀ f ∈ later, f.call.isApart = false ∧ f.call.opens = false)
      (hr : Reports s w (fun r => CutShort s v r.stop) result ∨
        ∃ f, result = .error f ∧ ∃ c ∈ v.calls, c.fault? = some f)
  | refused {text : String} {err : ClientError} (he : e.call = .chat text (.error err))
      (hlater : later = [])
      (hr : Reports s w (fun r => r.stop = if err.isTransient then .transport else .backend) result)
  | unusable {text reply : String} {err : Reply.ExtractionError}
      (he : e.call = .chat text (.ok reply)) (hx : Reply.extract reply .repair = .error err)
      (hlater : later = []) (hr : Reports s w (fun r => r.stop = .responseParse) result)
  | unwritten {text reply : String} {x : Reply.Extracted} {err : OsError}
      (he : e.call = .chat text (.ok reply)) (hx : Reply.extract reply .repair = .ok x)
      (hlater : later = [])
      (hr : result = .error (.ofOs s!"write candidate {q.candidatePath}" err))
  | written {text reply : String} {x : Reply.Extracted}
      (he : e.call = .chat text (.ok reply)) (hx : Reply.extract reply .repair = .ok x)
      (hlater : callsOf later = [.write (Artifact.sourceText x.code)])
      (hr : Reports s w (fun r => r.stop = stopAfterFix s r) result)
  | replaced {text : String} (he : e.call = .write text) (hlater : later = [])
      (hr : Reports s w (fun r => r.stop = stopAfterFix s r) result)

/-- Whenever the flag is up, the repair heeds it. -/
structure Heeds (s : Setup σ) (q : Request) (w : World σ) (result : Except Failure Report)
    (p : Progress σ) : Prop where
  before : w.cancelled = true →
    p.entries = [] ∧ Reports s p.world (fun r => r.stop = .cancelled) result
  during : ∀ earlier e later, p.entries = earlier ++ e :: later → e.after.cancelled = true →
    (∀ f ∈ later, f.call.opens = false ∧ f.call.isChat = false) ∧
      Heeded s q result p.entries p.world e later

theorem Heeded.idle {result : Except Failure Report} {entries later : List (Entry σ)}
    {w : World σ} {e : Entry σ} (h : Heeded s q result entries w e later) :
    ∀ f ∈ later, f.call.opens = false ∧ f.call.isChat = false := by
  cases h with
  | verifying he hv hmem hlater hr =>
    intro f hf
    obtain ⟨ha, ho⟩ := hlater f hf
    refine ⟨ho, ?_⟩
    cases hc : f.call <;> simp_all [Call.isApart, Call.isChat]
  | written he hx hlater hr =>
    obtain ⟨f, rfl, hf⟩ := List.map_eq_singleton_iff.1 hlater
    simp [hf, Call.opens, Call.isChat]
  | _ => simp_all

inductive Pending (e : Entry σ) (later : List (Entry σ)) : Prop
  | asked {text reply : String} {x : Reply.Extracted} (he : e.call = .chat text (.ok reply))
      (hx : Reply.extract reply .repair = .ok x)
      (hlater : callsOf later = [.write (Artifact.sourceText x.code)])
  | replaced {text : String} (he : e.call = .write text) (hlater : later = [])

structure Watched (s : Setup σ) (q : Request) (p : Progress σ) : Prop where
  sound : Sound s q p
  pending : ∀ earlier e later, p.entries = earlier ++ e :: later → e.after.cancelled = true →
    p.world.cancelled = true ∧ Pending e later

theorem watched_start (agent : Agent) (w w' : World σ) :
    Watched s q { Progress.start agent w with world := w' } where
  sound := sound_start agent w w'
  pending earlier e later h := by simp [Progress.start] at h

section Pass

variable {m p : Progress σ} {es more earlier later : List (Entry σ)} {e : Entry σ}
  {answer : Except Failure Verdict} {known : Option String} {w : World σ}

theorem Watched.locate (hs : NeverCleared s) (h : Watched s q m)
    (hv : Verifies s q m es answer known w)
    (hentries : m.entries ++ (es ++ more) = earlier ++ e :: later)
    (he : e.after.cancelled = true) :
    (w.cancelled = true ∧ ∃ front rest, es = front ++ e :: rest ∧ later = rest ++ more) ∨
      ∃ front, more = front ++ e :: later := by
  -- An entry of an earlier pass would have kept this one from verifying.
  obtain ⟨rest, hm, -⟩ | ⟨front, hfront, -⟩ := append_eq_append_cons_iff.1 hentries
  · have hup := (h.pending _ _ _ hm he).1
    rw [hv.wanted] at hup
    cases hup
  · obtain ⟨rest, hes, hlater⟩ | ⟨front', hmore, -⟩ := append_eq_append_cons_iff.1 hfront
    · have hmem : e ∈ es := hes ▸ List.mem_append_right _ List.mem_cons_self
      exact .inl ⟨hs.linked_mem hv.linked hmem he, front, rest, hes, hlater⟩
    · exact .inr ⟨front', hmore⟩

theorem Watched.cutShort (hs : NeverCleared s) (h : Watched s q m)
    (hv : Verifies s q m es answer known w) {entries : List (Entry σ)}
    (hentries : entries = m.entries ++ es) (hsplit : entries = earlier ++ e :: later)
    (he : e.after.cancelled = true) {result : Except Failure Report} {w' : World σ}
    (hr : Reports s w' (fun r => CutShort s ⟨m.entries, es⟩ r.stop) result ∨
      ∃ f, result = .error f ∧ ∃ c ∈ callsOf es, c.fault? = some f) :
    Heeded s q result entries w' e later := by
  rw [hentries, ← List.append_nil es] at hsplit
  obtain ⟨-, front, rest, hes, hlater⟩ | ⟨front, hnil⟩ := h.locate hs hv hsplit he
  · rw [List.append_nil] at hlater
    subst hlater
    have hmem : e ∈ es := hes ▸ List.mem_append_right _ List.mem_cons_self
    refine .verifying (v := ⟨m.entries, es⟩) ?_ ?_ hmem (fun f hf => ⟨?_, ?_⟩) hr
    · exact hv.check.apart _ (List.mem_map_of_mem hmem)
    · have hnil : ∀ f ∈ ([] : List (Entry σ)), f.call.isApart = true := List.forall_mem_nil _
      have hlast := hv.verifications hnil
      rw [List.append_nil] at hlast
      rw [hentries, hlast, List.getLast?_concat]
    · have hf : f ∈ es := hes ▸ List.mem_append_right _ (List.mem_cons_of_mem _ hf)
      exact hv.check.apart _ (List.mem_map_of_mem hf)
    · -- Only the first entry opens a verification, and that is no later one.
      obtain ⟨c, calls, hcalls, -, hrest⟩ := hv.check.opens
      rw [hes] at hcalls
      cases front with
      | nil => exact hrest _ ((List.cons.inj hcalls).2 ▸ List.mem_map_of_mem hf)
      | cons e' front =>
        have hf : f ∈ front ++ e :: later := List.mem_append_right _ (List.mem_cons_of_mem _ hf)
        exact hrest _ ((List.cons.inj hcalls).2 ▸ List.mem_map_of_mem hf)
  · simp at hnil

theorem Watched.repaired (hs : NeverCleared s) (h : Watched s q m)
    (hp : Passes s q m (.ok .repaired) p) : Watched s q p where
  sound := h.sound.repaired hp
  pending earlier e later hsplit he := by
    cases hp with
    | @fixed es c outcome known w w' _ _ hv hj hf hc =>
      cases hf with
      | @repaired w₁ w₂ w₃ w₄ text reply x agent agent' ms ha hx hd hj' =>
        have hsplit : m.entries ++ (es ++ [chatEntry text (.ok reply) w₁ w₂,
            writeEntry x.code w₂ w₃]) = earlier ++ e :: later := by
          rw [← hsplit]
          simp [Progress.asked, Progress.replaced, Progress.verified, chatEntry, writeEntry]
        obtain ⟨hup, -⟩ | ⟨front, hmore⟩ := h.locate hs hv hsplit he
        · rw [hj.cancelled, hup] at hc
          cases hc
        · show w₄.cancelled = true ∧ Pending e later
          rw [hj'.cancelled, cancelled_of_onDisk hd]
          rcases front with _ | ⟨_, _ | ⟨_, front⟩⟩
          · cases hmore
            exact ⟨he, .asked rfl hx rfl⟩
          · cases hmore
            exact ⟨(cancelled_of_onDisk hd).symm.trans he, .replaced rfl rfl⟩
          · cases front <;> cases hmore

end Pass

theorem ReferenceCheck.fault {calls : List Call} {f : Failure}
    (h : ReferenceCheck q calls (.error f)) : ∃ c ∈ calls, c.fault? = some f := by
  cases h <;> simp [Request.compiling, Request.running, Call.fault?]

theorem Check.fault {known known' : Option String} {calls : List Call} {f : Failure}
    (h : Check s q known calls (.error f) known') : ∃ c ∈ calls, c.fault? = some f := by
  cases h with
  | unanswered hc hr hk hq =>
    obtain ⟨c, hmem, hf⟩ := hq.fault
    exact ⟨c, List.mem_cons_of_mem _ (List.mem_cons_of_mem _ hmem), hf⟩
  | _ => simp [Request.compiling, Request.running, Call.fault?]

theorem Reports.imp {w : World σ} {P Q : Report → Prop} {result : Except Failure Report}
    (h : Reports s w P result) (hPQ : ∀ r, P r → Q r) : Reports s w Q result := by
  cases h with
  | report hr => exact .report (hPQ _ hr)
  | unkept hf => exact .unkept hf

structure Closes (s : Setup σ) (r : Except Failure Stop) (p : Progress σ)
    (result : Except Failure Report) (w : World σ) : Prop where
  stopped : ∀ stop, r = .ok stop →
    Reports s w (fun report => report.stop = stop.reason ∧ report.attempts = p.attempts) result
  failed : ∀ f, r = .error f → result = .error f ∧ w = p.world

section Close

variable {m p : Progress σ} {r : Except Failure Stop} {result : Except Failure Report}
  {w : World σ}

theorem Closes.stop (h : Closes s r p result w) {stop : Stop}
    (hc : Concludes s p (.ok (.stopped stop)) r) :
    Reports s w (fun report => report.stop = stop.reason ∧ report.attempts = p.attempts)
      result := by
  cases hc
  exact h.stopped stop rfl

theorem Closes.failure (h : Closes s r p result w) {f : Failure}
    (hc : Concludes s p (.error f) r) : result = .error f ∧ w = p.world := by
  cases hc
  exact h.failed f rfl

theorem Closes.unkept (h : Closes s r p result w) {f : Failure}
    (hc : Concludes s p (.error f) r) (hf : Unjournaled s f p.world) {P : Report → Prop} :
    Reports s w P result := by
  obtain ⟨rfl, rfl⟩ := h.failure hc
  exact .unkept hf

theorem Closes.cancelled (h : Closes s r p result w)
    (hlt : p.attempts.length < max 1 s.settings.maxRetry)
    (hc : Concludes s p (.ok (.stopped (cancelledStop p))) r) :
    Reports s w (fun report => report.stop = stopAfterFix s report) result :=
  (h.stop hc).imp fun report hr => by
    rw [hr.1, stopAfterFix, if_neg (hr.2 ▸ hlt.ne)]
    rfl

theorem Closes.exhausted (h : Closes s r p result w)
    (hle : p.attempts.length ≤ max 1 s.settings.maxRetry) (hpos : 1 ≤ p.attempts.length)
    (hc : Concludes s p (.ok .repaired) r) :
    Reports s w (fun report => report.stop = stopAfterFix s report) result := by
  cases hc with
  | exhausted hm =>
    have hall : p.attempts.length = max 1 s.settings.maxRetry := le_antisymm hle (max_le hpos hm)
    refine (h.stopped _ rfl).imp fun report hr => ?_
    rw [hr.1, stopAfterFix, if_pos (hr.2 ▸ hall)]
    rfl

end Close

section Last

variable {m p : Progress σ} {pr : Except Failure Pass} {r : Except Failure Stop}
  {result : Except Failure Report} {w : World σ} {earlier later : List (Entry σ)} {e : Entry σ}

theorem Watched.fixes (hs : NeverCleared s) (h : Watched s q m)
    (hlt : m.attempts.length < max 1 s.settings.maxRetry) {es : List (Entry σ)}
    {c : FailureClass} {outcome : Outcome} {known : Option String} {w₀ w₁ : World σ}
    (hv : Verifies s q m es (.ok (.failed c outcome)) known w₀) (hj : Journaled s w₀ w₁)
    (hdown : w₁.cancelled = false)
    (hf : Fixes s q c outcome m.world
      { m.verified es known w₁ with lastDiagnostic := some outcome.diagnosticText } pr p)
    (hc : Concludes s p pr r) (hclose : Closes s r p result w)
    (hsplit : p.entries = earlier ++ e :: later) (he : e.after.cancelled = true) :
    Heeded s q result p.entries w e later := by
  -- During the verification the flag cannot have gone up, as the model was still asked.
  have hmore {more : List (Entry σ)} (hentries : p.entries = m.entries ++ es ++ more) :
      ∃ front, more = front ++ e :: later := by
    rw [hentries, List.append_assoc] at hsplit
    obtain ⟨hup, -⟩ | hfront := h.locate hs hv hsplit he
    · rw [hj.cancelled, hup] at hdown
      cases hdown
    · exact hfront
  have hone (chat : Entry σ) (hentries : p.entries = m.entries ++ es ++ [chat]) :
      chat = e ∧ later = [] := by
    obtain ⟨front, hfront⟩ := hmore hentries
    obtain ⟨rfl, he⟩ := List.append_eq_singleton_iff.1 hfront.symm |>.resolve_right (by simp)
    exact ⟨(List.cons.inj he).1.symm, (List.cons.inj he).2⟩
  have htwo (chat write : Entry σ) (hentries : p.entries = m.entries ++ es ++ [chat, write]) :
      chat = e ∧ later = [write] ∨ write = e ∧ later = [] := by
    obtain ⟨front, hfront⟩ := hmore hentries
    rcases front with _ | ⟨_, _ | ⟨_, front⟩⟩
    · cases hfront
      exact .inl ⟨rfl, rfl⟩
    · cases hfront
      exact .inr ⟨rfl, rfl⟩
    · cases front <;> cases hfront
  cases hf with
  | unread hw =>
    obtain ⟨front, hfront⟩ := hmore (List.append_nil _).symm
    simp at hfront
  | @refused w₂ w₃ text err agent ha =>
    obtain ⟨rfl, rfl⟩ := hone (chatEntry text (.error err) w₂ w₃) rfl
    exact .refused rfl rfl ((hclose.stop hc).imp fun _ hr => hr.1)
  | @unusable w₂ w₃ text reply err agent ha hx =>
    obtain ⟨rfl, rfl⟩ := hone (chatEntry text (.ok reply) w₂ w₃) rfl
    exact .unusable rfl hx rfl ((hclose.stop hc).imp fun _ hr => hr.1)
  | @unwritten w₂ w₃ text reply x agent err f d ha hx hd hf =>
    obtain ⟨rfl, rfl⟩ := hone (chatEntry text (.ok reply) w₂ w₃) rfl
    exact .unwritten rfl hx rfl (hf ▸ (hclose.failure hc).1)
  | @unrecorded w₂ w₃ w₄ w₅ text reply x agent agent' f ha hx hd hj' hf =>
    have hr := hclose.unkept hc hf (P := fun r => r.stop = stopAfterFix s r)
    obtain ⟨rfl, rfl⟩ | ⟨rfl, rfl⟩ := htwo (chatEntry text (.ok reply) w₂ w₃)
      (writeEntry x.code w₃ w₄) (List.append_assoc _ _ _)
    · exact .written rfl hx rfl hr
    · exact .replaced rfl rfl hr
  | @repaired w₂ w₃ w₄ w₅ text reply x agent agent' ms ha hx hd hj' =>
    have hr := hclose.exhausted (List.length_append.trans_le hlt)
      (List.length_append.symm ▸ Nat.succ_pos _) hc
    obtain ⟨rfl, rfl⟩ | ⟨rfl, rfl⟩ := htwo (chatEntry text (.ok reply) w₂ w₃)
      (writeEntry x.code w₃ w₄) (List.append_assoc _ _ _)
    · exact .written rfl hx rfl hr
    · exact .replaced rfl rfl hr

theorem Watched.heeded (hs : NeverCleared s) (h : Watched s q m)
    (hlt : m.attempts.length < max 1 s.settings.maxRetry) (hp : Passes s q m pr p)
    (hc : Concludes s p pr r) (hclose : Closes s r p result w)
    (hsplit : p.entries = earlier ++ e :: later) (he : e.after.cancelled = true) :
    Heeded s q result p.entries w e later := by
  have hjudged {es : List (Entry σ)} {verdict : Verdict} {known : Option String} {w₀ : World σ}
      (hv : Verifies s q m es (.ok verdict) known w₀) : Judged s ⟨m.entries, es⟩ verdict := by
    have hnil : ∀ f ∈ ([] : List (Entry σ)), f.call.isApart = true := List.forall_mem_nil _
    have hj := hv.judged h.sound.remembers hnil
    rwa [List.append_nil] at hj
  cases hp with
  | cancelled =>
    have hr := hclose.cancelled hlt hc
    cases (h.pending _ _ _ hsplit he).2 with
    | asked he hx hlater => exact .written he hx hlater hr
    | replaced he hlater => exact .replaced he hlater hr
  | unverified hv =>
    exact h.cutShort hs hv rfl hsplit he (.inr ⟨_, (hclose.failure hc).1, hv.check.fault⟩)
  | unlogged hv hj hf =>
    exact h.cutShort hs hv rfl hsplit he (.inl (hclose.unkept hc hf))
  | converged hv hj =>
    refine h.cutShort hs hv rfl hsplit he (.inl ((hclose.stop hc).imp fun report hr => ?_))
    exact hr.1 ▸ .converged (((hjudged hv).agrees _).2 rfl)
  | broken hv hj =>
    refine h.cutShort hs hv rfl hsplit he (.inl ((hclose.stop hc).imp fun report hr => ?_))
    exact hr.1 ▸ .referenceBroken (((hjudged hv).breaks _).2 rfl)
  | interrupted hv hj hup =>
    refine h.cutShort hs hv rfl hsplit he (.inl ((hclose.stop hc).imp fun report hr => ?_))
    obtain ⟨_, _, rfl⟩ := hv.check.failed
    exact hr.1 ▸ .cancelled (hjudged hv).failed
  | fixed hv hj hf hdown => exact h.fixes hs hlt hv hj hdown hf hc hclose hsplit he

theorem Passes.idle (hp : Passes s q m pr p) (h : m.world.cancelled = true) :
    p = m ∧ pr = .ok (.stopped (cancelledStop m)) := by
  have hwanted {es : List (Entry σ)} {answer : Except Failure Verdict} {known : Option String}
      {w : World σ} (hv : Verifies s q m es answer known w) : False := by
    rw [hv.wanted] at h
    cases h
  cases hp with
  | cancelled => exact ⟨rfl, rfl⟩
  | _ hv => exact (hwanted hv).elim

end Last

structure Alert (s : Setup σ) (q : Request) (w : World σ) (p : Progress σ) : Prop where
  watched : Watched s q p
  idle : w.cancelled = true → p.world.cancelled = true ∧ p.entries = []

theorem Last.heeds (hs : NeverCleared s) {w w' : World σ} {p : Progress σ}
    {r : Except Failure Stop} {result : Except Failure Report}
    (h : Last s q (Alert s q w) r p) (hclose : Closes s r p result w') :
    Heeds s q w result { p with world := w' } := by
  obtain ⟨m, pr, hm, hlt, hp, hc⟩ := h.exists_pass
  refine ⟨fun hw => ?_, fun earlier e later hsplit he => ?_⟩
  · obtain ⟨hup, hnil⟩ := hm.idle hw
    obtain ⟨rfl, rfl⟩ := hp.idle hup
    exact ⟨hnil, (hclose.stop hc).imp fun _ hr => hr.1⟩
  · have hh := hm.watched.heeded hs hlt hp hc hclose hsplit he
    exact ⟨hh.idle, hh⟩

/-- If the flag is up at any time, before the repair or after any call, then nothing is verified
and nobody is asked from then on. A flag that goes up during a verification leaves the candidate as
it is, and the repair is cancelled unless that verification ends it; one that goes up while the
model is asked leaves the candidate to that reply. -/
theorem cancellation_heeded (hs : NeverCleared s) {agent : Agent} {w : World σ}
    {result : Except Failure Report} {p : Progress σ}
    (h : diagnoseAndFix s q agent w = (result, p)) :
    Traced s q w p.entries p.world ∧ Heeds s q w result p := by
  refine ⟨diagnoseAndFix_traced h, ?_⟩
  have hends : Ends s q agent w (Alert s q w) result p := by
    refine diagnoseAndFix_ends (fun w' hj => ?_) (fun m m' hm hp => ?_) h
    · exact ⟨watched_start agent w w', fun hw => ⟨hj.cancelled.trans hw, rfl⟩⟩
    · refine ⟨hm.watched.repaired hs hp, fun hw => ?_⟩
      cases (hp.idle (hm.idle hw).1).2
  cases hends with
  | unopened hj hf =>
    exact ⟨fun _ => ⟨rfl, .unkept hf⟩, fun _ _ _ hsplit => by simp [Progress.start] at hsplit⟩
  | failed hl =>
    refine hl.heeds hs ⟨fun _ hr => ?_, fun _ hr => ?_⟩
    · cases hr
    · cases hr
      exact ⟨rfl, rfl⟩
  | unfinished hl hj hf => exact hl.heeds hs ⟨fun _ _ => .unkept hf, fun _ hr => by cases hr⟩
  | finished hl hj =>
    refine hl.heeds hs ⟨fun _ hr => ?_, fun _ hr => ?_⟩
    · cases hr
      exact .report ⟨rfl, rfl⟩
    · cases hr

open Scripted in
theorem cancelDuring_cancelled {moment : Moment} {number : Nat} {w : World Script}
    (h : w.cancelled = true) : (cancelDuring moment number w).cancelled = true := by
  unfold cancelDuring
  split
  · rfl
  · exact h

theorem rehearsal_neverCleared : NeverCleared rehearsal where
  compile side source w hw := by cases side <;> exact cancelDuring_cancelled hw
  run side executable stdin w hw := by cases side <;> exact cancelDuring_cancelled hw
  complete backend prompt options w hw := cancelDuring_cancelled hw

def cancelledWorld : World Scripted.Script :=
  { rehearsalWorld with
    outside := { rehearsalScript with cancelAt := some (.call .repair, 1) } }

theorem rehearsal_heeds :
    NeverCleared rehearsal ∧ ∃ r p,
      diagnoseAndFix rehearsal rehearsalRequest rehearsalAgent cancelledWorld = (.ok r, p) ∧
      r.stop = .cancelled ∧ Traced rehearsal rehearsalRequest cancelledWorld p.entries p.world ∧
      Heeds rehearsal rehearsalRequest cancelledWorld (.ok r) p := by
  have h : (diagnoseAndFix rehearsal rehearsalRequest rehearsalAgent
      cancelledWorld).1.toOption.map Report.stop = some .cancelled := by decide +kernel
  obtain ⟨r, p, hrun, hstop⟩ := exists_report h
  exact ⟨rehearsal_neverCleared, r, p, hrun, hstop,
    cancellation_heeded rehearsal_neverCleared hrun⟩

end Anneal.Repair
