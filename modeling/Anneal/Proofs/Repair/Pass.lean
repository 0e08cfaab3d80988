import Anneal.Proofs.Journal
import Anneal.Proofs.Repair.Check

/-! What one pass of the repair loop does. Each way through a pass is a case of its own, with the
worlds on the way; the rest of the development does not open the functions. -/

namespace Anneal.Repair

open Disk

variable {σ : Type} {s : Setup σ} {q : Request}

def Reads (w w' : World σ) : Prop :=
  ∃ d, Changes [] w.disk d ∧ w' = { w with disk := d }

def Journaled (s : Setup σ) (w w' : World σ) : Prop :=
  ∃ (d : Disk) (paths : List String), (∀ path ∈ paths, ∃ j, s.journal = some j ∧ j.Keeps path) ∧
    Changes (paths.map (placeOf w.disk.home)) w.disk d ∧ w' = { w with disk := d }

inductive Unjournaled (s : Setup σ) (f : Failure) (w : World σ) : Prop
  | event {j : Journal} {message : String} {w₀ : World σ} (hj : s.journal = some j)
      (h : j.event message w₀ = (.error f, w))
  | attempt {j : Journal} {a : Attempt} {w₀ : World σ} (hj : s.journal = some j)
      (h : j.writeAttempt a w₀ = (.error f, w))
  | report {j : Journal} {r : Report} {w₀ : World σ} (hj : s.journal = some j)
      (h : j.writeReport r w₀ = (.error f, w))

/-- A source that a prompt shows could not be read, which left the world `w`. -/
inductive Unread (q : Request) (f : Failure) (w : World σ) : Prop
  | candidate {e : OsError} {w₀ : World σ}
      (h : (w₀.onDisk fun d => d.readText q.candidatePath) = (.error e, w))
      (hf : f = .ofOs s!"read candidate {q.candidatePath}" e)
  | reference {e : OsError} {w₀ : World σ}
      (h : (w₀.onDisk fun d => d.readText q.referencePath) = (.error e, w))
      (hf : f = .ofOs s!"read reference {q.referencePath}" e)

inductive Took {α : Type} (s : Setup σ) (op : Journal → World σ → Except Failure α × World σ)
    (w : World σ) : World σ → Prop
  | absent (hj : s.journal = none) : Took s op w w
  | entered {j : Journal} {a : α} {w' : World σ} (hj : s.journal = some j)
      (h : op j w = (.ok a, w')) : Took s op w w'

/-- The prompt for a failure shows the candidate on the disk, and the reference where the outputs
differ. -/
inductive Prompted (q : Request) (d : Disk) (diagnostic : String) : FailureClass → String → Prop
  | plain {c : FailureClass} {candidate : String} (hc : c ≠ .outputMismatch)
      (hp : d.readTextNow q.candidatePath = .ok candidate) :
      Prompted q d diagnostic c
        (Prompts.repair ⟨c, ⟨q.candidatePath, candidate⟩, diagnostic, none, q.instruction⟩)
  | withReference {candidate reference : String}
      (hp : d.readTextNow q.candidatePath = .ok candidate)
      (hr : d.readTextNow q.referencePath = .ok reference) :
      Prompted q d diagnostic .outputMismatch
        (Prompts.repair ⟨.outputMismatch, ⟨q.candidatePath, candidate⟩, diagnostic,
          some ⟨q.referencePath, reference⟩, q.instruction⟩)

def Progress.verified (p : Progress σ) (es : List (Entry σ)) (known : Option String)
    (w : World σ) : Progress σ :=
  { p with
    verifications := p.verifications + 1
    entries := p.entries ++ es
    referenceOutput := known
    world := w }

def Progress.asked (p : Progress σ) (w : World σ) (text : String)
    (r : Except ClientError String) (agent : Agent) (w' : World σ) : Progress σ :=
  { p with agent, entries := p.entries ++ [⟨.chat text r, w, w'⟩], world := w' }

def Progress.replaced (p : Progress σ) (text : String) (agent : Agent) (w : World σ) :
    Progress σ :=
  { p with agent, entries := p.entries ++ [⟨.write text, p.world, w⟩], world := w }

/-- The entries of a verification, what it comes to, the output of the reference that is known
then, and the world that it leaves. A repair that was cancelled is not verified any more. -/
structure Verifies (s : Setup σ) (q : Request) (p : Progress σ) (es : List (Entry σ))
    (r : Except Failure Verdict) (known : Option String) (w : World σ) : Prop where
  check : Check s q p.referenceOutput (callsOf es) r known
  linked : Linked s q p.world es w
  wanted : p.world.cancelled = false

structure Asks (s : Setup σ) (q : Request) (c : FailureClass) (outcome : Outcome)
    (p : Progress σ) (w : World σ) (text : String) (r : Except ClientError String)
    (agent : Agent) (w' : World σ) : Prop where
  reads : Reads p.world w
  prompted : Prompted q w.disk outcome.diagnosticText c text
  chat : p.agent.chat s.client text s.settings.options w = (r, agent, w')
  still : w.disk.nodes = p.world.disk.nodes

/-- What follows a failure that was found in the world `start`. -/
inductive Fixes (s : Setup σ) (q : Request) (c : FailureClass) (outcome : Outcome)
    (start : World σ) (p : Progress σ) : Except Failure Pass → Progress σ → Prop
  | unread {e : Failure} {w : World σ} (hw : Reads p.world w) (hf : Unread q e w) :
      Fixes s q c outcome start p (.error e) { p with world := w }
  | refused {w w' : World σ} {text : String} {e : ClientError} {agent : Agent}
      (ha : Asks s q c outcome p w text (.error e) agent w') :
      Fixes s q c outcome start p (.ok (.stopped (stopOfError e)))
        (p.asked w text (.error e) agent w')
  | unusable {w w' : World σ} {text reply : String} {e : Reply.ExtractionError} {agent : Agent}
      (ha : Asks s q c outcome p w text (.ok reply) agent w')
      (hx : Reply.extract reply .repair = .error e) :
      Fixes s q c outcome start p (.ok (.stopped ⟨.responseParse, e.message⟩))
        (p.asked w text (.ok reply) agent w')
  | unwritten {w w' : World σ} {text reply : String} {x : Reply.Extracted} {agent : Agent}
      {e : OsError} {f : Failure} {d : Disk}
      (ha : Asks s q c outcome p w text (.ok reply) agent w')
      (hx : Reply.extract reply .repair = .ok x)
      (hd : Artifact.writeAtomic w'.disk q.candidatePath (Artifact.sourceText x.code) =
        (.error e, d))
      (hf : f = .ofOs s!"write candidate {q.candidatePath}" e) :
      Fixes s q c outcome start p (.error f)
        { p.asked w text (.ok reply) agent w' with world := { w' with disk := d } }
  | unrecorded {w w' w'' w₃ : World σ} {text reply : String} {x : Reply.Extracted}
      {agent agent' : Agent} {f : Failure}
      (ha : Asks s q c outcome p w text (.ok reply) agent w')
      (hx : Reply.extract reply .repair = .ok x)
      (hd : (w'.onDisk fun d =>
        Artifact.writeAtomic d q.candidatePath (Artifact.sourceText x.code)) = (.ok (), w''))
      (hj : Journaled s w'' w₃) (hf : Unjournaled s f w₃)
      (hn : agent' = agent.annotate (attemptNote (p.attempts.length + 1) x.code)) :
      Fixes s q c outcome start p (.error f)
        { (p.asked w text (.ok reply) agent w').replaced (Artifact.sourceText x.code) agent' w''
          with world := w₃ }
  | repaired {w w' w'' w₃ : World σ} {text reply : String} {x : Reply.Extracted}
      {agent agent' : Agent} {ms : Nat}
      (ha : Asks s q c outcome p w text (.ok reply) agent w')
      (hx : Reply.extract reply .repair = .ok x)
      (hd : (w'.onDisk fun d =>
        Artifact.writeAtomic d q.candidatePath (Artifact.sourceText x.code)) = (.ok (), w''))
      (hj : Journaled s w'' w₃)
      (hn : agent' = agent.annotate (attemptNote (p.attempts.length + 1) x.code))
      (ht : Took s (fun j => j.writeAttempt
        ⟨p.attempts.length + 1, start.now, ms, c, outcome, text, x.code⟩) w'' w₃)
      (hms : ms = w''.clock - start.clock) :
      Fixes s q c outcome start p (.ok .repaired)
        { (p.asked w text (.ok reply) agent w').replaced (Artifact.sourceText x.code) agent' w''
          with
          world := w₃
          attempts := p.attempts ++
            [⟨p.attempts.length + 1, start.now, ms, c, outcome, text, x.code⟩] }

inductive Passes (s : Setup σ) (q : Request) (p : Progress σ) :
    Except Failure Pass → Progress σ → Prop
  | cancelled (hc : p.world.cancelled = true) : Passes s q p (.ok (.stopped (cancelledStop p))) p
  | unverified {es : List (Entry σ)} {e : Failure} {known : Option String} {w : World σ}
      (hv : Verifies s q p es (.error e) known w) :
      Passes s q p (.error e) (p.verified es known w)
  | unlogged {es : List (Entry σ)} {verdict : Verdict} {known d : Option String}
      {w w' : World σ} {f : Failure} (hv : Verifies s q p es (.ok verdict) known w)
      (hj : Journaled s w w') (hf : Unjournaled s f w') :
      Passes s q p (.error f) { p.verified es known w' with lastDiagnostic := d }
  | converged {es : List (Entry σ)} {output : String} {known : Option String} {w w' : World σ}
      (hv : Verifies s q p es (.ok (.converged output)) known w) (hj : Journaled s w w')
      (ht : Took s (fun j => j.event s!"verification {p.verifications + 1}: converged") w w') :
      Passes s q p (.ok (.stopped ⟨.converged, output⟩)) (p.verified es known w')
  | broken {es : List (Entry σ)} {diagnostic : String} {known : Option String} {w w' : World σ}
      (hv : Verifies s q p es (.ok (.referenceBroken diagnostic)) known w)
      (hj : Journaled s w w')
      (ht : Took s (fun j => j.event s!"verification {p.verifications + 1}: {diagnostic}") w w') :
      Passes s q p (.ok (.stopped ⟨.referenceBroken, diagnostic⟩))
        { p.verified es known w' with lastDiagnostic := some diagnostic }
  | interrupted {es : List (Entry σ)} {c : FailureClass} {outcome : Outcome}
      {known : Option String} {w w' : World σ}
      (hv : Verifies s q p es (.ok (.failed c outcome)) known w) (hj : Journaled s w w')
      (hc : w'.cancelled = true)
      (ht : Took s (fun j => j.event
        s!"verification {p.verifications + 1}: {c.tag}\n{outcome.diagnosticText}") w w') :
      Passes s q p (.ok (.stopped (cancelledStop p)))
        { p.verified es known w' with lastDiagnostic := some outcome.diagnosticText }
  | fixed {es : List (Entry σ)} {c : FailureClass} {outcome : Outcome} {known : Option String}
      {w w' : World σ} {r : Except Failure Pass} {p' : Progress σ}
      (hv : Verifies s q p es (.ok (.failed c outcome)) known w) (hj : Journaled s w w')
      (hf : Fixes s q c outcome p.world
        { p.verified es known w' with lastDiagnostic := some outcome.diagnosticText } r p')
      (hc : w'.cancelled = false)
      (ht : Took s (fun j => j.event
        s!"verification {p.verifications + 1}: {c.tag}\n{outcome.diagnosticText}") w w') :
      Passes s q p r p'

theorem Journaled.refl (w : World σ) : Journaled s w w :=
  ⟨w.disk, [], by simp, .refl w.disk, rfl⟩

theorem Journaled.trans {w w' w'' : World σ} (h : Journaled s w w') (h' : Journaled s w' w'') :
    Journaled s w w'' := by
  obtain ⟨d, paths, hk, hd, rfl⟩ := h
  obtain ⟨d', paths', hk', hd', rfl⟩ := h'
  refine ⟨d', paths ++ paths', ?_, ?_, rfl⟩
  · intro path hp
    exact (List.mem_append.1 hp).elim (hk path) (hk' path)
  · rw [List.map_append]
    rw [hd.home] at hd'
    exact (hd.mono (List.subset_append_left _ _)).trans (hd'.mono (List.subset_append_right _ _))

theorem journaled_withJournal {α : Type}
    {op : Journal → World σ → Except Failure α × World σ}
    (hop : ∀ j w, ∃ path d, j.Keeps path ∧ Changes [placeOf w.disk.home path] w.disk d ∧
      (op j w).2 = { w with disk := d })
    {p p' : Progress σ} {r : Except Failure Unit} (h : withJournal s op p = (r, p')) :
    ∃ w, Journaled s p.world w ∧ p' = { p with world := w } := by
  unfold withJournal at h
  split at h
  · cases h
    exact ⟨p.world, .refl p.world, rfl⟩
  next j hj =>
    cases h
    obtain ⟨path, d, hk, hd, hw⟩ := hop j p.world
    refine ⟨_, ⟨d, [path], ?_, hd, hw⟩, rfl⟩
    intro other ho
    exact ⟨j, hj, List.mem_singleton.1 ho ▸ hk⟩

theorem withJournal_error {α : Type} {op : Journal → World σ → Except Failure α × World σ}
    {p p' : Progress σ} {f : Failure} (h : withJournal s op p = (.error f, p')) :
    ∃ j, s.journal = some j ∧ op j p.world = (.error f, p'.world) := by
  unfold withJournal at h
  split at h
  · cases h
  next j hj =>
    dsimp only at h
    cases hop : op j p.world with
    | mk r w =>
      rw [hop] at h
      cases r with
      | error e =>
        cases h
        exact ⟨j, hj, hop⟩
      | ok a => cases h

theorem withJournal_ok {α : Type} {op : Journal → World σ → Except Failure α × World σ}
    {p p' : Progress σ} (h : withJournal s op p = (.ok (), p')) : Took s op p.world p'.world := by
  unfold withJournal at h
  split at h
  next hj =>
    cases h
    exact .absent hj
  next j hj =>
    dsimp only at h
    cases hop : op j p.world with
    | mk r w =>
      rw [hop] at h
      cases r with
      | error e => cases h
      | ok a =>
        cases h
        exact .entered hj hop

theorem log_error {message : String} {p p' : Progress σ} {f : Failure}
    (h : log s message p = (.error f, p')) : Unjournaled s f p'.world := by
  obtain ⟨j, hj, hop⟩ := withJournal_error h
  exact .event hj hop

theorem log_spec {message : String} {p p' : Progress σ} {r : Except Failure Unit}
    (h : log s message p = (r, p')) : ∃ w, Journaled s p.world w ∧ p' = { p with world := w } :=
  journaled_withJournal (fun j w => Journal.event_writes j message w) h

theorem writeAttempt_spec {a : Attempt} {p p' : Progress σ} {r : Except Failure Unit}
    (h : withJournal s (fun j => j.writeAttempt a) p = (r, p')) :
    ∃ w, Journaled s p.world w ∧ p' = { p with world := w } := by
  refine journaled_withJournal (fun j w => ?_) h
  obtain ⟨d, hd, hw⟩ := Journal.writeRecord_writes (j.attemptPath a.number) a.toJson w
  exact ⟨_, d, .attempt a.number, hd, hw⟩

theorem writeReport_spec {a : Report} {p p' : Progress σ} {r : Except Failure Unit}
    (h : withJournal s (fun j => j.writeReport a) p = (r, p')) :
    ∃ w, Journaled s p.world w ∧ p' = { p with world := w } := by
  refine journaled_withJournal (fun j w => ?_) h
  obtain ⟨d, hd, hw⟩ := Journal.writeRecord_writes j.reportPath a.toJson w
  exact ⟨_, d, .report, hd, hw⟩

theorem onDisk_eq {ε α : Type} {op : Disk → Except ε α × Disk} {w w' : World σ}
    {r : Except ε α} (h : w.onDisk op = (r, w')) :
    ∃ d, op w.disk = (r, d) ∧ w' = { w with disk := d } := by
  unfold World.onDisk at h
  cases hop : op w.disk with
  | mk r' d =>
    rw [hop] at h
    cases h
    exact ⟨d, rfl, rfl⟩

theorem Reads.trans {w w' w'' : World σ} (h : Reads w w') (h' : Reads w' w'') : Reads w w'' := by
  obtain ⟨d, hd, rfl⟩ := h
  obtain ⟨d', hd', rfl⟩ := h'
  exact ⟨d', hd.trans hd', rfl⟩

theorem readSource_spec {what path : String} {p p' : Progress σ}
    {r : Except Failure Prompts.Source} (h : readSource what path p = (r, p')) :
    ∃ w, Reads p.world w ∧ p' = { p with world := w } ∧
      ∀ source, r = .ok source → source.path = path ∧ w.disk.readTextNow path = .ok source.text := by
  unfold readSource at h
  split at h
  next text w hr =>
    cases h
    obtain ⟨d, hd, rfl⟩ := onDisk_eq hr
    obtain ⟨hd, ht⟩ : Changes [] p.world.disk d ∧ _ := readText_spec hd
    refine ⟨_, ⟨d, hd, rfl⟩, rfl, ?_⟩
    rintro _ ⟨⟩
    exact ⟨rfl, ht text rfl⟩
  next e w hr =>
    cases h
    obtain ⟨d, hd, rfl⟩ := onDisk_eq hr
    exact ⟨_, ⟨d, (readText_spec hd).1, rfl⟩, rfl, fun _ h => by cases h⟩

theorem prompt_spec {c : FailureClass} {outcome : Outcome} {p p' : Progress σ}
    {r : Except Failure String} (h : prompt q c outcome p = (r, p')) :
    ∃ w, Reads p.world w ∧ p' = { p with world := w } ∧
      ∀ text, r = .ok text → Prompted q w.disk outcome.diagnosticText c text := by
  unfold prompt at h
  split at h
  next e m hr =>
    cases h
    obtain ⟨w, hw, rfl, -⟩ := readSource_spec hr
    exact ⟨w, hw, rfl, fun _ h => by cases h⟩
  next candidate m hr =>
    obtain ⟨w, hw, rfl, hc⟩ := readSource_spec hr
    obtain ⟨hpath, htext⟩ := hc candidate rfl
    obtain ⟨path, text⟩ := candidate
    subst hpath
    unfold shownReference at h
    cases c with
    | outputMismatch =>
      dsimp only at h
      cases hr' : readSource "reference" q.referencePath { p with world := w } with
      | mk r' m =>
        obtain ⟨w', hw', rfl, hc'⟩ := readSource_spec hr'
        rw [hr'] at h
        cases r' with
        | error e =>
          cases h
          exact ⟨w', hw.trans hw', rfl, fun _ h => by cases h⟩
        | ok reference =>
          cases h
          obtain ⟨hpath', htext'⟩ := hc' reference rfl
          obtain ⟨path', text'⟩ := reference
          subst hpath'
          refine ⟨w', hw.trans hw', rfl, ?_⟩
          rintro _ ⟨⟩
          obtain ⟨d, hd, rfl⟩ := hw'
          exact .withReference (hd.readTextNow htext List.not_mem_nil) htext'
    | _ =>
      cases h
      refine ⟨w, hw, rfl, ?_⟩
      rintro _ ⟨⟩
      exact .plain (by simp) htext

theorem readSource_still {what path : String} {p p' : Progress σ}
    {r : Except Failure Prompts.Source} (h : readSource what path p = (r, p')) :
    p'.world.disk.nodes = p.world.disk.nodes := by
  unfold readSource at h
  split at h
  · next hr =>
    cases h
    obtain ⟨d, hd, rfl⟩ := onDisk_eq hr
    exact readText_nodes hd
  · next hr =>
    cases h
    obtain ⟨d, hd, rfl⟩ := onDisk_eq hr
    exact readText_nodes hd

theorem prompt_still {c : FailureClass} {outcome : Outcome} {p p' : Progress σ}
    {r : Except Failure String} (h : prompt q c outcome p = (r, p')) :
    p'.world.disk.nodes = p.world.disk.nodes := by
  unfold prompt at h
  split at h
  next hr =>
    cases h
    exact readSource_still hr
  next m hr =>
    have hm := readSource_still hr
    unfold shownReference at h
    cases c with
    | outputMismatch =>
      dsimp only at h
      cases hr' : readSource "reference" q.referencePath m with
      | mk r' m' =>
        have hm' := readSource_still hr'
        rw [hr'] at h
        cases r' with
        | error e =>
          cases h
          exact hm'.trans hm
        | ok reference =>
          cases h
          exact hm'.trans hm
    | _ =>
      cases h
      exact hm

theorem readSource_error {what path : String} {p p' : Progress σ} {f : Failure}
    (h : readSource what path p = (.error f, p')) :
    ∃ e, (p.world.onDisk fun d => d.readText path) = (.error e, p'.world) ∧
      f = .ofOs s!"read {what} {path}" e := by
  unfold readSource at h
  split at h
  · cases h
  next e w hr =>
    cases h
    exact ⟨e, hr, rfl⟩

theorem prompt_error {c : FailureClass} {outcome : Outcome} {p p' : Progress σ} {f : Failure}
    (h : prompt q c outcome p = (.error f, p')) : Unread q f p'.world := by
  unfold prompt at h
  split at h
  next hr =>
    cases h
    obtain ⟨e, hd, hf⟩ := readSource_error hr
    exact .candidate hd hf
  next candidate m hr =>
    unfold shownReference at h
    cases c with
    | outputMismatch =>
      dsimp only at h
      cases hr' : readSource "reference" q.referencePath m with
      | mk r' m' =>
        rw [hr'] at h
        cases r' with
        | error e =>
          cases h
          obtain ⟨e, hd, hf⟩ := readSource_error hr'
          exact .reference hd hf
        | ok reference => cases h
    | _ => cases h

theorem replace_spec {code : String} {p p' : Progress σ} {r : Except Failure Unit}
    (h : replace q code p = (r, p')) :
    (∃ w, r = .ok () ∧ (p.world.onDisk fun d =>
        Artifact.writeAtomic d q.candidatePath (Artifact.sourceText code)) = (.ok (), w) ∧
        p' = p.enter (.write (Artifact.sourceText code)) w) ∨
      ∃ e d, r = .error (.ofOs s!"write candidate {q.candidatePath}" e) ∧
        Artifact.writeAtomic p.world.disk q.candidatePath (Artifact.sourceText code) =
          (.error e, d) ∧ p' = { p with world := { p.world with disk := d } } := by
  unfold replace at h
  dsimp only at h
  split at h
  next w hw =>
    cases h
    exact .inl ⟨w, rfl, hw, rfl⟩
  next e w hw =>
    cases h
    obtain ⟨d, hd, rfl⟩ := onDisk_eq hw
    exact .inr ⟨e, d, rfl, hd, rfl⟩

theorem fix_spec {c : FailureClass} {outcome : Outcome} {start : World σ} {p p' : Progress σ}
    {r : Except Failure Pass} (h : fix s q c outcome start p = (r, p')) :
    Fixes s q c outcome start p r p' := by
  unfold fix at h
  split at h
  next e m hm =>
    cases h
    have hf := prompt_error hm
    obtain ⟨w, hw, rfl, -⟩ := prompt_spec hm
    exact .unread hw hf
  next text m hm =>
    have hstill := prompt_still hm
    obtain ⟨w, hw, rfl, ht⟩ := prompt_spec hm
    have hprompted := ht text rfl
    unfold ask at h
    dsimp only at h
    cases hc : p.agent.chat s.client text s.settings.options w with
    | mk answer aw =>
      obtain ⟨agent, w'⟩ := aw
      have ha : Asks s q c outcome p w text answer agent w' := ⟨hw, hprompted, hc, hstill⟩
      rw [hc] at h
      cases answer with
      | error e =>
        cases h
        exact .refused ha
      | ok reply =>
        dsimp only at h
        split at h
        next e hx =>
          cases h
          exact .unusable ha hx
        next x hx =>
          unfold apply at h
          dsimp only at h
          split at h
          next f m hm =>
            cases h
            obtain ⟨_, hr, -⟩ | ⟨e, d, hf, hd, rfl⟩ := replace_spec hm
            · cases hr
            · exact .unwritten ha hx hd (Except.error.inj hf)
          next m hm =>
            obtain ⟨w'', -, hd, rfl⟩ | ⟨_, _, hr, -⟩ := replace_spec hm
            · split at h
              next f m hm =>
                cases h
                obtain ⟨j, hjournal, hop⟩ := withJournal_error hm
                obtain ⟨w₃, hj, rfl⟩ := writeAttempt_spec hm
                exact .unrecorded ha hx hd hj (.attempt hjournal hop) rfl
              next m hm =>
                cases h
                have ht := withJournal_ok hm
                obtain ⟨w₃, hj, rfl⟩ := writeAttempt_spec hm
                exact .repaired ha hx hd hj rfl ht rfl
            · cases hr

theorem verify_verifies {p p' : Progress σ} {r : Except Failure Verdict}
    (hc : p.world.cancelled = false)
    (h : verify s q { p with verifications := p.verifications + 1 } = (r, p')) :
    ∃ es known w, Verifies s q p es r known w ∧ p' = p.verified es known w := by
  obtain ⟨_, known, hcheck, es, w, rfl, hl, rfl⟩ := verify_spec h
  exact ⟨es, known, w, ⟨hcheck, hl, hc⟩, rfl⟩

theorem settle_spec {es : List (Entry σ)} {verdict : Verdict} {known : Option String}
    {w : World σ} {p p' : Progress σ} {r : Except Failure Pass}
    (hv : Verifies s q p es (.ok verdict) known w)
    (h : settle s q p.world verdict (p.verified es known w) = (r, p')) : Passes s q p r p' := by
  unfold settle at h
  cases verdict with
  | converged output =>
    dsimp only at h
    split at h
    next hl =>
      cases h
      have hf := log_error hl
      obtain ⟨w', hj, rfl⟩ := log_spec hl
      exact .unlogged hv hj hf
    next hl =>
      cases h
      have ht := withJournal_ok hl
      obtain ⟨w', hj, rfl⟩ := log_spec hl
      exact .converged hv hj ht
  | referenceBroken diagnostic =>
    dsimp only at h
    split at h
    next hl =>
      cases h
      have hf := log_error hl
      obtain ⟨w', hj, rfl⟩ := log_spec hl
      exact .unlogged hv hj hf
    next hl =>
      cases h
      have ht := withJournal_ok hl
      obtain ⟨w', hj, rfl⟩ := log_spec hl
      exact .broken hv hj ht
  | failed c outcome =>
    dsimp only at h
    split at h
    next hl =>
      cases h
      have hf := log_error hl
      obtain ⟨w', hj, rfl⟩ := log_spec hl
      exact .unlogged hv hj hf
    next hl =>
      have ht := withJournal_ok hl
      obtain ⟨w', hj, rfl⟩ := log_spec hl
      split at h
      next hc =>
        cases h
        exact .interrupted hv hj hc ht
      next hc => exact .fixed hv hj (fix_spec h) (Bool.eq_false_iff.2 hc) ht

theorem pass_spec {p p' : Progress σ} {r : Except Failure Pass} (h : pass s q p = (r, p')) :
    Passes s q p r p' := by
  unfold pass at h
  split at h
  next hc =>
    cases h
    exact .cancelled hc
  next hc =>
    have hc : p.world.cancelled = false := Bool.eq_false_iff.2 hc
    dsimp only at h
    split at h
    next e m hm =>
      cases h
      obtain ⟨es, known, w, hv, rfl⟩ := verify_verifies hc hm
      exact .unverified hv
    next verdict m hm =>
      obtain ⟨es, known, w, hv, rfl⟩ := verify_verifies hc hm
      exact settle_spec hv h

end Anneal.Repair
