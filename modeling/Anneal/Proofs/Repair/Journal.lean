import Anneal.Proofs.Journal.Kept
import Anneal.Proofs.Repair.Convergence
import Anneal.Proofs.Verification

/-! The journal of a repair tells of it: its directory holds the log, one file for each attempt and
the report, and these are read back as what they tell of. All of it is followed at once, since a
pass enters its verification into the log and its attempt into a file at different times. -/

namespace Anneal.Repair

open Disk Journal

variable {σ : Type} {s : Setup σ} {q : Request} {j : Journal} {d₀ : Disk} {dir : Place}
  {w w' : World σ} {vs : List (Verification σ)} {attempts : List Attempt}

/-- The clock shows a year of the calendar. -/
def Dated (w : World σ) : Prop := Timestamp.isCalendarYear w.now.year = true

structure Entry.Aloof (dir : Place) (e : Entry σ) : Prop where
  apart : e.call.isWrite = false → Same dir e.before.disk e.after.disk
  dated : Dated e.after

/-- What the log notes of a verification. -/
inductive Logged (s : Setup σ) (v : Verification σ) : String → Prop
  | converged {output : String} (h : Agrees s v output) : Logged s v "converged"
  | broken {d : String} (h : Breaks v d) : Logged s v d
  | failed {c : FailureClass} {d : String} (h : Fails s v c d) : Logged s v s!"{c.tag}\n{d}"

def numbered (notes : List String) : List String :=
  notes.mapIdx fun i note => s!"verification {i + 1}: {note}"

theorem numbered_concat (notes : List String) (note : String) :
    numbered (notes ++ [note]) =
      numbered notes ++ [s!"verification {notes.length + 1}: {note}"] := by
  simp [numbered]

theorem length_numbered (notes : List String) : (numbered notes).length = notes.length :=
  List.length_mapIdx

theorem Took.entry {α : Type} {op : Journal → World σ → Except Failure α × World σ}
    (h : Took s op w w') (hj : s.journal = some j) : ∃ a, op j w = (.ok a, w') := by
  cases h with
  | absent hn => cases hn.symm.trans hj
  | entered hj' h =>
    cases hj'.symm.trans hj
    exact ⟨_, h⟩

structure Told (s : Setup σ) (q : Request) (j : Journal) (d₀ : Disk) (vs : List (Verification σ))
    (attempts : List Attempt) (w : World σ) : Prop where
  kept : ∃ events notes, events.map Prod.snd = startMessage s q :: numbered notes ∧
    List.Forall₂ (Logged s) vs notes ∧ Kept j d₀ (logText events) attempts w.disk
  dated : Dated w
  fits : ∀ a ∈ attempts, a.startedAt.Valid ∧ a.durationMs < Word.bound 64

theorem Told.home (h : Told s q j d₀ vs attempts w) : w.disk.home = d₀.home := by
  obtain ⟨_, _, -, -, hk⟩ := h.kept
  exact hk.home

theorem Told.same (h : Told s q j d₀ vs attempts w)
    (hs : Same (placeOf d₀.home j.dir) w.disk w'.disk) (hd : Dated w') :
    Told s q j d₀ vs attempts w' where
  kept := by
    obtain ⟨events, notes, hm, hn, hk⟩ := h.kept
    exact ⟨events, notes, hm, hn, hk.same hs⟩
  dated := hd
  fits := h.fits

theorem told_start (hj : s.journal = some j) (hd : Dated w)
    (ht : Took s (fun j => j.event (startMessage s q)) w w') : Told s q j w.disk [] [] w' where
  kept := by
    obtain ⟨u, h⟩ := ht.entry hj
    obtain ⟨d, hp, rfl⟩ := event_ok h
    refine ⟨[(w.now, startMessage s q)], [], rfl, .nil, kept_of_puts ?_⟩
    rwa [logText_singleton]
  dated := by
    obtain ⟨u, h⟩ := ht.entry hj
    obtain ⟨d, hp, rfl⟩ := event_ok h
    exact hd
  fits := by simp

theorem Told.logged {v : Verification σ} {message note : String}
    (h : Told s q j d₀ vs attempts w) (hj : s.journal = some j) (hv : Logged s v note)
    (hm : message = s!"verification {vs.length + 1}: {note}")
    (ht : Took s (fun j => j.event message) w w') : Told s q j d₀ (vs ++ [v]) attempts w' := by
  obtain ⟨u, he⟩ := ht.entry hj
  obtain ⟨d, hp, rfl⟩ := event_ok he
  refine ⟨?_, h.dated, h.fits⟩
  obtain ⟨events, notes, hevents, hnotes, hk⟩ := h.kept
  refine ⟨events ++ [(w.now, message)], notes ++ [note], ?_, ?_, ?_⟩
  · rw [List.map_append, hevents, numbered_concat, ← hnotes.length_eq, ← hm]
    rfl
  · exact List.rel_append hnotes (.cons hv .nil)
  · rw [logText_append, logText_singleton]
    exact hk.entered hp

theorem Told.attempted {a : Attempt} (h : Told s q j d₀ vs attempts w) (hj : s.journal = some j)
    (hfresh : ∀ b ∈ attempts, b.number ≠ a.number)
    (hfits : a.startedAt.Valid ∧ a.durationMs < Word.bound 64)
    (ht : Took s (fun j => j.writeAttempt a) w w') :
    Told s q j d₀ vs (attempts ++ [a]) w' := by
  obtain ⟨path, he⟩ := ht.entry hj
  obtain ⟨d, hp, rfl⟩ := writeRecord_ok he
  refine ⟨?_, h.dated, ?_⟩
  · obtain ⟨events, notes, hevents, hnotes, hk⟩ := h.kept
    exact ⟨events, notes, hevents, hnotes, hk.recorded hfresh hp⟩
  · rw [List.forall_mem_append, List.forall_mem_singleton]
    exact ⟨h.fits, hfits⟩

theorem Linked.aloof {es : List (Entry σ)} (h : Linked s q w es w')
    (hc : ∀ c ∈ callsOf es, c.isApart = false) (ha : ∀ e ∈ es, e.Aloof dir) (hw : Dated w) :
    Same dir w.disk w'.disk ∧ Dated w' := by
  induction es generalizing w with
  | nil => exact (show w = w' from h) ▸ ⟨.refl _, hw⟩
  | cons e es ih =>
    obtain ⟨rfl, -, hes⟩ := h
    obtain ⟨he, ha⟩ := List.forall_mem_cons.1 ha
    obtain ⟨hcall, hc⟩ := List.forall_mem_cons.1 hc
    have hwrite : e.call.isWrite = false := by
      cases hk : e.call <;> simp_all [Call.isApart, Call.isWrite]
    obtain ⟨hs, hd⟩ := ih hes hc ha he.dated
    exact ⟨(he.apart hwrite).trans hs, hd⟩

def verdictNote : Verdict → String
  | .converged _ => "converged"
  | .referenceBroken diagnostic => diagnostic
  | .failed c outcome => s!"{c.tag}\n{outcome.diagnosticText}"

theorem Judged.logged {v : Verification σ} {verdict : Verdict} (h : Judged s v verdict)
    (ho : ∀ c outcome, verdict = .failed c outcome → ∃ output d, outcome = .fail c.stage output d) :
    Logged s v (verdictNote verdict) := by
  cases verdict with
  | converged output => exact .converged ((h.agrees output).2 rfl)
  | referenceBroken d => exact .broken ((h.breaks d).2 rfl)
  | failed c outcome =>
    obtain ⟨output, d, rfl⟩ := ho c outcome rfl
    exact .failed h.failed

theorem Told.verdict {p : Progress σ} {es more : List (Entry σ)} {verdict : Verdict}
    {known : Option String} {message : String} (hsound : Sound s q p)
    (h : Told s q j d₀ (verifications p.entries) p.attempts p.world) (hj : s.journal = some j)
    (hv : Verifies s q p es (.ok verdict) known w) (hm : ∀ e ∈ more, e.call.isApart = true)
    (ha : ∀ e ∈ es, e.Aloof (placeOf d₀.home j.dir))
    (hmessage : message = s!"verification {p.verifications + 1}: {verdictNote verdict}")
    (ht : Took s (fun j => j.event message) w w') :
    Told s q j d₀ (verifications (p.entries ++ (es ++ more))) p.attempts w' := by
  obtain ⟨hsame, hdated⟩ := hv.linked.aloof hv.check.apart ha h.dated
  have hjudged := hv.judged hsound.remembers hm
  have hlogged : Logged s ⟨p.entries, es ++ more⟩ (verdictNote verdict) := by
    apply hjudged.logged
    rintro c outcome rfl
    exact hv.check.failed
  have hcount : p.verifications = (verifications p.entries).length :=
    hsound.counted.trans hsound.verified.symm
  rw [hv.verifications hm]
  exact (h.same hsame hdated).logged hj hlogged (hcount ▸ hmessage) ht

theorem same_of_nodes {d d' : Disk} (hh : d'.home = d.home) (hn : d'.nodes = d.nodes) :
    Same dir d d' where
  home := hh
  node p _ := by rw [node?, node?, hn]

theorem Asks.same {c : FailureClass} {outcome : Outcome} {p : Progress σ} {text : String}
    {r : Except ClientError String} {agent : Agent} (h : Asks s q c outcome p w text r agent w') :
    Same dir p.world.disk w.disk ∧ (Dated p.world → Dated w) := by
  have hstill := h.still
  obtain ⟨d, hd, rfl⟩ := h.reads
  exact ⟨same_of_nodes hd.home hstill, id⟩

theorem Prompted.reached {d : Disk} {diagnostic text : String} {c : FailureClass}
    (h : Prompted q d diagnostic c text) :
    ∃ t content x, d.locate q.candidatePath = .ok t ∧ d.node? t.place = some (.file content x) := by
  have hread {source : String} (hp : d.readTextNow q.candidatePath = .ok source) :
      ∃ t content x, d.locate q.candidatePath = .ok t ∧
        d.node? t.place = some (.file content x) := by
    obtain ⟨content, hc, -⟩ := readTextNow_eq_ok.1 hp
    obtain ⟨t, x, hl, -, hn⟩ := holds_iff.1 hc
    exact ⟨t, content, x, hl, hn⟩
  cases h with
  | plain _ hp => exact hread hp
  | withReference hp _ => exact hread hp

def Elsewhere (q : Request) (j : Journal) (d : Disk) : Prop :=
  Below (placeOf d.home j.dir) (placeOf d.home q.candidatePath) →
    placeOf d.home q.candidatePath ≠ placeOf d.home j.logPath ∧
      d.node? (placeOf d.home q.candidatePath) = none

theorem Told.not_below {diagnostic text : String} {c : FailureClass}
    (h : Told s q j d₀ vs [] w) (hc : Elsewhere q j d₀) (hp : Prompted q w.disk diagnostic c text) :
    ¬ Below (placeOf d₀.home j.dir) (placeOf d₀.home q.candidatePath) := by
  intro hb
  obtain ⟨hlog, hnone⟩ := hc hb
  obtain ⟨t, content, x, hl, hn⟩ := hp.reached
  obtain ⟨_, _, -, -, hk⟩ := h.kept
  rw [locate_place hl, hk.home, hk.others _ hb hlog (by simp), hnone] at hn
  cases hn

theorem Told.replaced {d : Disk} {diagnostic prompt text : String} {c : FailureClass}
    (h : Told s q j d₀ vs attempts w) (hs : Same (placeOf d₀.home j.dir) d w.disk)
    (hp : Prompted q d diagnostic c prompt)
    (ho : ¬ Below (placeOf d₀.home j.dir) (placeOf d₀.home q.candidatePath))
    (hd : (w.onDisk fun d => Artifact.writeAtomic d q.candidatePath text) = (.ok (), w')) :
    Told s q j d₀ vs attempts w' := by
  obtain ⟨t, _, _, hl, -⟩ := hp.reached
  obtain ⟨d', hdisk, rfl⟩ := onDisk_eq hd
  exact h.same (Artifact.writeAtomic_same hs hl (h.home ▸ ho) hdisk) h.dated

theorem message_converged (n : Nat) (output : String) :
    s!"verification {n}: converged" =
      s!"verification {n}: {verdictNote (.converged output)}" := by
  have hnote : ": " ++ "converged" = ": converged" := rfl
  show "verification " ++ toString n ++ ": converged" =
    "verification " ++ toString n ++ ": " ++ "converged"
  simp only [← hnote, String.append_assoc]

theorem message_failed (n : Nat) (c : FailureClass) (outcome : Outcome) :
    s!"verification {n}: {c.tag}\n{outcome.diagnosticText}" =
      s!"verification {n}: {verdictNote (.failed c outcome)}" := by
  simp only [verdictNote, String.append_assoc]
  rfl

theorem Sound.fresh {p : Progress σ} (h : Sound s q p) :
    ∀ a ∈ p.attempts, a.number ≠ p.attempts.length + 1 := by
  intro a ha he
  have hmem : a.number ∈ p.attempts.map Attempt.number := List.mem_map_of_mem ha
  rw [h.numbered, he, List.mem_range'_1] at hmem
  omega

theorem Told.asked {c : FailureClass} {outcome : Outcome} {p : Progress σ} {text : String}
    {r : Except ClientError String} {agent : Agent} {w₁ w₂ : World σ}
    (h : Told s q j d₀ vs attempts p.world) (hq : Asks s q c outcome p w₁ text r agent w₂)
    (he : (chatEntry text r w₁ w₂).Aloof (placeOf d₀.home j.dir)) :
    Told s q j d₀ vs attempts w₁ ∧ Told s q j d₀ vs attempts w₂ := by
  obtain ⟨hsame, hdated⟩ : Same (placeOf d₀.home j.dir) p.world.disk w₁.disk ∧
      (Dated p.world → Dated w₁) := hq.same
  have hw₁ := h.same hsame (hdated h.dated)
  exact ⟨hw₁, hw₁.same (he.apart rfl) he.dated⟩

/-- What follows a failure tells of no further verification, and of an attempt where one is made. -/
theorem Fixes.told {c : FailureClass} {outcome : Outcome} {start : World σ} {p p' : Progress σ}
    {pr : Pass} (hf : Fixes s q c outcome start p (.ok pr) p')
    (h : Told s q j d₀ vs p.attempts p.world) (hj : s.journal = some j)
    (hc : Elsewhere q j d₀) (hstart : Dated start)
    (hfresh : ∀ a ∈ p.attempts, a.number ≠ p.attempts.length + 1)
    (ho : p.attempts = [] ∨ ¬ Below (placeOf d₀.home j.dir) (placeOf d₀.home q.candidatePath))
    (ha : ∀ e ∈ p'.entries, e.Aloof (placeOf d₀.home j.dir)) :
    Told s q j d₀ vs p'.attempts p'.world ∧
      (p'.attempts = [] ∨ ¬ Below (placeOf d₀.home j.dir) (placeOf d₀.home q.candidatePath)) := by
  cases hf with
  | refused hq =>
    obtain ⟨-, hchat⟩ := List.forall_mem_append.1 ha
    exact ⟨(h.asked hq (List.forall_mem_singleton.1 hchat)).2, ho⟩
  | unusable hq =>
    obtain ⟨-, hchat⟩ := List.forall_mem_append.1 ha
    exact ⟨(h.asked hq (List.forall_mem_singleton.1 hchat)).2, ho⟩
  | @repaired w₁ w₂ w₃ w₄ text reply x agent agent' ms hq hx hd _ hn htook hms =>
    obtain ⟨he, -⟩ := List.forall_mem_append.1 ha
    obtain ⟨-, hchat⟩ := List.forall_mem_append.1 he
    have hchat := List.forall_mem_singleton.1 hchat
    obtain ⟨hw₁, hw₂⟩ := h.asked hq hchat
    have hout : ¬ Below (placeOf d₀.home j.dir) (placeOf d₀.home q.candidatePath) := by
      rcases ho with hnil | ho
      · rw [hnil] at hw₁
        exact hw₁.not_below hc hq.prompted
      · exact ho
    have hw₃ := hw₂.replaced (hchat.apart rfl) hq.prompted hout hd
    have hduration : ms < Word.bound 64 := by
      rw [hms]
      exact Nat.lt_of_le_of_lt (Nat.sub_le _ _) (Timestamp.millis_lt hw₃.dated)
    have hw₄ := hw₃.attempted hj hfresh ⟨Timestamp.valid_ofMillis hstart, hduration⟩ htook
    exact ⟨hw₄, .inr hout⟩

theorem Told.passes {p p' : Progress σ} {pr : Pass} (hsound : Sound s q p)
    (h : Told s q j d₀ (verifications p.entries) p.attempts p.world) (hj : s.journal = some j)
    (hc : Elsewhere q j d₀)
    (ho : p.attempts = [] ∨ ¬ Below (placeOf d₀.home j.dir) (placeOf d₀.home q.candidatePath))
    (hp : Passes s q p (.ok pr) p') (ha : ∀ e ∈ p'.entries, e.Aloof (placeOf d₀.home j.dir)) :
    Told s q j d₀ (verifications p'.entries) p'.attempts p'.world ∧
      (p'.attempts = [] ∨ ¬ Below (placeOf d₀.home j.dir) (placeOf d₀.home q.candidatePath)) := by
  have hverdict {es more : List (Entry σ)} {verdict : Verdict} {known : Option String}
      {w w' : World σ} {message : String} (hv : Verifies s q p es (.ok verdict) known w)
      (hm : ∀ e ∈ more, e.call.isApart = true)
      (he : ∀ e ∈ p.entries ++ es, e.Aloof (placeOf d₀.home j.dir))
      (hmessage : message = s!"verification {p.verifications + 1}: {verdictNote verdict}")
      (ht : Took s (fun j => j.event message) w w') :
      Told s q j d₀ (verifications (p.entries ++ es ++ more)) p.attempts w' := by
    rw [List.append_assoc]
    exact h.verdict hsound hj hv hm (List.forall_mem_append.1 he).2 hmessage ht
  have hlast {es : List (Entry σ)} {verdict : Verdict} {known : Option String}
      {w w' : World σ} {message : String} (hv : Verifies s q p es (.ok verdict) known w)
      (he : ∀ e ∈ p.entries ++ es, e.Aloof (placeOf d₀.home j.dir))
      (hmessage : message = s!"verification {p.verifications + 1}: {verdictNote verdict}")
      (ht : Took s (fun j => j.event message) w w') :
      Told s q j d₀ (verifications (p.entries ++ es)) p.attempts w' := by
    rw [← List.append_nil (p.entries ++ es)]
    exact hverdict hv (by simp) he hmessage ht
  cases hp with
  | cancelled => exact ⟨h, ho⟩
  | converged hv _ ht => exact ⟨hlast hv ha (message_converged _ _) ht, ho⟩
  | broken hv _ ht => exact ⟨hlast hv ha rfl ht, ho⟩
  | interrupted hv _ _ ht => exact ⟨hlast hv ha (message_failed _ _ _) ht, ho⟩
  | @fixed es c outcome known w w' _ _ hv _ hf _ ht =>
    obtain ⟨more, hm, hentries, -⟩ := hf.more
    have hfound : Told s q j d₀ (verifications p'.entries) p.attempts w' := by
      rw [hentries] at ha ⊢
      exact hverdict hv hm (List.forall_mem_append.1 ha).1 (message_failed _ _ _) ht
    exact hf.told hfound hj hc h.dated hsound.fresh ho ha

theorem Passes.entries {p p' : Progress σ} {r : Except Failure Pass} (h : Passes s q p r p') :
    p.entries <+: p'.entries := by
  cases h with
  | cancelled => exact List.prefix_rfl
  | @fixed es c outcome known w w' _ _ hv hj hf =>
    obtain ⟨more, -, hentries, -⟩ := hf.more
    rw [hentries]
    exact (List.prefix_append p.entries es).trans (List.prefix_append _ more)
  | _ => exact List.prefix_append _ _

structure Underway (s : Setup σ) (q : Request) (j : Journal) (d₀ : Disk) (p : Progress σ) : Prop where
  sound : Sound s q p
  told : (∀ e ∈ p.entries, e.Aloof (placeOf d₀.home j.dir)) →
    Told s q j d₀ (verifications p.entries) p.attempts p.world ∧
      (p.attempts = [] ∨ ¬ Below (placeOf d₀.home j.dir) (placeOf d₀.home q.candidatePath))

theorem Underway.passes {p p' : Progress σ} {pr : Pass} (h : Underway s q j d₀ p)
    (hj : s.journal = some j) (hc : Elsewhere q j d₀) (hp : Passes s q p (.ok pr) p')
    (ha : ∀ e ∈ p'.entries, e.Aloof (placeOf d₀.home j.dir)) :
    Told s q j d₀ (verifications p'.entries) p'.attempts p'.world ∧
      (p'.attempts = [] ∨ ¬ Below (placeOf d₀.home j.dir) (placeOf d₀.home q.candidatePath)) := by
  obtain ⟨htold, ho⟩ := h.told fun e he => ha e (hp.entries.subset he)
  exact htold.passes h.sound hj hc ho hp ha

theorem Sound.ended {p p' : Progress σ} {pr : Pass} (h : Sound s q p)
    (hp : Passes s q p (.ok pr) p') : p'.verifications = (verifications p'.entries).length ∧
      p'.attempts.map Attempt.number = List.range' 1 p'.attempts.length := by
  obtain ⟨rfl, -⟩ | ⟨verdict, follow, own, hr, -, ha⟩ := h.round hp
  · exact ⟨h.counted.trans h.verified.symm, h.numbered⟩
  · constructor
    · rw [hr.counted, hr.verifications, List.length_append, h.verified, h.counted,
        List.length_singleton]
    · rcases ha with rfl | ha
      · exact (h.repaired hp).numbered
      · rw [ha]
        exact h.numbered

structure Ended (s : Setup σ) (q : Request) (j : Journal) (d₀ : Disk) (r : Report)
    (p : Progress σ) : Prop where
  closed : ∃ events notes,
    events.map Prod.snd = startMessage s q :: numbered notes ++ [finishMessage r] ∧
      List.Forall₂ (Logged s) (verifications p.entries) notes ∧
      Closed j d₀ (logText events) r p.world.disk
  verifications : r.verifications = (verifications p.entries).length
  numbered : r.attempts.map Attempt.number = List.range' 1 r.attempts.length
  fits : r.Fits

theorem finish_ok {start : World σ} {stop : Stop} {m p : Progress σ} {r : Report}
    (h : finish s start stop m = (.ok r, p)) :
    r = report stop start m ∧ p.entries = m.entries ∧ ∃ w,
      Took s (fun j => j.event (finishMessage r)) m.world w ∧
        Took s (fun j => j.writeReport r) w p.world := by
  unfold finish at h
  dsimp only at h
  split at h
  · cases h
  next m' hlog =>
    have htook := withJournal_ok hlog
    obtain ⟨_, -, rfl⟩ := log_spec hlog
    split at h
    · cases h
    next p' hwrite =>
      cases h
      have htook' := withJournal_ok hwrite
      obtain ⟨_, -, rfl⟩ := writeReport_spec hwrite
      exact ⟨rfl, rfl, _, htook, htook'⟩

theorem Told.ended {start : World σ} {stop : Stop} {m p : Progress σ} {r : Report}
    (h : Told s q j d₀ (Repair.verifications m.entries) m.attempts m.world)
    (hj : s.journal = some j) (hf : finish s start stop m = (.ok r, p)) :
    ∃ events notes,
      events.map Prod.snd = startMessage s q :: Repair.numbered notes ++ [finishMessage r] ∧
        List.Forall₂ (Logged s) (Repair.verifications p.entries) notes ∧
        Closed j d₀ (logText events) r p.world.disk := by
  obtain ⟨rfl, hentries, w, hevent, hreport⟩ := finish_ok hf
  obtain ⟨u, he⟩ := hevent.entry hj
  obtain ⟨path, hr⟩ := hreport.entry hj
  obtain ⟨d, hd, rfl⟩ := event_ok he
  obtain ⟨d', hd', hw⟩ := writeRecord_ok hr
  obtain ⟨events, notes, hevents, hnotes, hk⟩ := h.kept
  refine ⟨events ++ [(m.world.now, finishMessage (report stop start m))], notes, ?_, ?_, ?_⟩
  · rw [List.map_append, hevents]
    rfl
  · rw [hentries]
    exact hnotes
  · rw [logText_append, logText_singleton, hw]
    exact (hk.entered hd).closed hd'

theorem diagnoseAndFix_ended {agent : Agent} {r : Report} {p : Progress σ}
    (hrun : diagnoseAndFix s q agent w = (.ok r, p)) (hj : s.journal = some j) (hd : Dated w)
    (hmax : s.settings.maxRetry < Word.bound 32) (hc : Elsewhere q j w.disk)
    (ha : ∀ e ∈ p.entries, e.Aloof (placeOf w.disk.home j.dir)) : Ended s q j w.disk r p := by
  cases repairs_iff.2 hrun with
  | @ended p₀ m _ stop _ ho hr hf =>
    have htook := withJournal_ok ho
    obtain ⟨w₀, -, rfl⟩ := log_spec ho
    have hstart : Underway s q j w.disk { Progress.start agent w with world := w₀ } :=
      ⟨sound_start agent w w₀, fun _ => ⟨told_start hj hd htook, .inl rfl⟩⟩
    have hstep (p p' : Progress σ) (h : Underway s q j w.disk p)
        (hp : Passes s q p (.ok .repaired) p') : Underway s q j w.disk p' :=
      ⟨h.sound.repaired hp, h.passes hj hc hp⟩
    have hlt : 0 < max 1 s.settings.maxRetry := by omega
    obtain ⟨m', pr, hm', hlt, hp, hconcludes⟩ := (hr.last hstep hstart hlt).exists_pass
    obtain ⟨hreport, hentries, -⟩ := finish_ok hf
    obtain ⟨pass, rfl⟩ : ∃ pass, pr = .ok pass := by
      cases hconcludes <;> exact ⟨_, rfl⟩
    obtain ⟨htold, -⟩ := hm'.passes hj hc hp (hentries ▸ ha)
    obtain ⟨hverifications, hnumbered⟩ := hm'.sound.ended hp
    obtain ⟨hv, hattempts⟩ := hp.counters
    have hbound : max 1 s.settings.maxRetry < Word.bound 32 :=
      Nat.max_lt.2 ⟨by decide, hmax⟩
    have hcounted := hm'.sound.counted
    refine ⟨htold.ended hj hf, ?_, ?_, ?_⟩
    · rw [hreport, hentries]
      exact hverifications
    · rw [hreport]
      exact hnumbered
    · rw [hreport]
      refine ⟨?_, fun a hmem => ?_, ?_⟩
      · show m.verifications < _
        omega
      · obtain ⟨hstarted, hduration⟩ := htold.fits a hmem
        have hnumber : a.number ∈ m.attempts.map Attempt.number := List.mem_map_of_mem hmem
        rw [hnumbered, List.mem_range'_1] at hnumber
        exact ⟨by omega, hstarted, hduration⟩
      · exact Nat.lt_of_le_of_lt (Nat.sub_le _ _) (Timestamp.millis_lt htold.dated)

end Anneal.Repair
