import Anneal.Proofs.Disk.Stored
import Anneal.Proofs.Journal
import Anneal.Proofs.Text.Utf8

/-! What a journal keeps in its directory. The log grows entry by entry, an attempt gets a file of its
own by its number, and all else below the directory stays as it was. -/

namespace Anneal.Journal

open Disk
open Anneal.Text (Bytes)

variable {σ : Type} {j : Journal} {w w' : World σ} {home : Place}

def attemptText (a : Attempt) : String := a.toJson.pretty ++ "\n"

def reportText (r : Report) : String := r.toJson.pretty ++ "\n"

def logText (events : List (Timestamp × String)) : String :=
  String.join (events.map fun e => entry e.1 e.2)

theorem logText_append (events more : List (Timestamp × String)) :
    logText (events ++ more) = logText events ++ logText more := by
  rw [logText, List.map_append, String.join_append]
  rfl

theorem logText_singleton (now : Timestamp) (message : String) :
    logText [(now, message)] = entry now message := by
  simp [logText, String.join]

theorem placeOf_logPath (j : Journal) (home : Place) :
    placeOf home j.logPath = placeOf home j.dir ++ ["session.log"] :=
  placeOf_join (IsName.ordinary (.inl rfl)) home

theorem placeOf_reportPath (j : Journal) (home : Place) :
    placeOf home j.reportPath = placeOf home j.dir ++ ["report.json"] :=
  placeOf_join (IsName.ordinary (.inr (.inl rfl))) home

theorem placeOf_attemptPath (j : Journal) (home : Place) (number : Nat) :
    placeOf home (j.attemptPath number) = placeOf home j.dir ++ [s!"attempt-{number}.json"] :=
  placeOf_join (IsName.ordinary (.inr (.inr ⟨number, rfl⟩))) home

theorem Keeps.below {path : String} (h : j.Keeps path) (home : Place) :
    Below (Disk.placeOf home j.dir) (Disk.placeOf home path) := by
  obtain ⟨name, -, hp⟩ := h.placeOf home
  rw [hp]
  exact below_concat.2 List.prefix_rfl

theorem attemptName_injective {m n : Nat}
    (h : s!"attempt-{m}.json" = s!"attempt-{n}.json") : m = n := by
  have hcs := congrArg String.toList h
  rw [attemptName_toList, attemptName_toList, List.append_cancel_right_eq,
    List.append_cancel_left_eq] at hcs
  have := congrArg (fun cs => Nat.ofDigitChars 10 cs 0) hcs
  simpa using this

theorem attemptName_ne {name : String} {c : Char} (hc : c ≠ 'a') (hn : name.toList.head? = some c)
    (number : Nat) : name ≠ s!"attempt-{number}.json" := by
  rintro rfl
  rw [attemptName_toList] at hn
  exact hc (Option.some.inj hn).symm

theorem logPath_ne_reportPath (j : Journal) (home : Place) :
    placeOf home j.logPath ≠ placeOf home j.reportPath := by
  rw [placeOf_logPath, placeOf_reportPath]
  simp

theorem logPath_ne_attemptPath (j : Journal) (home : Place) (number : Nat) :
    placeOf home j.logPath ≠ placeOf home (j.attemptPath number) := by
  rw [placeOf_logPath, placeOf_attemptPath]
  intro he
  exact attemptName_ne (c := 's') (by decide) rfl number
    (List.singleton_inj.1 (List.append_inj_right' he rfl))

theorem reportPath_ne_attemptPath (j : Journal) (home : Place) (number : Nat) :
    placeOf home j.reportPath ≠ placeOf home (j.attemptPath number) := by
  rw [placeOf_reportPath, placeOf_attemptPath]
  intro he
  exact attemptName_ne (c := 'r') (by decide) rfl number
    (List.singleton_inj.1 (List.append_inj_right' he rfl))

theorem attemptPath_ne {m n : Nat} (h : m ≠ n) (j : Journal) (home : Place) :
    placeOf home (j.attemptPath m) ≠ placeOf home (j.attemptPath n) := by
  rw [placeOf_attemptPath, placeOf_attemptPath]
  intro he
  exact h (attemptName_injective (List.singleton_inj.1 (List.append_inj_right' he rfl)))

theorem event_ok {message : String} {u : Unit} (h : j.event message w = (.ok u, w')) :
    ∃ d, Puts j.logPath ((w.disk.content? (placeOf w.disk.home j.logPath)).getD [] ++
      Text.encode (entry w.now message)) w.disk d ∧ w' = { w with disk := d } := by
  unfold event World.onDisk at h
  dsimp only at h
  cases hop : w.disk.appendText j.logPath (entry w.now message) with
  | mk r d =>
    rw [hop] at h
    cases r with
    | error e => cases h
    | ok v =>
      cases h
      exact ⟨d, appendText_puts hop, rfl⟩

theorem writeRecord_ok {path p : String} {record : Json}
    (h : writeRecord path record w = (.ok p, w')) :
    ∃ d, Puts path (Text.encode (record.pretty ++ "\n")) w.disk d ∧ w' = { w with disk := d } := by
  unfold writeRecord World.onDisk at h
  dsimp only at h
  cases hop : w.disk.writeText path (record.pretty ++ "\n") with
  | mk r d =>
    rw [hop] at h
    cases r with
    | error e => cases h
    | ok v =>
      cases h
      exact ⟨d, writeBytes_puts hop, rfl⟩

/-- From `d₀` on the log has grown by `log` and the attempts were stored. -/
structure Kept (j : Journal) (d₀ : Disk) (log : String) (attempts : List Attempt) (d : Disk) :
    Prop where
  home : d.home = d₀.home
  log : Stored d j.logPath
    ((d₀.content? (placeOf d₀.home j.logPath)).getD [] ++ Text.encode log)
  attempt : ∀ a ∈ attempts, Stored d (j.attemptPath a.number) (Text.encode (attemptText a))
  others : ∀ p, Below (placeOf d₀.home j.dir) p → p ≠ placeOf d₀.home j.logPath →
    (∀ a ∈ attempts, p ≠ placeOf d₀.home (j.attemptPath a.number)) → d.node? p = d₀.node? p

variable {d₀ d d' : Disk} {log more : String} {attempts : List Attempt}

theorem kept_of_puts (h : Puts j.logPath
    ((d₀.content? (placeOf d₀.home j.logPath)).getD [] ++ Text.encode log) d₀ d) :
    Kept j d₀ log [] d where
  home := h.home
  log := h.holds.stored
  attempt a ha := by cases ha
  others p _ hp _ := h.others p hp

theorem Kept.same (h : Kept j d₀ log attempts d) (hs : Same (placeOf d₀.home j.dir) d d') :
    Kept j d₀ log attempts d' where
  home := hs.home.trans h.home
  log := h.log.same hs (h.home ▸ Keeps.log.below d.home)
  attempt a ha := (h.attempt a ha).same hs (h.home ▸ (Keeps.attempt a.number).below d.home)
  others p hb hp ha := (hs.node p hb).trans (h.others p hb hp ha)

theorem Kept.entered (h : Kept j d₀ log attempts d)
    (hp : Puts j.logPath ((d.content? (placeOf d.home j.logPath)).getD [] ++ Text.encode more) d d') :
    Kept j d₀ (log ++ more) attempts d' where
  home := hp.home.trans h.home
  log := by
    rw [h.log.content, Option.getD_some, List.append_assoc, ← Text.encode_append] at hp
    exact hp.holds.stored
  attempt a ha := (h.attempt a ha).puts hp (logPath_ne_attemptPath j d.home a.number).symm
  others p hb hlog ha := by
    rw [hp.others p (h.home ▸ hlog), h.others p hb hlog ha]

theorem Kept.recorded {a : Attempt} (h : Kept j d₀ log attempts d)
    (hfresh : ∀ b ∈ attempts, b.number ≠ a.number)
    (hp : Puts (j.attemptPath a.number) (Text.encode (attemptText a)) d d') :
    Kept j d₀ log (attempts ++ [a]) d' where
  home := hp.home.trans h.home
  log := h.log.puts hp (logPath_ne_attemptPath j d.home a.number)
  attempt := by
    rw [List.forall_mem_append, List.forall_mem_singleton]
    refine ⟨fun b hb => ?_, hp.holds.stored⟩
    exact (h.attempt b hb).puts hp (attemptPath_ne (hfresh b hb) j d.home)
  others p hb hlog ha := by
    rw [List.forall_mem_append, List.forall_mem_singleton] at ha
    rw [hp.others p (h.home ▸ ha.2), h.others p hb hlog ha.1]

structure Closed (j : Journal) (d₀ : Disk) (log : String) (r : Report) (d : Disk) : Prop where
  home : d.home = d₀.home
  log : d.Holds j.logPath ((d₀.content? (placeOf d₀.home j.logPath)).getD [] ++ Text.encode log)
  attempt : ∀ a ∈ r.attempts, d.Holds (j.attemptPath a.number) (Text.encode (attemptText a))
  report : d.Holds j.reportPath (Text.encode (reportText r))
  others : ∀ p, Below (placeOf d₀.home j.dir) p → p ≠ placeOf d₀.home j.logPath →
    p ≠ placeOf d₀.home j.reportPath →
    (∀ a ∈ r.attempts, p ≠ placeOf d₀.home (j.attemptPath a.number)) → d.node? p = d₀.node? p

theorem Kept.closed {r : Report} (h : Kept j d₀ log r.attempts d)
    (hp : Puts j.reportPath (Text.encode (reportText r)) d d') : Closed j d₀ log r d' where
  home := hp.home.trans h.home
  log := (h.log.puts hp (logPath_ne_reportPath j d.home)).holds (IsName.ordinary (.inl rfl))
    (IsName.ordinary (.inr (.inl rfl))) hp.holds
  attempt a ha := ((h.attempt a ha).puts hp
    (reportPath_ne_attemptPath j d.home a.number).symm).holds
      (IsName.ordinary (.inr (.inr ⟨a.number, rfl⟩))) (IsName.ordinary (.inr (.inl rfl))) hp.holds
  report := hp.holds
  others p hb hlog hreport ha := by
    rw [hp.others p (h.home ▸ hreport), h.others p hb hlog ha]

end Anneal.Journal
