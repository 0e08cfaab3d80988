import Anneal.Proofs.Disk.Frame

/-! What each operation of a disk does, whether the fault plan lets it succeed or not. -/

namespace Anneal.Disk

open Anneal.Text (Bytes)

def ticked (d : Disk) : Disk := { d with operation := d.operation + 1 }

variable {d d' : Disk} {path : String} {places : List Place}

theorem changes_ticked (d : Disk) : Changes places d d.ticked :=
  ⟨rfl, fun _ h => h, fun _ _ _ _ h => h⟩

theorem attempt_spec {α : Type} {fails : Outage → Disk → Disk}
    {op : Disk → Except OsError α × Disk} {r : Except OsError α}
    (h : d.attempt fails op = (r, d')) :
    (∃ o, r = .error o.error ∧ d' = fails o d.ticked) ∨ op d.ticked = (r, d') := by
  unfold attempt at h
  dsimp only at h
  split at h
  next o _ =>
    cases h
    exact .inl ⟨o, rfl, rfl⟩
  · exact .inr h

theorem readText_spec {r : Except OsError String} (h : d.readText path = (r, d')) :
    Changes places d d' ∧ ∀ text, r = .ok text → d'.readTextNow path = .ok text := by
  obtain ⟨_, rfl, rfl⟩ | h := attempt_spec h
  · exact ⟨changes_ticked d, fun _ h => by cases h⟩
  · cases h
    exact ⟨changes_ticked d, fun _ h => h⟩

theorem readText_nodes {r : Except OsError String} (h : d.readText path = (r, d')) :
    d'.nodes = d.nodes := by
  obtain ⟨_, -, rfl⟩ | h := attempt_spec h
  · rfl
  · cases h
    rfl

theorem readBytes_changes {r : Except OsError Bytes} (h : d.readBytes path = (r, d')) :
    Changes places d d' := by
  obtain ⟨_, -, rfl⟩ | h := attempt_spec h
  · exact changes_ticked d
  · cases h
    exact changes_ticked d

def content? (d : Disk) (p : Place) : Option Bytes :=
  match d.node? p with
  | some (.file content _) => some content
  | _ => none

theorem content?_of_node {p : Place} {content : Bytes} {x : Bool}
    (h : d.node? p = some (.file content x)) : d.content? p = some content := by
  rw [content?, h]

structure Puts (path : String) (content : Bytes) (d d' : Disk) : Prop where
  home : d'.home = d.home
  holds : d'.Holds path content
  others : ∀ p, p ≠ placeOf d.home path → d'.node? p = d.node? p

theorem puts_set {t : Target} (hl : d.locate path = .ok t) (hs : t.slash = false)
    (hn : d.node? t.place ≠ some .directory) (content : Bytes) (x : Bool) :
    Puts path content d (d.set t.place (.file content x)) where
  home := rfl
  holds := holds_set hl hs hn content x
  others p hp := by
    rw [node?_set, if_neg]
    rwa [locate_place hl]

theorem writable_spec {p : Place} {old : Option (Bytes × Bool)}
    (h : d.writable path = .ok (p, old)) :
    ∃ t, d.locate path = .ok t ∧ t.slash = false ∧ t.place = p ∧
      d.node? p = old.map fun f => .file f.1 f.2 := by
  unfold writable at h
  split at h
  · cases h
  next t hl =>
    split at h
    · cases h
    next hs =>
      simp only [Bool.or_eq_true, not_or, Bool.not_eq_true] at hs
      split at h
      · cases h
      next hn =>
        cases h
        exact ⟨t, hl, hs.2, rfl, hn⟩
      next hn =>
        cases h
        exact ⟨t, hl, hs.2, rfl, hn⟩

theorem putNow_spec {update : Bytes → Bytes} {r : Except OsError Unit}
    (h : d.putNow path update = (r, d')) :
    (∃ e, r = .error e ∧ d' = d) ∨
      ∃ t x, d.locate path = .ok t ∧ t.slash = false ∧ d.node? t.place ≠ some .directory ∧
        r = .ok () ∧ d' = d.set t.place (.file (update ((d.content? t.place).getD [])) x) := by
  unfold putNow at h
  split at h
  next e _ =>
    cases h
    exact .inl ⟨e, rfl, rfl⟩
  next p hw =>
    cases h
    obtain ⟨t, hl, hs, rfl, hn⟩ := writable_spec hw
    refine .inr ⟨t, false, hl, hs, by simp [hn], rfl, ?_⟩
    rw [content?, hn]
    rfl
  next p old x hw =>
    cases h
    obtain ⟨t, hl, hs, rfl, hn⟩ := writable_spec hw
    refine .inr ⟨t, x, hl, hs, by simp [hn], rfl, ?_⟩
    rw [content?_of_node hn]
    rfl

theorem putNow_changes (d : Disk) (path : String) (update : Bytes → Bytes) :
    Changes [placeOf d.home path] d (d.putNow path update).2 := by
  cases hp : d.putNow path update with
  | mk r d' =>
    obtain ⟨_, rfl, rfl⟩ | ⟨t, x, hl, -, hn, -, rfl⟩ := putNow_spec hp
    · exact .refl d'
    · rw [← locate_place hl]
      exact changes_set_file hn _ x

theorem putNow_ticked_changes (d : Disk) (path : String) (update : Bytes → Bytes) :
    Changes [placeOf d.home path] d (d.ticked.putNow path update).2 :=
  (changes_ticked d).trans (putNow_changes d.ticked path update)

theorem writeBytes_changes {content : Bytes} {r : Except OsError Unit}
    (h : d.writeBytes path content = (r, d')) : Changes [placeOf d.home path] d d' := by
  obtain ⟨_, -, rfl⟩ | h := attempt_spec h
  · exact putNow_ticked_changes d path _
  · have := putNow_ticked_changes d path fun _ => content
    rwa [h] at this

theorem putNow_puts {update : Bytes → Bytes} (h : d.ticked.putNow path update = (.ok (), d')) :
    Puts path (update ((d.content? (placeOf d.home path)).getD [])) d d' := by
  obtain ⟨_, hr, -⟩ | ⟨t, x, hl, hs, hn, -, rfl⟩ := putNow_spec h
  · cases hr
  · have hp := puts_set hl hs hn (update ((d.ticked.content? t.place).getD [])) x
    rw [locate_place hl] at hp ⊢
    exact ⟨hp.home, hp.holds, hp.others⟩

theorem writeBytes_puts {content : Bytes} (h : d.writeBytes path content = (.ok (), d')) :
    Puts path content d d' := by
  obtain ⟨_, hr, -⟩ | h := attempt_spec h
  · cases hr
  · exact putNow_puts h

theorem writeBytes_holds {content : Bytes} (h : d.writeBytes path content = (.ok (), d')) :
    d'.Holds path content := (writeBytes_puts h).holds

theorem appendText_puts {text : String} (h : d.appendText path text = (.ok (), d')) :
    Puts path ((d.content? (placeOf d.home path)).getD [] ++ Text.encode text) d d' := by
  obtain ⟨_, hr, -⟩ | h := attempt_spec h
  · cases hr
  · exact putNow_puts h

theorem appendText_changes {text : String} {r : Except OsError Unit}
    (h : d.appendText path text = (r, d')) : Changes [placeOf d.home path] d d' := by
  obtain ⟨_, -, rfl⟩ | h := attempt_spec h
  · exact putNow_ticked_changes d path _
  · have := putNow_ticked_changes d path (· ++ Text.encode text)
    rwa [h] at this

theorem makeDirNow_changes (d : Disk) (path : String) :
    Changes places d (d.makeDirNow path).2 := by
  unfold makeDirNow
  split
  · exact .refl d
  · split
    · exact .refl d
    · split
      · exact .refl d
      next hn => exact (changes_set_directory hn).mono (List.nil_subset _)

theorem makeDir_changes {r : Except OsError Unit} (h : d.makeDir path = (r, d')) :
    Changes places d d' := by
  obtain ⟨_, -, rfl⟩ | h := attempt_spec h
  · exact changes_ticked d
  · have : Changes places d.ticked (d.ticked.makeDirNow path).2 := makeDirNow_changes _ _
    rw [h] at this
    exact (changes_ticked d).trans this

inductive Makes (paths : List String) (d : Disk) : Disk → Prop
  | none : Makes paths d d
  | next {m d' : Disk} {path : String} {r : Except OsError Unit} (h : Makes paths d m)
      (hp : path ∈ paths) (hne : path.isEmpty = false) (hm : m.makeDir path = (r, d')) :
      Makes paths d d'

theorem Makes.chain {all paths : List String} {d₀ : Disk} {r : Except OsError Unit}
    (h₀ : Makes all d₀ d) (hs : paths ⊆ all) (h : d.makeChain paths = (r, d')) :
    Makes all d₀ d' := by
  induction paths generalizing d d' r with
  | nil =>
    cases h
    exact h₀
  | cons path parents ih =>
    obtain ⟨hpath, hparents⟩ := List.cons_subset.1 hs
    rw [makeChain] at h
    split at h
    · cases h
      exact h₀
    next hne =>
      have hne := Bool.eq_false_iff.2 hne
      split at h
      next hm =>
        cases h
        exact h₀.next hpath hne hm
      next m hm =>
        -- The parents come first, then the directory once more.
        have hm := h₀.next hpath hne hm
        split at h
        next hn =>
          cases h
          exact ih hm hparents hn
        next n hn =>
          have hn := ih hm hparents hn
          split at h
          next ha =>
            cases h
            exact hn.next hpath hne ha
          next ha =>
            split at h
            · cases h
              exact hn.next hpath hne ha
            · cases h
              exact hn.next hpath hne ha
      next hm =>
        split at h
        · cases h
          exact h₀.next hpath hne hm
        · cases h
          exact h₀.next hpath hne hm

theorem Makes.changes {paths : List String} (h : Makes paths d d') : Changes places d d' := by
  induction h with
  | none => exact .refl d
  | next _ _ _ hm ih => exact ih.trans (makeDir_changes hm)

theorem makeChain_makes {paths : List String} {r : Except OsError Unit}
    (h : d.makeChain paths = (r, d')) : Makes paths d d' :=
  Makes.none.chain (List.Subset.refl paths) h

/-- A file takes the place of another, or nothing is done. -/
theorem renameNow_spec {source target : String} {r : Except OsError Unit}
    (h : d.renameNow source target = (r, d')) :
    (∃ e, r = .error e ∧ d' = d) ∨
      ∃ s t content x, d.locate source = .ok s ∧ d.locate target = .ok t ∧ t.named = true ∧
        t.slash = false ∧ s.slash = false ∧ d.node? s.place = some (.file content x) ∧
        d.node? t.place ≠ some .directory ∧ r = .ok () ∧
        d' = if s.place = t.place then d else (d.set t.place (.file content x)).erase s.place := by
  unfold renameNow at h
  split at h
  · cases h
    exact .inl ⟨_, rfl, rfl⟩
  · cases h
    exact .inl ⟨_, rfl, rfl⟩
  next s t hs ht =>
    split at h
    · cases h
      exact .inl ⟨_, rfl, rfl⟩
    next hnamed =>
      simp only [Bool.or_eq_true, Bool.not_eq_true', not_or, Bool.not_eq_false] at hnamed
      split at h
      · cases h
        exact .inl ⟨_, rfl, rfl⟩
      · cases h
        exact .inl ⟨_, rfl, rfl⟩
      next n hnd hn =>
        split at h
        · cases h
          exact .inl ⟨_, rfl, rfl⟩
        next hslash =>
          simp only [Bool.or_eq_true, not_or, Bool.not_eq_true] at hslash
          split at h
          · cases h
            exact .inl ⟨_, rfl, rfl⟩
          next hnt =>
            cases n with
            | directory => exact absurd rfl hnd
            | file content x =>
              right
              refine ⟨s, t, content, x, hs, ht, hnamed.2, hslash.2, hslash.1, hn, hnt, ?_⟩
              split at h <;> cases h <;> simp_all

theorem rename_spec {source target : String} {r : Except OsError Unit}
    (h : d.rename source target = (r, d')) :
    (∃ e, r = .error e ∧ d' = d.ticked) ∨ d.ticked.renameNow source target = (r, d') := by
  obtain ⟨o, rfl, rfl⟩ | h := attempt_spec h
  · exact .inl ⟨o.error, rfl, rfl⟩
  · exact .inr h

theorem rename_changes_of_error {source target : String} {e : OsError}
    (h : d.rename source target = (.error e, d')) : Changes places d d' := by
  obtain ⟨_, -, rfl⟩ | h := rename_spec h
  · exact changes_ticked d
  · obtain ⟨_, -, rfl⟩ | ⟨_, _, _, _, -, -, -, -, -, -, -, hr, -⟩ := renameNow_spec h
    · exact changes_ticked d
    · cases hr

theorem rename_changes {source target : String} {r : Except OsError Unit}
    (h : d.rename source target = (r, d')) :
    Changes [placeOf d.home source, placeOf d.home target] d d' := by
  obtain ⟨_, -, rfl⟩ | h := rename_spec h
  · exact changes_ticked d
  · refine (changes_ticked d).trans ?_
    obtain ⟨_, -, rfl⟩ | ⟨s, t, c, x, hs, ht, -, -, -, hn, hnt, -, rfl⟩ := renameNow_spec h
    · exact .refl _
    · have hset := changes_set_file hnt c x
      rw [show placeOf d.home source = s.place from (locate_place hs).symm,
        show placeOf d.home target = t.place from (locate_place ht).symm]
      split
      · exact .refl _
      next hne =>
        refine (hset.mono (by simp)).trans ((changes_erase ?_).mono (by simp))
        rw [node?_set, if_neg hne, hn]
        simp

theorem rename_holds {source target : String} {content : Bytes}
    (h : d.rename source target = (.ok (), d')) (hs : d.Holds source content) :
    d'.Holds target content := by
  have hs : d.ticked.Holds source content :=
    hs.changes (show Changes [] d d.ticked from changes_ticked d) List.not_mem_nil
  obtain ⟨_, hr, -⟩ | h := rename_spec h
  · cases hr
  · obtain ⟨_, hr, -⟩ | ⟨s, t, c, x, hls, hlt, -, hts, -, hns, hnt, -, rfl⟩ := renameNow_spec h
    · cases hr
    · obtain ⟨s', x', hls', -, hn⟩ := holds_iff.1 hs
      obtain rfl : s' = s := Except.ok.inj (hls'.symm.trans hls)
      obtain ⟨rfl, rfl⟩ : content = c ∧ x' = x := by simpa using hn.symm.trans hns
      split
      next he => exact holds_iff.2 ⟨t, x', hlt, hts, he ▸ hn⟩
      next he =>
        refine (holds_set hlt hts hnt content x').changes (changes_erase ?_) ?_
        · rw [node?_set, if_neg he, hns]
          simp
        · rw [show placeOf (d.ticked.set t.place _).home target = t.place from (locate_place hlt).symm]
          simpa using Ne.symm he

end Anneal.Disk
