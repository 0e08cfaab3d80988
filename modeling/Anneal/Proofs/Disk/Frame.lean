import Anneal.Proofs.Disk.Follow

/-! What the operations of a disk leave as it was. None removes a directory, so a way that was open
stays open, and each touches the files of its own paths only. -/

namespace Anneal.Disk

open Anneal.Text (Bytes)

/-- From one disk to another the directories stay, and so do the files outside of `places`. -/
structure Changes (places : List Place) (d d' : Disk) : Prop where
  home : d'.home = d.home
  directory : ∀ p, d.node? p = some .directory → d'.node? p = some .directory
  file : ∀ p content x, p ∉ places → d.node? p = some (.file content x) →
    d'.node? p = some (.file content x)

variable {d d' : Disk} {path : String} {places places' : List Place}

theorem Changes.refl (d : Disk) : Changes places d d := ⟨rfl, fun _ h => h, fun _ _ _ _ h => h⟩

theorem Changes.mono (h : Changes places d d') (hs : places ⊆ places') : Changes places' d d' :=
  ⟨h.home, h.directory, fun p content x hp => h.file p content x fun hm => hp (hs hm)⟩

theorem Changes.trans {d'' : Disk} (h : Changes places d d') (h' : Changes places d' d'') :
    Changes places d d'' where
  home := h'.home.trans h.home
  directory p hp := h'.directory p (h.directory p hp)
  file p content x hp hn := h'.file p content x hp (h.file p content x hp hn)

theorem Changes.walk (h : Changes places d d') {p q : Place} {names : List String}
    (hw : d.walk p names = .ok q) : d'.walk p names = .ok q := by
  induction names generalizing p with
  | nil => exact hw
  | cons name rest ih =>
    rw [Disk.walk] at hw ⊢
    dsimp only at hw ⊢
    split at hw
    · cases hw
    next hlen =>
      rw [if_neg hlen]
      split at hw
      · cases hw
      · cases hw
      next hd =>
        rw [h.directory _ hd]
        exact ih hw

/-- Where a path leads hangs on the disk only through the way to its last component. -/
theorem locate_of_walk {t : Target} (hl : d.locate path = .ok t) (hhome : d'.home = d.home)
    (hw : ∀ before last q, components path = before ++ [last] →
      d.walk (startOf d.home path) before = .ok q → d'.walk (startOf d.home path) before = .ok q) :
    d'.locate path = .ok t := by
  unfold Disk.locate at hl ⊢
  dsimp only at hl ⊢
  rw [hhome]
  split at hl
  · cases hl
  next h₁ =>
    rw [if_neg h₁]
    split at hl
    · cases hl
    next h₂ =>
      rw [if_neg h₂]
      split at hl
      · cases hl
      next h₃ =>
        rw [if_neg h₃]
        split at hl
        next hc => exact hl
        next last before hc =>
          have hcs : components path = before.reverse ++ [last] := by
            rw [← List.reverse_reverse (components path), hc, List.reverse_cons]
          split at hl
          · cases hl
          next dir hdir =>
            have hway := hw _ _ _ hcs hdir
            unfold startOf at hway
            rw [hway]
            exact hl

theorem Changes.locate (h : Changes places d d') {t : Target} (hl : d.locate path = .ok t) :
    d'.locate path = .ok t :=
  locate_of_walk hl h.home fun _ _ _ _ hw => h.walk hw

/-- The file at a path has this content. -/
def Holds (d : Disk) (path : String) (content : Bytes) : Prop := d.readBytesNow path = .ok content

theorem holds_iff {content : Bytes} :
    d.Holds path content ↔
      ∃ t x, d.locate path = .ok t ∧ t.slash = false ∧
        d.node? t.place = some (.file content x) := by
  unfold Holds readBytesNow stat
  constructor
  · intro h
    cases hl : d.locate path with
    | error e => simp [hl] at h
    | ok t =>
      rw [hl] at h
      dsimp only at h
      cases hn : d.node? t.place with
      | none => simp [hn] at h
      | some n =>
        cases n with
        | directory => simp [hn] at h
        | file c x =>
          cases hs : t.slash with
          | true => simp [hn, hs] at h
          | false =>
            simp only [hn, hs, Bool.false_eq_true, if_false, Except.ok.injEq] at h
            exact ⟨t, x, rfl, hs, h ▸ hn⟩
  · rintro ⟨t, x, hl, hs, hn⟩
    simp [hl, hs, hn]

theorem Holds.changes {content : Bytes} (hd : d.Holds path content) (h : Changes places d d')
    (hp : placeOf d.home path ∉ places) : d'.Holds path content := by
  obtain ⟨t, x, hl, hs, hn⟩ := holds_iff.1 hd
  exact holds_iff.2 ⟨t, x, h.locate hl, hs, h.file _ _ _ (locate_place hl ▸ hp) hn⟩

theorem readTextNow_eq_ok {text : String} :
    d.readTextNow path = .ok text ↔
      ∃ content, d.Holds path content ∧ Text.decode? content = some text := by
  unfold Holds readTextNow
  cases hb : d.readBytesNow path with
  | error e => simp
  | ok content =>
    cases hc : Text.decode? content with
    | none => simp [hc]
    | some t => simp [hc]

theorem Changes.readTextNow (h : Changes places d d') {text : String}
    (hd : d.readTextNow path = .ok text) (hp : placeOf d.home path ∉ places) :
    d'.readTextNow path = .ok text := by
  obtain ⟨content, hc, ht⟩ := readTextNow_eq_ok.1 hd
  exact readTextNow_eq_ok.2 ⟨content, hc.changes h hp, ht⟩

theorem lookup_cons_place (q p : Place) (n : Node) (rest : List (Place × Node)) :
    ((p, n) :: rest).lookup q = if q = p then some n else rest.lookup q := by
  rw [List.lookup_cons]
  by_cases h : q = p
  · rw [if_pos h, h, beq_self_eq_true]
  · rw [if_neg h, beq_false_of_ne h]

theorem lookup_setNodes (p q : Place) (n : Node) (nodes : List (Place × Node)) :
    (setNodes p n nodes).lookup q = if q = p then some n else nodes.lookup q := by
  induction nodes with
  | nil => exact lookup_cons_place q p n []
  | cons e rest ih =>
    obtain ⟨r, m⟩ := e
    rw [setNodes]
    split
    next hr =>
      subst hr
      rw [lookup_cons_place, lookup_cons_place]
      split <;> rfl
    next hr =>
      rw [lookup_cons_place, lookup_cons_place, ih]
      by_cases hq : q = p
      · subst hq
        rw [if_neg (Ne.symm hr), if_pos rfl, if_pos rfl]
      · rw [if_neg hq, if_neg hq]

theorem node?_set (d : Disk) (p q : Place) (n : Node) :
    (d.set p n).node? q = if q = p then some n else d.node? q :=
  lookup_setNodes p q n d.nodes

theorem node?_erase (d : Disk) (p q : Place) :
    (d.erase p).node? q = if q = p then none else d.node? q := by
  unfold erase node?
  dsimp only
  induction d.nodes with
  | nil =>
    rw [List.filter_nil]
    split <;> rfl
  | cons e rest ih =>
    obtain ⟨r, m⟩ := e
    by_cases hr : r = p
    · rw [List.filter_cons_of_neg (by simp [hr]), ih, lookup_cons_place, hr]
      split <;> rfl
    · rw [List.filter_cons_of_pos (by simp [hr]), lookup_cons_place, lookup_cons_place, ih]
      by_cases hq : q = p
      · subst hq
        rw [if_neg (Ne.symm hr), if_pos rfl, if_pos rfl]
      · rw [if_neg hq, if_neg hq]

theorem ne_of_directory {p q : Place} (hp : d.node? p ≠ some .directory)
    (hq : d.node? q = some .directory) : q ≠ p := by
  rintro rfl
  exact hp hq

theorem changes_set_file {p : Place} (hp : d.node? p ≠ some .directory) (content : Bytes)
    (x : Bool) : Changes [p] d (d.set p (.file content x)) where
  home := rfl
  directory q hq := by
    rw [node?_set, if_neg (ne_of_directory hp hq), hq]
  file q c y hq hn := by
    rw [node?_set, if_neg (by simpa using hq), hn]

theorem changes_set_directory {p : Place} (hp : d.node? p = none) :
    Changes [] d (d.set p .directory) where
  home := rfl
  directory q hq := by
    rw [node?_set]
    split
    · rfl
    · exact hq
  file q c y _ hn := by
    rw [node?_set, if_neg fun he => by simp [← he, hn] at hp, hn]

theorem changes_erase {p : Place} (hp : d.node? p ≠ some .directory) :
    Changes [p] d (d.erase p) where
  home := rfl
  directory q hq := by
    rw [node?_erase, if_neg (ne_of_directory hp hq), hq]
  file q c y hq hn := by
    rw [node?_erase, if_neg (by simpa using hq), hn]

theorem holds_set {t : Target} (hl : d.locate path = .ok t) (hs : t.slash = false)
    (hn : d.node? t.place ≠ some .directory) (content : Bytes) (x : Bool) :
    (d.set t.place (.file content x)).Holds path content :=
  holds_iff.2 ⟨t, x, (changes_set_file hn content x).locate hl, hs, by rw [node?_set, if_pos rfl]⟩

end Anneal.Disk
