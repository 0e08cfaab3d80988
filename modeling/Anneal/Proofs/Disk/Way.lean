import Anneal.Proofs.Disk.Below
import Anneal.Proofs.Disk.Within

/-! The directories above a path. If a path leads somewhere, each of them is there. While they are
being created, one of them can come to lie where the path itself leads only if the path turns back
with `..`, and only if its way was not open already. -/

namespace Anneal.Disk

open Anneal.Text (splitWhere)

variable {d m d' : Disk} {path other : String} {t : Target}

/-- `other` is the parent of `path`, or the parent of one of its parents, and so on. -/
def Above (path other : String) : Prop :=
  Relation.TransGen (fun p q => Path.parent? p = some q) path other

theorem components_parent_length {parent name : String} (hname : Path.fileName? path = some name)
    (h : Path.parent? path = some parent) :
    (components parent).length < (components path).length := by
  have hlast : lastName path ≠ [] := by
    obtain ⟨he, ho⟩ := ordinary_fileName hname
    intro hnil
    exact ho.nonempty (by rw [he, hnil, List.reverse_nil])
  obtain ⟨j, hfront⟩ := parts_front h
  obtain ⟨k, hpath⟩ := parts_lastName hlast
  rw [hpath, hfront]
  simp

theorem Above.parent (h : Above path other) :
    ∃ parent, Path.parent? path = some parent ∧ Through parent other := by
  obtain ⟨parent, hparent, habove⟩ := Relation.TransGen.head'_iff.1 h
  refine ⟨parent, hparent, ?_⟩
  clear hparent h
  induction habove with
  | refl => exact ⟨List.prefix_rfl, List.prefix_rfl⟩
  | tail _ hp ih => exact ih.trans (through_parent hp)

theorem above_of_ancestor {parent : String} {fuel : Nat} (hp : Path.parent? path = some parent)
    (h : other ∈ ancestors fuel parent) : Above path other := by
  induction fuel generalizing path parent with
  | zero =>
    obtain rfl := List.mem_singleton.1 h
    exact .single hp
  | succ fuel ih =>
    rw [ancestors] at h
    obtain rfl | h := List.mem_cons.1 h
    · exact .single hp
    · cases hnext : Path.parent? parent with
      | none => simp [hnext] at h
      | some next =>
        rw [hnext] at h
        exact .head hp (ih hnext h)

theorem Above.through (h : Above path other) : Through path other := by
  obtain ⟨parent, hp, hthrough⟩ := h.parent
  exact (through_parent hp).trans hthrough

theorem Above.components_ne {name : String} (hname : Path.fileName? path = some name)
    (h : Above path other) : components other ≠ components path := by
  obtain ⟨parent, hp, hthrough⟩ := h.parent
  have hlength := components_parent_length hname hp
  have hle := hthrough.components.length_le
  intro he
  rw [he] at hle
  omega

theorem walk_start {p q : Place} {names start : List String} (h : d.walk p names = .ok q)
    (hs : start <+: names) : ∃ r, d.walk p start = .ok r := by
  induction names generalizing p start with
  | nil =>
    obtain rfl := List.prefix_nil.1 hs
    exact ⟨p, rfl⟩
  | cons name rest ih =>
    cases start with
    | nil => exact ⟨p, rfl⟩
    | cons x start =>
      obtain ⟨rfl, hrest⟩ := List.cons_prefix_cons.1 hs
      rw [walk] at h ⊢
      dsimp only at h ⊢
      split at h
      · cases h
      next hlength =>
        rw [if_neg hlength]
        split at h
        · cases h
        · cases h
        · exact ih h hrest

theorem walk_short {p q : Place} {names : List String} (h : d.walk p names = .ok q)
    {name : String} (hname : name ∈ names) : ¬ 255 < (Text.encode name).length := by
  induction names generalizing p with
  | nil => cases hname
  | cons first rest ih =>
    rw [walk] at h
    dsimp only at h
    split at h
    · cases h
    next hlength =>
      obtain rfl | hname := List.mem_cons.1 hname
      · exact hlength
      · split at h
        · cases h
        · cases h
        · exact ih h hname

theorem utf8ByteSize_le_of_prefix {s t : String} (h : s.toList <+: t.toList) :
    s.utf8ByteSize ≤ t.utf8ByteSize := by
  obtain ⟨rest, hrest⟩ := h
  have ht : t = s ++ String.ofList rest := by
    rw [← String.toList_inj, String.toList_append, String.toList_ofList, hrest]
  rw [ht, String.utf8ByteSize_append]
  exact Nat.le_add_right _ _

/-- Where a path leads somewhere, so do the directories above it. -/
theorem locate_through (h : d.locate path = .ok t) (hthrough : Through path other)
    (hne : other.isEmpty = false) (hlt : components other ≠ components path) :
    ∃ u, d.locate other = .ok u := by
  have hstart := hthrough.startOf hne d.home
  obtain ⟨hc, -⟩ | ⟨before, last, dir, hc, hdir, -⟩ := locate_cases h
  · -- A path without components has no longer one above it.
    refine absurd ?_ hlt
    rw [hc]
    exact List.prefix_nil.1 (hc ▸ hthrough.components)
  have hbefore : components other <+: before := by
    have := hthrough.components
    rw [hc] at this hlt
    exact (List.prefix_concat_iff.1 this).resolve_left hlt
  unfold Disk.locate at h ⊢
  dsimp only at h ⊢
  split at h
  · cases h
  split at h
  · cases h
  next hnul =>
    split at h
    · cases h
    next hsize =>
      have hempty : ¬ other.toList.isEmpty = true := by
        rw [List.isEmpty_iff, String.toList_eq_nil_iff]
        rintro rfl
        cases hne
      have hnul' : ¬ other.toList.contains '\x00' = true := by
        rw [List.contains_iff_mem] at hnul ⊢
        exact fun hm => hnul (hthrough.text.subset hm)
      have hsize' : ¬ pathLimit < other.utf8ByteSize := by
        have := utf8ByteSize_le_of_prefix hthrough.text
        omega
      rw [if_neg hempty, if_neg hnul', if_neg hsize']
      split
      · exact ⟨_, rfl⟩
      next last' before' hc' =>
        have hcs : components other = before'.reverse ++ [last'] := by
          rw [← List.reverse_reverse (components other), hc', List.reverse_cons]
        rw [hcs] at hbefore
        obtain ⟨q, hq⟩ := walk_start hdir ((List.prefix_append _ _).trans hbefore)
        have hlast : last' ∈ before'.reverse ++ [last'] := by simp
        have hshort := walk_short hdir (hbefore.subset hlast)
        rw [← hstart, startOf] at hq
        rw [hq]
        dsimp only
        rw [if_neg hshort]
        exact ⟨_, rfl⟩

theorem startOf_of_components_nil (hne : other.isEmpty = false) (hc : components other = [])
    (home : Place) : startOf home other = [] := by
  unfold startOf
  cases hcs : other.toList with
  | nil =>
    rw [String.toList_eq_nil_iff.1 hcs] at hne
    cases hne
  | cons c cs =>
    by_cases hslash : c = '/'
    · simp [hslash]
    · -- A first character that is no slash would begin a component.
      refine absurd hc ?_
      rw [components_eq, hcs, parts, splitWhere, if_neg (by simpa using hslash)]
      split <;> simp

theorem isDir_above (hroot : d.node? [] = some .directory) {name : String}
    (hname : Path.fileName? path = some name) (h : d.locate path = .ok t)
    (habove : Above path other) (hne : other.isEmpty = false) : d.isDir other = true := by
  have hlt := habove.components_ne hname
  obtain ⟨u, hu⟩ := locate_through h habove.through hne hlt
  have hnode : d.node? u.place = some .directory := by
    rw [locate_place hu, placeOf]
    by_cases hc : components other = []
    · rw [hc, startOf_of_components_nil hne hc]
      exact hroot
    · rw [habove.through.startOf hne]
      exact locate_directory h habove.through.components hc hlt
  simp [isDir, stat, hu, hnode]

theorem prefix_foldl_stepInto {names : List String} (h : ".." ∉ names) (p : Place) :
    p <+: names.foldl stepInto p := by
  induction names generalizing p with
  | nil => exact List.prefix_rfl
  | cons name rest ih =>
    rw [List.mem_cons, not_or] at h
    rw [List.foldl_cons]
    refine List.IsPrefix.trans ?_ (ih h.2 _)
    rw [stepInto, if_neg (Ne.symm h.1)]
    split
    · exact List.prefix_rfl
    · exact List.prefix_append _ _

theorem Through.place (h : Through path other) (hne : other.isEmpty = false)
    (hdots : ".." ∉ Disk.components path) (home : Place) :
    placeOf home other <+: placeOf home path := by
  obtain ⟨rest, hrest⟩ := h.components
  have hdots' : ".." ∉ rest := fun hm => hdots (hrest ▸ List.mem_append_right _ hm)
  rw [placeOf, placeOf, h.startOf hne, ← hrest, List.foldl_append]
  exact prefix_foldl_stepInto hdots' _

/-- The directories above a path are none of the places where it leads, or they are all there. -/
inductive Settled (d : Disk) (path : String) : Prop
  | straight (h : ".." ∉ components path)
  | opened {t : Target} (h : d.locate path = .ok t)

theorem Settled.node {name : String} {paths : List String} (hs : Settled d path)
    (hname : Path.fileName? path = some name)
    (hpaths : ∀ other ∈ paths, Above path other) (h : Makes paths d d') :
    d'.node? (placeOf d.home path) = d.node? (placeOf d.home path) := by
  have hplace := placeOf_parent hname d.home
  cases hs with
  | straight hdots =>
    refine h.elsewhere fun other hmem hne he => ?_
    obtain ⟨parent, hp, hthrough⟩ := (hpaths other hmem).parent
    have hdots' : ".." ∉ components parent := fun hm =>
      hdots ((through_parent hp).components.subset hm)
    have hle := (hthrough.place hne hdots' d.home).length_le
    rw [← he, hplace, hp, Option.getD_some, List.length_append, List.length_singleton] at hle
    omega
  | opened hl =>
    have hsame : Same [] d d' := h.same fun other hmem hne hcs _ => by
      have habove := hpaths other hmem
      rw [placeOf, habove.through.startOf hne]
      exact locate_directory hl habove.through.components hcs (habove.components_ne hname)
    refine hsame.node _ ⟨List.nil_prefix, ?_⟩
    rw [hplace]
    simp

end Anneal.Disk
