import Anneal.Proofs.Disk.Follow

/-! The parent of a path, and the paths that creating the directories on the way to it comes by.
Each of them begins the path, in its text and in its components. -/

namespace Anneal.Disk

variable {path : String}

theorem trimBack_suffix (cs : List Char) : Path.trimBack cs <:+ cs := by
  fun_induction Path.trimBack cs with
  | case1 c rest ih => exact ih.trans (List.suffix_cons _ _)
  | case2 rest ih => exact ih.trans (List.suffix_cons _ _)
  | case3 cs => exact List.suffix_rfl

theorem trimBack_eq_nil {cs : List Char} (h : Path.trimBack cs = []) : cs = [] := by
  fun_induction Path.trimBack cs with
  | case1 c rest ih => cases ih h
  | case2 rest ih => cases ih h
  | case3 cs => exact h

theorem reversed_starts (path : String) : (Path.reversed path).reverse <+: path.toList := by
  rw [← List.reverse_suffix, List.reverse_reverse]
  exact trimBack_suffix _

theorem front_starts (path : String) : front path <+: path.toList := by
  refine List.IsPrefix.trans ?_ (reversed_starts path)
  rw [reversed_cut]
  exact List.prefix_append _ _

theorem parts_front_first (path : String) : parts (front path) <+: components path := by
  by_cases hlast : lastName path = []
  · obtain ⟨k, hk⟩ := parts_trimBack path.toList.reverse
    have hcut := reversed_cut path
    rw [hlast, List.reverse_nil, List.append_nil] at hcut
    rw [List.reverse_reverse] at hk
    rw [components_eq, hk, show Path.trimBack path.toList.reverse = Path.reversed path from rfl,
      hcut]
    exact List.prefix_append _ _
  · obtain ⟨k, hk⟩ := parts_lastName hlast
    rw [hk]
    exact List.prefix_append _ _

variable {parent : String}

theorem parent?_toList (h : Path.parent? path = some parent) :
    parent.toList = (Path.trimBack (front path).reverse).reverse := by
  unfold Path.parent? at h
  dsimp only at h
  split at h
  · cases h
  · rw [← Option.some.inj h, String.toList_ofList, front, List.reverse_reverse]

theorem parts_front (h : Path.parent? path = some parent) :
    ∃ k, parts (front path) = components parent ++ List.replicate k "." := by
  obtain ⟨k, hk⟩ := parts_trimBack (front path).reverse
  rw [List.reverse_reverse, ← parent?_toList h] at hk
  exact ⟨k, hk⟩

structure Through (path other : String) : Prop where
  text : other.toList <+: path.toList
  components : components other <+: components path

theorem Through.trans {other third : String} (h : Through path other) (h' : Through other third) :
    Through path third :=
  ⟨h'.text.trans h.text, h'.components.trans h.components⟩

theorem through_parent (h : Path.parent? path = some parent) : Through path parent where
  text := by
    have hfront : parent.toList <+: front path := by
      rw [parent?_toList h, ← List.reverse_suffix, List.reverse_reverse]
      exact trimBack_suffix _
    exact hfront.trans (front_starts path)
  components := by
    obtain ⟨k, hk⟩ := parts_front h
    refine List.IsPrefix.trans ?_ (parts_front_first path)
    rw [hk]
    exact List.prefix_append _ _

theorem Through.startOf {other : String} (h : Through path other) (hne : other.isEmpty = false)
    (home : Place) : startOf home other = startOf home path := by
  have hcs : other.toList ≠ [] := fun he => by simp [String.toList_eq_nil_iff.1 he] at hne
  obtain ⟨c, cs, hcs⟩ := List.exists_cons_of_ne_nil hcs
  obtain ⟨rest, hrest⟩ := h.text
  unfold Disk.startOf
  rw [← hrest, hcs]
  rfl

theorem through_ancestor {fuel : Nat} {other : String} (h : other ∈ ancestors fuel path) :
    Through path other := by
  induction fuel generalizing path with
  | zero =>
    obtain rfl := List.mem_singleton.1 h
    exact ⟨List.prefix_rfl, List.prefix_rfl⟩
  | succ fuel ih =>
    rw [ancestors] at h
    rcases List.mem_cons.1 h with rfl | h
    · exact ⟨List.prefix_rfl, List.prefix_rfl⟩
    · cases hp : Path.parent? path with
      | none => simp [hp] at h
      | some parent =>
        rw [hp] at h
        exact (through_parent hp).trans (ih h)

/-- A path with a file name leads to that name in its parent. -/
theorem placeOf_parent {name : String} (h : Path.fileName? path = some name) (home : Place) :
    placeOf home path = placeOf home ((Path.parent? path).getD "") ++ [name] := by
  obtain ⟨hname, ho⟩ := ordinary_fileName h
  have hlast : (lastName path).reverse ≠ [] := hname ▸ ho.nonempty
  have hcut := reversed_cut path
  rw [placeOf_fileName h home]
  congr 1
  cases hp : Path.parent? path with
  | none =>
    -- Only a path of slashes and dots has no parent, and that has no file name.
    exfalso
    unfold Path.parent? at hp
    dsimp only at hp
    split at hp
    next hroot =>
      simp only [Bool.or_eq_true, List.isEmpty_iff, beq_iff_eq] at hroot
      apply hlast
      unfold lastName
      rcases hroot with hroot | hroot <;> rw [hroot] <;> rfl
    · cases hp
  | some parent =>
    obtain ⟨k, hk⟩ := parts_front hp
    have hstart : startOf home parent = startOf home path := by
      by_cases he : parent.isEmpty = true
      · have hfront : front path = [] := by
          have htext := parent?_toList hp
          rw [String.isEmpty_iff.1 he] at htext
          exact List.reverse_eq_nil_iff.1 (trimBack_eq_nil (List.reverse_eq_nil_iff.1 htext.symm))
        have hhead : path.toList.head? ≠ some '/' := by
          obtain ⟨c, cs, hcs⟩ := List.exists_cons_of_ne_nil hlast
          obtain ⟨rest, hrest⟩ := reversed_starts path
          rw [hcut, hfront, List.nil_append, hcs] at hrest
          rw [← hrest]
          intro hc
          obtain rfl := Option.some.inj hc
          exact slash_notMem_lastName path (hcs ▸ List.mem_cons_self)
        rw [String.isEmpty_iff.1 he, startOf, startOf, if_neg hhead]
        rfl
      · exact (through_parent hp).startOf (Bool.eq_false_iff.2 he) home
    rw [hk, List.foldl_append, foldl_stepInto_dots, Option.getD_some, placeOf, hstart]

end Anneal.Disk
