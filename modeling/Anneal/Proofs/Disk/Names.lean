import Anneal.Proofs.Disk.Parents
import Anneal.Toolchain

/-! Names and what is derived from them: a name is cut at its last dot, a file lies beside another
one, and an executable lies beside its source. -/

namespace Anneal

namespace Path

inductive Split (name : String) : String × Option String → Prop
  | whole : Split name (name, none)
  | cut {stem extension : String} (hname : name = stem ++ "." ++ extension)
      (hstem : stem.toList ≠ []) (hdot : '.' ∉ extension.toList) :
      Split name (stem, some extension)

theorem splitName_split (name : String) : Split name (splitName name) := by
  unfold splitName
  dsimp only
  split
  next dot c stem hback =>
    have hdot : dot = '.' := by
      have hhead := List.head?_dropWhile_not (· != '.') name.toList.reverse
      rw [hback] at hhead
      simpa using hhead
    have hcut := List.takeWhile_append_dropWhile (p := (· != '.')) (l := name.toList.reverse)
    rw [hback, hdot] at hcut
    refine .cut ?_ (by simp) ?_
    · rw [← String.toList_inj, ← List.reverse_inj]
      exact hcut.symm.trans (by simp)
    · rw [String.toList_ofList, List.mem_reverse]
      intro h
      simpa using List.mem_takeWhile_imp h
  next => exact .whole

theorem splitName_append {stem extension : String} (hstem : stem.toList ≠ [])
    (hdot : '.' ∉ extension.toList) :
    splitName (stem ++ "." ++ extension) = (stem, some extension) := by
  have hback : (stem ++ "." ++ extension).toList.reverse =
      extension.toList.reverse ++ '.' :: stem.toList.reverse := by simp
  have hall : ∀ c ∈ extension.toList.reverse, (c != '.') = true := fun c hc =>
    bne_iff_ne.2 fun he => hdot (he ▸ List.mem_reverse.1 hc)
  obtain ⟨c, rest, hrest⟩ := List.exists_cons_of_ne_nil (List.reverse_ne_nil_iff.2 hstem)
  unfold splitName
  dsimp only
  rw [hback, List.dropWhile_append_of_pos hall, List.takeWhile_append_of_pos hall,
    List.dropWhile_cons_of_neg (by simp), List.takeWhile_cons_of_neg (by simp), hrest]
  dsimp only
  rw [← hrest, List.reverse_reverse, String.ofList_toList, List.append_nil, List.reverse_reverse,
    String.ofList_toList]

theorem stem_of_ordinary {name : String} (h : Disk.Ordinary name) :
    (splitName name).1.toList ≠ [] ∧ '/' ∉ (splitName name).1.toList := by
  have hsplit := splitName_split name
  revert hsplit
  generalize splitName name = cut
  rintro (_ | ⟨rfl, hstem, -⟩)
  · exact ⟨h.nonempty, h.slash⟩
  · exact ⟨hstem, fun hs => h.slash (by simp [hs])⟩

end Path

namespace Disk

theorem trimBack_name {name : String} (h : Ordinary name) (before : List Char) :
    Path.trimBack (name.toList.reverse ++ before) = name.toList.reverse ++ before := by
  obtain ⟨c, rest, hback⟩ := List.exists_cons_of_ne_nil (List.reverse_ne_nil_iff.2 h.nonempty)
  have hslash : ∀ b ∈ name.toList.reverse, b ≠ '/' := fun b hb he =>
    h.slash (he ▸ List.mem_reverse.1 hb)
  rw [hback] at hslash ⊢
  have hc := hslash c List.mem_cons_self
  unfold Path.trimBack
  split
  next he => exact absurd (List.cons_eq_cons.1 he).1 hc
  next he =>
    -- A dot before a slash would be the whole name.
    obtain ⟨rfl, hrest⟩ := List.cons_eq_cons.1 he
    cases rest with
    | nil =>
      have hname : name.toList = ['.'] := by
        rw [← List.reverse_reverse name.toList, hback]
        rfl
      exact absurd (String.toList_inj.1 hname) h.dot
    | cons b rest => exact absurd (List.cons_eq_cons.1 hrest).1 (hslash b (by simp))
  next => rfl

theorem fileName?_join {name : String} (h : Ordinary name) (dir : String) :
    Path.fileName? (Path.join dir name) = some name := by
  obtain ⟨a, ha, hend, -, -⟩ := join_toList dir h
  have hall : ∀ c ∈ name.toList.reverse, (c != '/') = true := fun c hc =>
    bne_iff_ne.2 fun he => h.slash (he ▸ List.mem_reverse.1 hc)
  have hstop : a.reverse.takeWhile (· != '/') = [] := by
    rcases hend with rfl | hend
    · rfl
    · obtain ⟨b, rfl⟩ := List.getLast?_eq_some_iff.1 hend
      simp
  have hlast : ((Path.reversed (Path.join dir name)).takeWhile (· != '/')).reverse =
      name.toList := by
    rw [Path.reversed, ha, List.reverse_append, trimBack_name h,
      List.takeWhile_append_of_pos hall, hstop, List.append_nil, List.reverse_reverse]
  unfold Path.fileName?
  dsimp only
  rw [hlast, String.ofList_toList, if_neg]
  simp only [Bool.or_eq_true, List.isEmpty_iff, beq_iff_eq, not_or]
  exact ⟨⟨h.nonempty, fun hd => h.dot (String.toList_inj.1 hd)⟩,
    fun hd => h.dots (String.toList_inj.1 hd)⟩

theorem placeOf_temporary {path name : String} (h : Path.fileName? path = some name)
    (home : Place) :
    placeOf home (Artifact.temporary path) = (placeOf home path).dropLast ++ [name ++ ".tmp"] := by
  rw [Artifact.temporary, Path.withFileName, h]
  dsimp only [Option.getD_some]
  rw [placeOf_join (ordinary_tmp (ordinary_fileName h).2.slash), placeOf_parent h,
    List.dropLast_concat]

/-- An executable lies beside its source, under the stem of its name. -/
theorem placeOf_executableFor {path name : String} (h : Path.fileName? path = some name)
    (home : Place) :
    placeOf home (executableFor path) =
      stepInto (placeOf home path).dropLast (Path.splitName name).1 := by
  obtain ⟨hname, ho⟩ := ordinary_fileName h
  obtain ⟨hne, hslash⟩ := Path.stem_of_ordinary ho
  have hexecutable : (executableFor path).toList =
      front path ++ (Path.splitName name).1.toList := by
    rw [executableFor, Path.withoutExtension, Path.fileStem?, h]
    simp [front]
  have hstart : startOf home (executableFor path) = startOf home path := by
    unfold startOf
    rw [hexecutable]
    cases hfront : front path with
    | cons c rest =>
      obtain ⟨more, hmore⟩ := front_starts path
      rw [← hmore, hfront]
      rfl
    | nil =>
      -- Neither the stem nor the name begins with a slash.
      obtain ⟨more, hmore⟩ := reversed_starts path
      rw [reversed_cut, hfront, List.nil_append, ← hname] at hmore
      have hhead {cs : List Char} (hcs : '/' ∉ cs) : cs.head? ≠ some '/' :=
        fun hc => hcs (List.mem_of_mem_head? hc)
      obtain ⟨c, rest, hcs⟩ := List.exists_cons_of_ne_nil ho.nonempty
      have hpath : path.toList.head? ≠ some '/' := by
        rw [← hmore, hcs]
        have := hhead ho.slash
        rwa [hcs] at this
      rw [List.nil_append, if_neg (hhead hslash), if_neg hpath]
  rw [placeOf_fileName h, List.dropLast_concat, placeOf, hstart, components_eq, hexecutable,
    parts_append_name (front_ends path) hne hslash, List.foldl_append, String.ofList_toList]
  rfl

end Disk
end Anneal
