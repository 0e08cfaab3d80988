import Anneal.Artifact
import Anneal.Proofs.Text.Lines
import Mathlib.Data.List.TakeWhile

/-! Where paths lead. The place of a path hangs on the working directory only; the disk decides
whether the way there is open. -/

namespace Anneal.Disk

open Anneal.Text (splitWhere splitWhere_append splitWhere_whole)

def startOf (home : Place) (path : String) : Place :=
  if path.toList.head? = some '/' then [] else home

/-- The place of a path, where its way is open. -/
def placeOf (home : Place) (path : String) : Place :=
  (components path).foldl stepInto (startOf home path)

theorem walk_place {d : Disk} {p q : Place} {names : List String} (h : d.walk p names = .ok q) :
    q = names.foldl stepInto p := by
  induction names generalizing p with
  | nil =>
    cases h
    rfl
  | cons name rest ih =>
    rw [walk] at h
    dsimp only at h
    split at h
    · cases h
    · split at h
      · cases h
      · cases h
      · exact ih h

/-- A path is followed up to its last component, if it has any. -/
theorem locate_cases {d : Disk} {path : String} {t : Target} (h : d.locate path = .ok t) :
    (components path = [] ∧ t.place = startOf d.home path ∧ t.named = false) ∨
      ∃ before last dir, components path = before ++ [last] ∧
        d.walk (startOf d.home path) before = .ok dir ∧ t.place = stepInto dir last := by
  unfold locate at h
  dsimp only at h
  split at h
  · cases h
  split at h
  · cases h
  split at h
  · cases h
  split at h
  next hc =>
    cases h
    exact .inl ⟨List.reverse_eq_nil_iff.1 hc, rfl, rfl⟩
  next last before hc =>
    have hcs : components path = before.reverse ++ [last] := by
      rw [← List.reverse_reverse (components path), hc, List.reverse_cons]
    split at h
    · cases h
    next dir hdir =>
      split at h
      · cases h
      · cases h
        exact .inr ⟨before.reverse, last, dir, hcs, hdir, rfl⟩

theorem locate_place {d : Disk} {path : String} {t : Target} (h : d.locate path = .ok t) :
    t.place = placeOf d.home path := by
  obtain ⟨hc, ht, -⟩ | ⟨before, last, dir, hc, hdir, ht⟩ := locate_cases h
  · rw [ht, placeOf, hc]
    rfl
  · rw [ht, placeOf, hc, List.foldl_append, walk_place hdir]
    rfl

def parts (cs : List Char) : List String :=
  ((splitWhere (· == '/') cs).filter fun c => !c.isEmpty).map String.ofList

theorem components_eq (path : String) : components path = parts path.toList := rfl

@[simp] theorem parts_nil : parts [] = [] := rfl

theorem parts_slash (a b : List Char) : parts (a ++ '/' :: b) = parts a ++ parts b := by
  simp [parts, splitWhere_append (p := (· == '/')) (c := '/') rfl]

theorem parts_name {n : List Char} (hn : n ≠ []) (hs : '/' ∉ n) : parts n = [String.ofList n] := by
  have hp : ∀ c ∈ n, (c == '/') = false := fun c hc =>
    beq_false_of_ne fun he => hs (he ▸ hc)
  rw [parts, splitWhere_whole hp]
  simp [hn]

theorem parts_append_name {a n : List Char} (ha : a = [] ∨ a.getLast? = some '/') (hn : n ≠ [])
    (hs : '/' ∉ n) : parts (a ++ n) = parts a ++ [String.ofList n] := by
  rcases ha with rfl | ha
  · rw [List.nil_append, parts_name hn hs, parts_nil, List.nil_append]
  · obtain ⟨b, rfl⟩ := List.getLast?_eq_some_iff.1 ha
    rw [List.append_assoc, List.singleton_append, parts_slash, parts_slash, parts_name hn hs,
      parts_nil, List.append_nil]

/-- What is dropped from the end of a path is slashes and components that stay where they are. -/
theorem parts_trimBack (cs : List Char) :
    ∃ k, parts cs.reverse = parts (Path.trimBack cs).reverse ++ List.replicate k "." := by
  fun_induction Path.trimBack cs with
  | case1 c rest ih =>
    obtain ⟨k, hk⟩ := ih
    refine ⟨k, ?_⟩
    rw [List.reverse_cons, parts_slash, parts_nil, List.append_nil, hk]
  | case2 rest ih =>
    obtain ⟨k, hk⟩ := ih
    refine ⟨k + 1, ?_⟩
    have hrest : parts ('/' :: rest).reverse = parts rest.reverse := by
      rw [List.reverse_cons, parts_slash, parts_nil, List.append_nil]
    have hdot : parts ('.' :: '/' :: rest).reverse = parts rest.reverse ++ ["."] := by
      rw [List.reverse_cons, List.reverse_cons, List.append_assoc, List.singleton_append,
        parts_slash, parts_name (n := ['.']) (by simp) (by decide)]
    rw [hdot, ← hrest, hk, List.append_assoc, List.replicate_succ']
  | case3 cs => exact ⟨0, by simp⟩

theorem foldl_stepInto_dots (k : Nat) (p : Place) :
    (List.replicate k ".").foldl stepInto p = p := by
  induction k with
  | zero => rfl
  | succ k ih => rw [List.replicate_succ, List.foldl_cons, stepInto, if_pos rfl, ih]

structure Ordinary (name : String) : Prop where
  nonempty : name.toList ≠ []
  slash : '/' ∉ name.toList
  dot : name ≠ "."
  dots : name ≠ ".."

theorem Ordinary.stepInto {name : String} (h : Ordinary name) (p : Place) :
    stepInto p name = p ++ [name] := by
  rw [Disk.stepInto, if_neg h.dot, if_neg h.dots]

def lastName (path : String) : List Char := (Path.reversed path).takeWhile (· != '/')

theorem slash_notMem_lastName (path : String) : '/' ∉ (lastName path).reverse := by
  intro h
  have := List.mem_takeWhile_imp (List.mem_reverse.1 h)
  simp at this

def front (path : String) : List Char := ((Path.reversed path).dropWhile (· != '/')).reverse

theorem front_ends (path : String) : front path = [] ∨ (front path).getLast? = some '/' := by
  unfold front
  rw [List.getLast?_reverse]
  cases hd : (Path.reversed path).dropWhile (· != '/') with
  | nil => exact .inl rfl
  | cons c rest =>
    have hc := List.head?_dropWhile_not (· != '/') (Path.reversed path)
    rw [hd] at hc
    right
    simpa using hc

theorem reversed_cut (path : String) :
    (Path.reversed path).reverse = front path ++ (lastName path).reverse := by
  rw [front, lastName, ← List.reverse_append, List.takeWhile_append_dropWhile]

theorem parts_lastName {path : String} (h : lastName path ≠ []) :
    ∃ k, components path =
      parts (front path) ++ String.ofList (lastName path).reverse :: List.replicate k "." := by
  obtain ⟨k, hk⟩ := parts_trimBack path.toList.reverse
  rw [List.reverse_reverse] at hk
  refine ⟨k, ?_⟩
  rw [components_eq, hk, show Path.trimBack path.toList.reverse = Path.reversed path from rfl,
    reversed_cut, parts_append_name (front_ends path) (by simpa using h)
    (slash_notMem_lastName path), List.append_assoc]
  rfl

theorem ordinary_fileName {path name : String} (h : Path.fileName? path = some name) :
    name.toList = (lastName path).reverse ∧ Ordinary name := by
  unfold Path.fileName? at h
  dsimp only at h
  rw [← lastName] at h
  split at h
  · cases h
  next hn =>
    simp only [Bool.or_eq_true, List.isEmpty_iff, beq_iff_eq, not_or] at hn
    obtain rfl := Option.some.inj h
    rw [String.toList_ofList]
    refine ⟨rfl, ⟨?_, ?_, fun he => hn.1.2 ?_, fun he => hn.2 ?_⟩⟩
    · rw [String.toList_ofList]
      exact hn.1.1
    · rw [String.toList_ofList]
      exact slash_notMem_lastName path
    · exact String.ofList_injective he
    · exact String.ofList_injective he

theorem placeOf_fileName {path name : String} (h : Path.fileName? path = some name)
    (home : Place) :
    placeOf home path = (parts (front path)).foldl stepInto (startOf home path) ++ [name] := by
  obtain ⟨hname, ho⟩ := ordinary_fileName h
  have hne : lastName path ≠ [] := by
    intro hl
    exact ho.nonempty (by rw [hname, hl, List.reverse_nil])
  obtain ⟨k, hcs⟩ := parts_lastName hne
  rw [← hname, String.ofList_toList] at hcs
  rw [placeOf, hcs, List.foldl_append, List.foldl_cons, foldl_stepInto_dots, ho.stepInto]

/-- The characters in front of a name that is put below a directory. -/
theorem join_toList (dir : String) {name : String} (h : Ordinary name) :
    ∃ a, (Path.join dir name).toList = a ++ name.toList ∧ (a = [] ∨ a.getLast? = some '/') ∧
      parts a = components dir ∧ a.head? = dir.toList.head? := by
  have hhead : ¬ (name.toList.head? == some '/') = true := by
    intro hh
    exact h.slash (List.mem_of_mem_head? (by simpa using hh))
  unfold Path.join
  rw [if_neg hhead]
  split
  next hd =>
    simp only [Bool.or_eq_true, String.isEmpty_iff, beq_iff_eq] at hd
    refine ⟨dir.toList, String.toList_append, hd.imp (fun hd => ?_) id, rfl, rfl⟩
    simp [hd]
  next hd =>
    simp only [Bool.or_eq_true, String.isEmpty_iff, not_or] at hd
    refine ⟨dir.toList ++ ['/'], by simp, by simp, ?_, ?_⟩
    · rw [parts_slash, parts_nil, List.append_nil, components_eq]
    · cases hs : dir.toList with
      | nil => exact absurd (String.toList_eq_nil_iff.1 hs) hd.1
      | cons c cs => rfl

theorem startOf_join {dir name : String} (h : Ordinary name) (home : Place) :
    startOf home (Path.join dir name) = startOf home dir := by
  obtain ⟨a, ha, -, -, hhead⟩ := join_toList dir h
  unfold startOf
  rw [ha, ← hhead]
  cases a with
  | nil =>
    have hn : name.toList.head? ≠ some '/' := fun hn => h.slash (List.mem_of_mem_head? hn)
    simp [hn]
  | cons c a => rfl

theorem components_join {dir name : String} (h : Ordinary name) :
    components (Path.join dir name) = components dir ++ [name] := by
  obtain ⟨a, ha, hend, hparts, -⟩ := join_toList dir h
  rw [components_eq, ha, parts_append_name hend h.nonempty h.slash, hparts, String.ofList_toList]

theorem placeOf_ne_of_fileName {path path' name name' : String}
    (h : Path.fileName? path = some name) (h' : Path.fileName? path' = some name')
    (hne : name ≠ name') (home : Place) : placeOf home path ≠ placeOf home path' := by
  rw [placeOf_fileName h, placeOf_fileName h']
  exact fun he => hne (List.singleton_inj.1 (List.append_inj_right' he rfl))

theorem placeOf_join {dir name : String} (h : Ordinary name) (home : Place) :
    placeOf home (Path.join dir name) = placeOf home dir ++ [name] := by
  rw [placeOf, components_join h, startOf_join h, List.foldl_append, List.foldl_cons,
    List.foldl_nil, h.stepInto]
  rfl

theorem length_tmp (name : String) : (name ++ ".tmp").length = name.length + 4 :=
  String.length_append name ".tmp"

theorem ordinary_tmp {name : String} (h : '/' ∉ name.toList) : Ordinary (name ++ ".tmp") := by
  have hl := length_tmp name
  refine ⟨by simp, by simpa using h, fun he => ?_, fun he => ?_⟩
  · rw [he] at hl
    have : ("." : String).length = 1 := rfl
    omega
  · rw [he] at hl
    have : (".." : String).length = 2 := rfl
    omega

/-- The file beside a path is another file. -/
theorem placeOf_temporary_ne (home : Place) (path : String) :
    placeOf home (Artifact.temporary path) ≠ placeOf home path := by
  unfold Artifact.temporary Path.withFileName
  cases hname : Path.fileName? path with
  | none =>
    rw [placeOf_join (ordinary_tmp (by simp)) home]
    intro he
    simpa using congrArg List.length he
  | some name =>
    dsimp only [Option.getD_some]
    rw [placeOf_join (ordinary_tmp (ordinary_fileName hname).2.slash) home,
      placeOf_fileName hname home]
    intro he
    have hn : name ++ ".tmp" = name := List.singleton_inj.1 (List.append_inj_right' he rfl)
    have hl := length_tmp name
    rw [hn] at hl
    omega

end Anneal.Disk
