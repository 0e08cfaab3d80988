import Anneal.Json.FieldPath
import Anneal.Proofs.Json.Numbers
import Anneal.Proofs.Lists
import Anneal.Proofs.Text.Lines

/-! The language of field paths, said by what a path is made of, and the reader, which accepts
just this language. A path is cut at its dots first, so a dot between brackets ends the part. -/

namespace Anneal.FieldPath

open Text Decimal

variable {cs : List Char} {steps : List Step} {i : Nat}

structure Digits (cs : List Char) (i : Nat) : Prop where
  nonempty : cs ≠ []
  digits : ∀ c ∈ cs, c.isDigit = true
  value : Nat.ofDigitChars 10 cs 0 = i
  small : i < Word.bound 64

inductive Numeral : List Char → Nat → Prop where
  | plain {cs : List Char} {i : Nat} : Digits cs i → Numeral cs i
  | signed {cs : List Char} {i : Nat} : Digits cs i → Numeral ('+' :: cs) i

inductive Indexed : List Char → List Step → Prop where
  | nil : Indexed [] []
  | cons {numeral rest : List Char} {i : Nat} {steps : List Step} :
      Numeral numeral i → Indexed rest steps →
      Indexed ('[' :: (numeral ++ ']' :: rest)) (.index i :: steps)

structure IsKey (cs : List Char) : Prop where
  nonempty : cs ≠ []
  unopened : '[' ∉ cs
  unclosed : ']' ∉ cs

inductive Named : List Char → List Step → Prop where
  | mk {key rest : List Char} {steps : List Step} :
      IsKey key → Indexed rest steps → Named (key ++ rest) (.key (String.ofList key) :: steps)

inductive Leading : List Char → List Step → Prop where
  | named {cs : List Char} {steps : List Step} : Named cs steps → Leading cs steps
  | bare {cs : List Char} {steps : List Step} : cs ≠ [] → Indexed cs steps → Leading cs steps

/-- The parts of a path, and the steps that all of them together stand for. -/
inductive Spells : List (List Char) → List Step → Prop where
  | mk {first : List Char} {later : List (List Char)} {steps : List Step}
      {groups : List (List Step)} : Leading first steps → List.Forall₂ Named later groups →
      Spells (first :: later) (steps ++ groups.flatten)

theorem digits_iff : Digits cs i ↔
    (cs.isEmpty || !cs.all isDigit) = false ∧ natOfDigits cs < indexLimit ∧ natOfDigits cs = i := by
  have hdigits : cs.all isDigit = true ↔ ∀ c ∈ cs, c.isDigit = true := by
    simp only [List.all_eq_true, Json.isDigit_eq]
  have hlimit : indexLimit = Word.bound 64 := rfl
  rw [Json.natOfDigits_eq, hlimit]
  constructor
  · intro h
    have hall := hdigits.2 h.digits
    have hform : (cs.isEmpty || !cs.all isDigit) = false := by simp [h.nonempty, hall]
    exact ⟨hform, h.value ▸ h.small, h.value⟩
  · rintro ⟨hform, hlt, rfl⟩
    simp only [Bool.or_eq_false_iff, List.isEmpty_eq_false_iff, Bool.not_eq_false'] at hform
    exact ⟨hform.1, hdigits.1 hform.2, rfl, hlt⟩

theorem plus_not_digits (rest : List Char) : ¬ Digits ('+' :: rest) i := by
  intro h
  have hplus := h.digits '+' List.mem_cons_self
  revert hplus
  decide

theorem index?_eq_some_iff : index? cs = some i ↔ Numeral cs i := by
  have hread (digits : List Char) :
      (if (digits.isEmpty || !digits.all isDigit) = true then none
        else if natOfDigits digits < indexLimit then some (natOfDigits digits) else none) = some i ↔
        Digits digits i := by
    rw [digits_iff]
    split
    · simp [*]
    · split <;> simp [*]
  unfold index?
  dsimp only
  split
  next rest =>
    rw [hread]
    constructor
    · exact .signed
    · rintro (h | h)
      · exact absurd h (plus_not_digits rest)
      · exact h
  next hplus =>
    rw [hread]
    constructor
    · exact .plain
    · rintro (h | h)
      · exact h
      · exact absurd rfl (hplus _)

theorem Numeral.mem {c : Char} (h : Numeral cs i) (hc : c ∈ cs) : c = '+' ∨ c.isDigit = true := by
  cases h with
  | plain h => exact .inr (h.digits c hc)
  | signed h =>
    rcases List.mem_cons.1 hc with rfl | hc
    · exact .inl rfl
    · exact .inr (h.digits c hc)

theorem Numeral.small (h : Numeral cs i) : i < Word.bound 64 := by
  rcases h with h | h
  · exact h.small
  · exact h.small

theorem Numeral.closed (h : Numeral cs i) : ']' ∉ cs := by
  intro hc
  rcases h.mem hc with hc | hc
  · exact absurd hc (by decide)
  · exact absurd hc (by decide)

theorem indexes_of_indexed (h : Indexed cs steps) : indexes cs = .ok steps := by
  induction h with
  | nil => rw [indexes]
  | @cons numeral rest i steps hn hr ih =>
    rw [indexes, if_pos rfl, dropWhile_bne hn.closed, takeWhile_bne hn.closed]
    simp only [index?_eq_some_iff.2 hn, ih]

theorem indexed_of_indexes (h : indexes cs = .ok steps) : Indexed cs steps := by
  induction cs using indexes.induct generalizing steps with
  | case1 =>
    rw [indexes] at h
    cases h
    exact .nil
  | case2 inner hd =>
    rw [indexes, if_pos rfl, hd] at h
    cases h
  | case3 inner close rest hd hn =>
    rw [indexes, if_pos rfl, hd] at h
    simp only [hn] at h
    cases h
  | case4 inner close rest hd i hn e he =>
    rw [indexes, if_pos rfl, hd] at h
    simp only [hn, he] at h
    cases h
  | case5 inner close rest hd i hn more hr ih =>
    rw [indexes, if_pos rfl, hd] at h
    simp only [hn, hr] at h
    cases h
    have hinner : inner = inner.takeWhile (· != ']') ++ close :: rest := by
      rw [← hd, List.takeWhile_append_dropWhile]
    rw [hinner, eq_of_dropWhile_bne hd]
    exact .cons (index?_eq_some_iff.1 hn) (ih hr)
  | case6 c inner hc =>
    rw [indexes, if_neg hc] at h
    cases h

theorem Indexed.cut (h : Indexed cs steps) {key : List Char} (hkey : '[' ∉ key) :
    (key ++ cs).takeWhile (· != '[') = key ∧ (key ++ cs).dropWhile (· != '[') = cs := by
  cases h with
  | nil =>
    rw [List.append_nil]
    exact ⟨List.takeWhile_eq_self_iff.2 (bne_of_notMem hkey),
      List.dropWhile_eq_nil_iff.2 (bne_of_notMem hkey)⟩
  | cons hn hr => exact ⟨takeWhile_bne hkey _, dropWhile_bne hkey _⟩

theorem part_of_named (first : Bool) (h : Named cs steps) : part first cs = .ok steps := by
  obtain ⟨hkey, hr⟩ := h
  next key rest more =>
  obtain ⟨htake, hdrop⟩ := hr.cut hkey.unopened
  have hne : key.isEmpty = false := by simp [hkey.nonempty]
  have hclosed : key.contains ']' = false := by simp [hkey.unclosed]
  unfold part
  simp only [htake, hdrop, hne, hclosed, indexes_of_indexed hr]
  rfl

theorem part_of_bare (hne : cs ≠ []) (h : Indexed cs steps) : part true cs = .ok steps := by
  obtain ⟨htake, hdrop⟩ := @Indexed.cut cs steps h [] List.not_mem_nil
  rw [List.nil_append] at htake hdrop
  unfold part
  simp only [htake, hdrop, indexes_of_indexed h]
  simp [hne]

theorem cases_of_part {first : Bool} (h : part first cs = .ok steps) :
    Named cs steps ∨ first = true ∧ cs ≠ [] ∧ Indexed cs steps := by
  have hcs : cs.takeWhile (· != '[') ++ cs.dropWhile (· != '[') = cs :=
    List.takeWhile_append_dropWhile
  have hopen := notMem_takeWhile_bne '[' cs
  unfold part at h
  dsimp only at h
  generalize cs.takeWhile (· != '[') = key at h hcs hopen
  generalize cs.dropWhile (· != '[') = rest at h hcs
  subst hcs
  split at h
  next hkey =>
    rw [List.isEmpty_iff] at hkey
    subst hkey
    split at h
    · cases h
    next hform =>
      simp only [Bool.or_eq_true, Bool.not_eq_true', not_or, Bool.not_eq_true,
        Bool.not_eq_false, List.isEmpty_eq_false_iff] at hform
      exact .inr ⟨hform.2, hform.1, indexed_of_indexes h⟩
  next hkey =>
    split at h
    · cases h
    next hclosed =>
      split at h
      · cases h
      next more hr =>
        cases h
        exact .inl (.mk ⟨by simpa using hkey, hopen, by simpa using hclosed⟩
          (indexed_of_indexes hr))

theorem part_first_iff : part true cs = .ok steps ↔ Leading cs steps := by
  constructor
  · intro h
    rcases cases_of_part h with h | ⟨-, hne, h⟩
    · exact .named h
    · exact .bare hne h
  · rintro (h | ⟨hne, h⟩)
    · exact part_of_named true h
    · exact part_of_bare hne h

theorem part_later_iff : part false cs = .ok steps ↔ Named cs steps := by
  constructor
  · intro h
    rcases cases_of_part h with h | ⟨hfirst, -⟩
    · exact h
    · cases hfirst
  · exact part_of_named false

theorem parts_cons_iff {first : Bool} {later : List (List Char)} :
    parts first (cs :: later) = .ok steps ↔
      ∃ own more, part first cs = .ok own ∧ parts false later = .ok more ∧ own ++ more = steps := by
  rw [parts]
  constructor
  · intro h
    split at h
    · cases h
    next own hown =>
      split at h
      · cases h
      next more hmore =>
        cases h
        exact ⟨own, more, hown, hmore, rfl⟩
  · rintro ⟨own, more, hown, hmore, rfl⟩
    simp only [hown, hmore]

theorem parts_later_iff {later : List (List Char)} : parts false later = .ok steps ↔
    ∃ groups, List.Forall₂ Named later groups ∧ groups.flatten = steps := by
  induction later generalizing steps with
  | nil =>
    rw [parts, Except.ok.injEq]
    constructor
    · rintro rfl
      exact ⟨[], .nil, rfl⟩
    · rintro ⟨groups, ⟨⟩, rfl⟩
      rfl
  | cons cs later ih =>
    rw [parts_cons_iff]
    constructor
    · rintro ⟨own, more, hown, hmore, rfl⟩
      obtain ⟨groups, hgroups, rfl⟩ := ih.1 hmore
      exact ⟨own :: groups, .cons (part_later_iff.1 hown) hgroups, rfl⟩
    · rintro ⟨groups, h, rfl⟩
      cases h with
      | @cons _ own _ groups hown hgroups =>
        exact ⟨own, groups.flatten, part_later_iff.2 hown, ih.2 ⟨groups, hgroups, rfl⟩, rfl⟩

theorem parts_iff {all : List (List Char)} (hne : all ≠ []) :
    parts true all = .ok steps ↔ Spells all steps := by
  cases all with
  | nil => exact absurd rfl hne
  | cons first later =>
    rw [parts_cons_iff]
    constructor
    · rintro ⟨own, more, hown, hmore, rfl⟩
      obtain ⟨groups, hgroups, rfl⟩ := parts_later_iff.1 hmore
      exact .mk (part_first_iff.1 hown) hgroups
    · rintro ⟨hfirst, hgroups⟩
      next own groups =>
      exact ⟨own, groups.flatten, part_first_iff.2 hfirst,
        parts_later_iff.2 ⟨groups, hgroups, rfl⟩, rfl⟩

theorem stepsOf_eq_ok_iff : stepsOf cs = .ok steps ↔
    (∃ c ∈ cs, isBlank c = false) ∧ Spells (cs.splitOn '.') steps := by
  have hblank : cs.all isBlank = false ↔ ∃ c ∈ cs, isBlank c = false := by simp
  have hparts : parts true (splitWhere (· == '.') cs) = .ok steps ↔
      Spells (cs.splitOn '.') steps := by
    rw [parts_iff (splitWhere_ne_nil _ _), splitWhere_eq_splitOnP, List.splitOn_eq_splitOnP]
  rw [← hblank, ← hparts, stepsOf]
  split
  next hall => simp [hall]
  next hall => simp [hall]

theorem parse_eq_ok_iff {raw : String} {p : FieldPath} :
    parse raw = .ok p ↔ stepsOf raw.toList = .ok p.steps ∧ p.raw = raw := by
  obtain ⟨text, steps⟩ := p
  rw [parse]
  constructor
  · intro h
    split at h
    · cases h
    next hsteps =>
      cases h
      exact ⟨hsteps, rfl⟩
  · rintro ⟨hsteps, rfl⟩
    rw [hsteps]

/-- A text is a path just if it is not blank and its parts spell steps; these are the steps that
the reader gives, and it keeps the text. -/
theorem parse_accepts_exactly (raw : String) (p : FieldPath) :
    parse raw = .ok p ↔
      (∃ c ∈ raw.toList, isBlank c = false) ∧ Spells (raw.toList.splitOn '.') p.steps ∧
        p.raw = raw := by
  rw [parse_eq_ok_iff, stepsOf_eq_ok_iff, and_assoc]

end Anneal.FieldPath
