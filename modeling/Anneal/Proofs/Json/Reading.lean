import Anneal.Proofs.Json.Numbers
import Anneal.Proofs.Json.Strings
import Mathlib.Data.List.DropRight

/-! Which texts are read as which values. A text that is read stays so with anything behind it that
does not go on with a number, so the texts of containers are put together from those of their
items. The lemmas follow the reader step by step; the rest of the development does not open it. -/

namespace Anneal.Json

open Decimal (isDigit)

def Reads (depth : Nat) (text : List Char) (j : Json) : Prop :=
  ∀ fuel d rest, 2 * text.length ≤ fuel → depth ≤ d → Ends rest →
    value fuel d (text ++ rest) = .ok (j, rest)

structure ReadsItems (depth : Nat) (text : List Char) (js : List Json) : Prop where
  ends : ∀ rest, Ends (text ++ rest)
  reads : ∀ fuel d rest, 2 * text.length ≤ fuel → depth ≤ d →
    items fuel d false (text ++ rest) = .ok (js, rest)

structure ReadsFields (depth : Nat) (text : List Char) (es : List (String × Json)) : Prop where
  ends : ∀ rest, Ends (text ++ rest)
  reads : ∀ fuel d acc rest, 2 * text.length ≤ fuel → depth ≤ d →
    fields fuel d false acc (text ++ rest) = .ok (Keyed.merge acc es, rest)

theorem skipSpace_cons {c : Char} (h : isSpace c = false) (cs : List Char) :
    skipSpace (c :: cs) = c :: cs := List.dropWhile_cons_of_neg (by simp [h])

theorem skipSpace_append {bs : List Char} (h : ∀ c ∈ bs, isSpace c = true) (cs : List Char) :
    skipSpace (bs ++ cs) = skipSpace cs := List.dropWhile_append_of_pos h

@[simp] theorem skipSpace_skipSpace (cs : List Char) : skipSpace (skipSpace cs) = skipSpace cs :=
  List.dropWhile_idempotent isSpace cs

section Values

variable {depth fuel d : Nat}

theorem value_skipSpace (cs : List Char) :
    value (fuel + 1) d (skipSpace cs) = value (fuel + 1) d cs := by
  rw [value, value, skipSpace_skipSpace]

theorem reads_of_succ {text : List Char} {j : Json} (hpos : text ≠ [])
    (h : ∀ fuel d rest, 2 * text.length ≤ fuel + 1 → depth ≤ d → Ends rest →
      value (fuel + 1) d (text ++ rest) = .ok (j, rest)) : Reads depth text j := by
  intro fuel d rest hf hd hr
  have := List.length_pos_iff.2 hpos
  obtain ⟨fuel, rfl⟩ : ∃ f, fuel = f + 1 := ⟨fuel - 1, by omega⟩
  exact h fuel d rest hf hd hr

theorem reads_null (depth : Nat) : Reads depth "null".toList .null := by
  have htext : "null".toList = ['n', 'u', 'l', 'l'] := by decide
  rw [htext]
  exact reads_of_succ (by simp) fun fuel d rest _ _ _ => by rw [value]; rfl

theorem reads_true (depth : Nat) : Reads depth "true".toList (.bool true) := by
  have htext : "true".toList = ['t', 'r', 'u', 'e'] := by decide
  rw [htext]
  exact reads_of_succ (by simp) fun fuel d rest _ _ _ => by rw [value]; rfl

theorem reads_false (depth : Nat) : Reads depth "false".toList (.bool false) := by
  have htext : "false".toList = ['f', 'a', 'l', 's', 'e'] := by decide
  rw [htext]
  exact reads_of_succ (by simp) fun fuel d rest _ _ _ => by rw [value]; rfl

theorem reads_str (depth : Nat) (s : String) : Reads depth (quoted s) (.str s) :=
  reads_of_succ (by simp [quoted]) fun fuel d rest _ _ _ => by
    have htext : quoted s ++ rest = '"' :: (s.toList.flatMap escapeChar ++ '"' :: rest) := by
      simp [quoted]
    rw [htext, value, skipSpace_cons (by decide)]
    dsimp only
    rw [if_pos rfl, string_quoted]

theorem value_minus (cs : List Char) : value (fuel + 1) d ('-' :: cs) = number true cs := by
  rw [value, skipSpace_cons (by decide)]
  rfl

theorem value_digit {c : Char} (hc : isDigit c = true) (cs : List Char) :
    value (fuel + 1) d (c :: cs) = number false (c :: cs) := by
  have hspace : isSpace c = false := Bool.eq_false_iff.2 fun hs => by
    simp only [isSpace, Bool.or_eq_true, decide_eq_true_eq] at hs
    rcases hs with ((rfl | rfl) | rfl) | rfl <;> simp [isDigit] at hc
  have hother : c ≠ '"' ∧ c ≠ '[' ∧ c ≠ '\x7b' ∧ c ≠ 'n' ∧ c ≠ 't' ∧ c ≠ 'f' ∧ c ≠ '-' := by
    refine ⟨?_, ?_, ?_, ?_, ?_, ?_, ?_⟩
    all_goals
      rintro rfl
      simp [isDigit] at hc
  obtain ⟨hc₁, hc₂, hc₃, hc₄, hc₅, hc₆, hc₇⟩ := hother
  rw [value, skipSpace_cons hspace]
  dsimp only
  rw [if_neg hc₁, if_neg hc₂, if_neg hc₃, if_neg hc₄, if_neg hc₅, if_neg hc₆, if_neg hc₇, if_pos hc]

theorem reads_int (depth : Nat) {n : Int} (h : InRange n) :
    Reads depth (toString n).toList (.int n) := by
  rw [toList_toString_int]
  split
  next hn =>
    refine reads_of_succ Nat.toDigits_ne_nil fun fuel d rest _ _ hr => ?_
    rw [← number_nonneg h hn hr]
    cases hcs : Nat.toDigits 10 n.toNat with
    | nil => exact absurd hcs Nat.toDigits_ne_nil
    | cons c cs =>
      have hc : isDigit c = true := isDigit_of_mem_toDigits (hcs ▸ List.mem_cons_self)
      exact value_digit hc (cs ++ rest)
  next hn =>
    refine reads_of_succ (by simp) fun fuel d rest _ _ hr => ?_
    rw [← number_neg h (Int.not_le.1 hn) hr, List.cons_append, value_minus]

theorem Reads.ne_nil {text : List Char} {j : Json} (h : Reads depth text j) : text ≠ [] := by
  rintro rfl
  have hv := h 0 depth [] (Nat.le_refl _) (Nat.le_refl _) ends_nil
  rw [value] at hv
  cases hv

theorem Reads.begins {text rest : List Char} {j : Json} (h : Reads depth text j)
    (hr : Ends rest) : ∃ c cs, skipSpace (text ++ rest) = c :: cs ∧ c ≠ ']' := by
  -- The reader refuses a value that begins with a closing bracket.
  have hv := h (2 * text.length + 1) depth rest (Nat.le_succ _) (Nat.le_refl _) hr
  rw [value] at hv
  cases hs : skipSpace (text ++ rest) with
  | nil =>
    rw [hs] at hv
    cases hv
  | cons c cs =>
    refine ⟨c, cs, rfl, ?_⟩
    rintro rfl
    rw [hs] at hv
    cases hv

end Values

section Items

variable {depth : Nat} {text more : List Char} {j : Json} {js : List Json}

theorem ends_comma (cs : List Char) : Ends (',' :: cs) := ends_cons (by decide)

theorem readsItems_nil (depth : Nat) : ReadsItems depth [']'] [] where
  ends rest := ends_cons (by decide)
  reads fuel d rest hf hd := by
    obtain ⟨fuel, rfl⟩ : ∃ f, fuel = f + 1 := ⟨fuel - 1, by simp at hf; omega⟩
    rw [items]
    rfl

theorem items_value {fuel d : Nat} {first : Bool} {cs rest : List Char}
    (hj : Reads depth text j) (hjs : ReadsItems depth more js)
    (hnext : nextItem first cs = .ok (true, skipSpace (text ++ (more ++ rest))))
    (hf : 2 * (text ++ more).length ≤ fuel) (hd : depth ≤ d) :
    items (fuel + 1) d first cs = .ok (j :: js, rest) := by
  have hpos := List.length_pos_iff.2 hj.ne_nil
  rw [List.length_append] at hf
  obtain ⟨fuel, rfl⟩ : ∃ f, fuel = f + 1 := ⟨fuel - 1, by omega⟩
  rw [items, hnext]
  dsimp only
  rw [value_skipSpace, hj _ d _ (by omega) hd (hjs.ends rest)]
  dsimp only
  rw [hjs.reads _ d rest (by omega) hd]

theorem readsItems_cons (hj : Reads depth text j) (hjs : ReadsItems depth more js) :
    ReadsItems depth (',' :: text ++ more) (j :: js) where
  ends rest := ends_comma _
  reads fuel d rest hf hd := by
    rw [List.cons_append, List.length_cons] at hf
    obtain ⟨fuel, rfl⟩ : ∃ f, fuel = f + 1 := ⟨fuel - 1, by omega⟩
    refine items_value hj hjs ?_ (by omega) hd
    obtain ⟨c, cs, hcs, hc⟩ := hj.begins (hjs.ends rest)
    rw [List.cons_append, List.cons_append, List.append_assoc, nextItem,
      skipSpace_cons (by decide)]
    dsimp only
    rw [if_neg (by decide), if_neg Bool.false_ne_true, if_pos rfl, hcs]
    dsimp only
    rw [if_neg hc]

theorem reads_arr_nil (depth : Nat) : Reads (depth + 1) ['[', ']'] (.arr []) :=
  reads_of_succ (by simp) fun fuel d rest hf hd _ => by
    obtain ⟨fuel, rfl⟩ : ∃ f, fuel = f + 1 := ⟨fuel - 1, by simp at hf; omega⟩
    obtain ⟨d, rfl⟩ : ∃ e, d = e + 1 := ⟨d - 1, by omega⟩
    have hitems : items (fuel + 1) d true (']' :: rest) = .ok ([], rest) := by
      rw [items]
      rfl
    rw [List.cons_append, List.singleton_append, value, skipSpace_cons (by decide)]
    dsimp only
    rw [if_neg (by decide), if_pos rfl, hitems]

theorem reads_arr_cons (hj : Reads depth text j) (hjs : ReadsItems depth more js) :
    Reads (depth + 1) ('[' :: text ++ more) (.arr (j :: js)) :=
  reads_of_succ (by simp) fun fuel d rest hf hd _ => by
    rw [List.cons_append, List.length_cons] at hf
    obtain ⟨fuel, rfl⟩ : ∃ f, fuel = f + 1 := ⟨fuel - 1, by omega⟩
    obtain ⟨d, rfl⟩ : ∃ e, d = e + 1 := ⟨d - 1, by omega⟩
    have hitems : items (fuel + 1) d true (text ++ (more ++ rest)) = .ok (j :: js, rest) := by
      refine items_value hj hjs ?_ (by omega) (by omega)
      obtain ⟨c, cs, hcs, hc⟩ := hj.begins (hjs.ends rest)
      rw [nextItem, hcs]
      dsimp only
      rw [if_neg hc, if_pos rfl]
    rw [List.cons_append, List.cons_append, List.append_assoc, value, skipSpace_cons (by decide)]
    dsimp only
    rw [if_neg (by decide), if_pos rfl, hitems]

end Items

section Fields

variable {depth : Nat} {key : String} {text more : List Char} {j : Json}
  {es : List (String × Json)}

def memberText (key : String) (text : List Char) : List Char :=
  key.toList.flatMap escapeChar ++ '"' :: ':' :: text

theorem quoted_member (key : String) (text : List Char) :
    quoted key ++ ':' :: text = '"' :: memberText key text := by
  simp [quoted, memberText]

theorem readsFields_nil (depth : Nat) : ReadsFields depth ['\x7d'] [] where
  ends rest := ends_cons (by decide)
  reads fuel d acc rest hf hd := by
    obtain ⟨fuel, rfl⟩ : ∃ f, fuel = f + 1 := ⟨fuel - 1, by simp at hf; omega⟩
    rw [fields]
    rfl

/-- Once the reader stands behind the quote of a key, it reads the field and those behind it. -/
theorem fields_member {fuel d : Nat} {first : Bool} {acc : Keyed Json} {cs rest : List Char}
    (hj : Reads depth text j) (hes : ReadsFields depth more es)
    (hnext : nextField first cs = .ok (true, memberText key text ++ (more ++ rest)))
    (hf : 2 * (text ++ more).length ≤ fuel) (hd : depth ≤ d) :
    fields (fuel + 1) d first acc cs = .ok (Keyed.merge acc ((key, j) :: es), rest) := by
  have hkey : string (memberText key text ++ (more ++ rest)) =
      .ok (key, ':' :: (text ++ (more ++ rest))) := by
    rw [memberText, List.append_assoc]
    exact string_quoted key _
  rw [List.length_append] at hf
  rw [fields, hnext]
  dsimp only
  rw [hkey]
  dsimp only
  rw [colon, skipSpace_cons (by decide)]
  dsimp only
  rw [if_pos rfl]
  dsimp only
  rw [hj _ d _ (by omega) hd (hes.ends rest)]
  dsimp only
  rw [hes.reads _ d _ rest (by omega) hd]
  rfl

theorem length_memberText (key : String) (text : List Char) :
    text.length + 2 ≤ (memberText key text).length := by
  simp only [memberText, List.length_append, List.length_cons]
  omega

theorem readsFields_cons {bs : List Char} (hb : ∀ c ∈ bs, isSpace c = true)
    (hj : Reads depth text j) (hes : ReadsFields depth more es) :
    ReadsFields depth (',' :: bs ++ '"' :: memberText key text ++ more) ((key, j) :: es) where
  ends rest := ends_comma _
  reads fuel d acc rest hf hd := by
    have hlength := length_memberText key text
    simp only [List.length_append, List.length_cons] at hf
    obtain ⟨fuel, rfl⟩ : ∃ f, fuel = f + 1 := ⟨fuel - 1, by omega⟩
    refine fields_member hj hes ?_ (by rw [List.length_append]; omega) hd
    simp only [List.cons_append, List.append_assoc]
    rw [nextField, skipSpace_cons (by decide)]
    dsimp only
    rw [if_neg (by decide), if_neg Bool.false_ne_true, if_pos rfl, skipSpace_append hb,
      skipSpace_cons (by decide)]
    dsimp only
    rw [if_pos rfl]

theorem reads_obj_nil (depth : Nat) : Reads (depth + 1) ['\x7b', '\x7d'] (.obj []) :=
  reads_of_succ (by simp) fun fuel d rest hf hd _ => by
    obtain ⟨fuel, rfl⟩ : ∃ f, fuel = f + 1 := ⟨fuel - 1, by simp at hf; omega⟩
    obtain ⟨d, rfl⟩ : ∃ e, d = e + 1 := ⟨d - 1, by omega⟩
    have hfields : fields (fuel + 1) d true [] ('\x7d' :: rest) = .ok ([], rest) := by
      rw [fields]
      rfl
    rw [List.cons_append, List.singleton_append, value, skipSpace_cons (by decide)]
    dsimp only
    rw [if_neg (by decide), if_neg (by decide), if_pos rfl, hfields]

theorem reads_obj_cons {bs : List Char} (hb : ∀ c ∈ bs, isSpace c = true)
    (hj : Reads depth text j) (hes : ReadsFields depth more es) :
    Reads (depth + 1) ('\x7b' :: bs ++ '"' :: memberText key text ++ more)
      (.obj (Keyed.ofList ((key, j) :: es))) :=
  reads_of_succ (by simp) fun fuel d rest hf hd _ => by
    have hlength := length_memberText key text
    simp only [List.length_append, List.length_cons] at hf
    obtain ⟨fuel, rfl⟩ : ∃ f, fuel = f + 1 := ⟨fuel - 1, by omega⟩
    obtain ⟨d, rfl⟩ : ∃ e, d = e + 1 := ⟨d - 1, by omega⟩
    have hfields : fields (fuel + 1) d true []
        (bs ++ '"' :: (memberText key text ++ (more ++ rest))) =
          .ok (Keyed.ofList ((key, j) :: es), rest) := by
      refine fields_member hj hes ?_ (by rw [List.length_append]; omega) (by omega)
      rw [nextField, skipSpace_append hb, skipSpace_cons (by decide)]
      dsimp only
      rw [if_neg (by decide), if_pos rfl, if_pos rfl]
    simp only [List.cons_append, List.append_assoc]
    rw [value, skipSpace_cons (by decide)]
    dsimp only
    rw [if_neg (by decide), if_neg (by decide), if_pos rfl, hfields]

end Fields

theorem document_of_reads {text : List Char} {j : Json} (h : Reads (depthLimit - 1) text j) :
    document text = .ok j := by
  have hv := h (2 * text.length + 2) (depthLimit - 1) [] (by omega) (Nat.le_refl _) ends_nil
  rw [List.append_nil] at hv
  rw [document, hv]
  rfl

theorem parse?_of_reads {text : List Char} {j : Json} (h : Reads (depthLimit - 1) text j) :
    parse? (String.ofList text) = some j := by
  rw [parse?, parse, String.toList_ofList, document_of_reads h]
  rfl

theorem document_of_parse {text : String} {j : Json} (h : parse text = .ok j) :
    document text.toList = .ok j := by
  rw [parse] at h
  split at h
  next hd =>
    cases h
    exact hd
  next => cases h

theorem document_of_parse? {text : String} {j : Json} (h : parse? text = some j) :
    document text.toList = .ok j := by
  rw [parse?] at h
  cases hp : parse text with
  | error e =>
    rw [hp] at h
    cases h
  | ok v =>
    rw [hp] at h
    cases h
    exact document_of_parse hp

theorem value_of_document {text : List Char} {j : Json} (h : document text = .ok j) :
    ∃ r, value (2 * text.length + 2) (depthLimit - 1) text = .ok (j, r) ∧ skipSpace r = [] := by
  rw [document] at h
  split at h
  next => cases h
  next r hv =>
    split at h
    next hr =>
      cases h
      exact ⟨r, hv, hr⟩
    next => cases h

end Anneal.Json
