import Anneal.Proofs.Text.Blank
import Anneal.Text.Search

/-! A text is cut at a character into pieces that hold none of it. Its lines are those pieces at
line feeds, up to blanks at their ends. -/

namespace Anneal.Text

variable {p : Char → Bool} {c : Char} {cs : List Char}

theorem splitWhere_eq_splitOnP (p : Char → Bool) (cs : List Char) :
    splitWhere p cs = cs.splitOnP p := by
  induction cs with
  | nil => rw [splitWhere, List.splitOnP_nil]
  | cons c cs ih =>
    rw [splitWhere, List.splitOnP_cons_eq_if_modifyHead, ← ih]
    split
    · rfl
    · have hne := splitWhere_ne_nil p cs
      cases hs : splitWhere p cs with
      | nil => exact absurd hs hne
      | cons piece pieces => rfl

theorem splitWhere_append (hc : p c = true) (a b : List Char) :
    splitWhere p (a ++ c :: b) = splitWhere p a ++ splitWhere p b := by
  induction a with
  | nil => simp [splitWhere, hc]
  | cons x a ih =>
    rw [List.cons_append, splitWhere, splitWhere, ih]
    split
    · rfl
    · cases hs : splitWhere p a with
      | nil => exact absurd hs (splitWhere_ne_nil p a)
      | cons piece pieces => rfl

theorem splitWhere_whole (h : ∀ c ∈ cs, p c = false) : splitWhere p cs = [cs] := by
  induction cs with
  | nil => rfl
  | cons c cs ih =>
    rw [splitWhere, ih fun x hx => h x (List.mem_cons_of_mem _ hx)]
    simp [h c]

theorem splitWhere_intercalate {pieces : List (List Char)} (hne : pieces ≠ [])
    (h : ∀ piece ∈ pieces, c ∉ piece) :
    splitWhere (· == c) ([c].intercalate pieces) = pieces := by
  rw [splitWhere_eq_splitOnP, ← List.splitOn_eq_splitOnP]
  exact List.splitOn_intercalate c h hne

theorem join_eq_intercalate (sep : String) (texts : List String) :
    join sep texts = sep.intercalate texts := by
  induction texts with
  | nil => rfl
  | cons s texts ih =>
    cases texts with
    | nil => simp [join]
    | cons t texts =>
      rw [join, ih, String.intercalate_cons_cons]
      simp

/-- The text between line feeds, trimmed. -/
def trimmedLines (cs : List Char) : List (List Char) := (splitWhere (· == '\n') cs).map trimChars

theorem trimChars_dropReturn (cs : List Char) :
    trimChars (if cs.getLast? = some '\r' then cs.dropLast else cs) = trimChars cs := by
  split
  next h =>
    obtain ⟨front, rfl⟩ := List.getLast?_eq_some_iff.1 h
    rw [List.dropLast_concat]
    exact (trimChars_between (List.forall_mem_nil _)
      (List.forall_mem_singleton.2 (by decide)) front).symm
  next => rfl

/-- What is made of trimmed lines is the same for both ways to cut a text into lines, as long as
nothing is made of an empty line. -/
theorem filterMap_lines {α : Type} {g : List Char → Option α} (hg : g [] = none) (cs : List Char) :
    ((lines cs).map trimChars).filterMap g = (trimmedLines cs).filterMap g := by
  have hlast := List.reverse_reverse (splitWhere (· == '\n') cs)
  rw [lines, trimmedLines]
  cases hpieces : (splitWhere (· == '\n') cs).reverse with
  | nil =>
    rw [hpieces] at hlast
    exact absurd hlast.symm (splitWhere_ne_nil _ _)
  | cons last full =>
    rw [hpieces, List.reverse_cons] at hlast
    rw [← hlast]
    have hended : (full.reverse.map fun l =>
        if l.getLast? = some '\r' then l.dropLast else l).map trimChars =
          full.reverse.map trimChars := by
      rw [List.map_map]
      exact List.map_congr_left fun l _ => trimChars_dropReturn l
    dsimp only
    split
    next hempty =>
      have htrim : trimChars [] = [] := by decide
      rw [hended, List.isEmpty_iff.1 hempty, List.map_append, List.filterMap_append,
        List.map_singleton, htrim]
      simp [hg]
    next => rw [List.map_append, hended, List.map_append]

end Anneal.Text
