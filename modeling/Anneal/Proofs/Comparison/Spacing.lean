import Anneal.Proofs.Comparison
import Anneal.Proofs.Text.Collapse

/-! What the policies make of blanks. Comparing words is comparing collapsed texts. Blanks around a
text never count, and only the exact policy sees which blanks stand between two words. -/

namespace Anneal.Comparison

open Anneal.Text

variable {a a' b b' : String}

theorem accepts_normalized_eq (a b : String) :
    normalizedWhitespace.accepts a b = exact.accepts (collapse a) (collapse b) := by
  rw [Bool.eq_iff_iff, accepts_normalized_iff, accepts_exact_iff, words_eq_iff]
  rw [← String.toList_inj, toList_trim, toList_trim, collapse, collapse, String.toList_ofList,
    String.toList_ofList]

theorem accepts_of_words {policy : Comparison} (hp : policy ≠ exact)
    (ha : words a.toList = words a'.toList) (hb : words b.toList = words b'.toList) :
    policy.accepts a b = policy.accepts a' b' := by
  cases policy with
  | exact => exact absurd rfl hp
  | normalizedWhitespace => simp only [accepts, ha, hb]
  | numericTolerance epsilon => simp only [accepts, ha, hb]

/-- The blanks around a text do not count. -/
def IgnoresPadding (policy : Comparison) : Prop :=
  ∀ before text after other : String, isBlankText before = true → isBlankText after = true →
    policy.accepts (before ++ text ++ after) other = policy.accepts text other ∧
      policy.accepts other (before ++ text ++ after) = policy.accepts other text

/-- It does not count which blanks stand between two parts of a text. -/
def IgnoresSpacing (policy : Comparison) : Prop :=
  ∀ front gap gap' back other : String, IsGap gap → IsGap gap' →
    policy.accepts (front ++ gap ++ back) other = policy.accepts (front ++ gap' ++ back) other ∧
      policy.accepts other (front ++ gap ++ back) = policy.accepts other (front ++ gap' ++ back)

theorem ignoresPadding (policy : Comparison) : policy.IgnoresPadding := by
  intro before text after other hb ha
  by_cases hp : policy = exact
  · subst hp
    simp only [accepts, trim_padded hb ha, and_self]
  · have hwords := words_padded hb ha text
    exact ⟨accepts_of_words hp hwords rfl, accepts_of_words hp rfl hwords⟩

theorem ignoresSpacing {policy : Comparison} (hp : policy ≠ exact) : policy.IgnoresSpacing := by
  intro front gap gap' back other hg hg'
  have hwords : words (front ++ gap ++ back).toList = words (front ++ gap' ++ back).toList := by
    rw [hg.words, hg'.words]
  exact ⟨accepts_of_words hp hwords rfl, accepts_of_words hp rfl hwords⟩

/-- Comparing words is comparing the collapsed texts exactly. No policy sees blanks around a text, and
those that compare words do not see which blanks keep the words apart. -/
theorem normalized_is_exact_collapsed :
    (∀ (text : String) (cs : List Char),
      Collapses text.toList cs ↔ cs = (collapse text).toList) ∧
    (∀ a b, normalizedWhitespace.accepts a b = exact.accepts (collapse a) (collapse b)) ∧
    (∀ policy : Comparison, policy.IgnoresPadding) ∧
    normalizedWhitespace.IgnoresSpacing ∧
    ∀ epsilon, (numericTolerance epsilon).IgnoresSpacing := by
  refine ⟨fun text cs => ?_, accepts_normalized_eq, ignoresPadding, ?_, fun epsilon => ?_⟩
  · rw [collapse, String.toList_ofList]
    exact collapses_iff
  · exact ignoresSpacing (by simp)
  · exact ignoresSpacing (by simp)

theorem wide_gaps_do_not_count :
    isBlankText "\u3000" = true ∧ isBlankText "\n" = true ∧ IsGap "\u00A0" ∧ IsGap " \t" ∧
      normalizedWhitespace.accepts "\u20031\n\u0085 2" "1 2" =
        exact.accepts (collapse "\u20031\n\u0085 2") (collapse "1 2") ∧
      exact.accepts ("\u3000" ++ "1  2" ++ "\n") "1  2" = exact.accepts "1  2" "1  2" ∧
      (numericTolerance 0.5).accepts ("1" ++ "\u00A0" ++ "2") "1.5 2" =
        (numericTolerance 0.5).accepts ("1" ++ " \t" ++ "2") "1.5 2" := by
  obtain ⟨-, hcollapsed, hpadding, -, hspacing⟩ := normalized_is_exact_collapsed
  have hbefore : isBlankText "\u3000" = true := by decide
  have hafter : isBlankText "\n" = true := by decide
  have hgap : IsGap "\u00A0" := ⟨by decide, by decide⟩
  have hgap' : IsGap " \t" := ⟨by decide, by decide⟩
  exact ⟨hbefore, hafter, hgap, hgap', hcollapsed _ _,
    (hpadding exact _ _ _ _ hbefore hafter).1, (hspacing 0.5 _ _ _ _ _ hgap hgap').1⟩

end Anneal.Comparison
