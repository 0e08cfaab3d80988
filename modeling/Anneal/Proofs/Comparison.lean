import Anneal.Comparison
import Anneal.Proofs.Text.Words

/-! The policies from strict to lenient. Texts that are equal once they are trimmed have the same
words, and equal words match whatever the tolerance is: no number is read from them. -/

namespace Anneal.Comparison

open Anneal.Text

variable {a b : String}

theorem accepts_exact_iff : exact.accepts a b = true ↔ trim a = trim b := beq_iff_eq

theorem accepts_normalized_iff :
    normalizedWhitespace.accepts a b = true ↔ words a.toList = words b.toList := beq_iff_eq

theorem words_eq_of_trim_eq (h : trim a = trim b) : words a.toList = words b.toList := by
  have hchars : trimChars a.toList = trimChars b.toList := by
    rw [← toList_trim, h, toList_trim]
  rw [← words_trimChars a.toList, hchars, words_trimChars]

theorem wordsMatch_self (epsilon : Float) (word : List Char) :
    wordsMatch epsilon word word = true := by
  simp [wordsMatch]

theorem allWordsMatch_self (epsilon : Float) (ws : List (List Char)) :
    allWordsMatch epsilon ws ws = true := by
  induction ws with
  | nil => rfl
  | cons w ws ih => simp [allWordsMatch, wordsMatch_self, ih]

theorem accepts_normalized_of_exact (h : exact.accepts a b = true) :
    normalizedWhitespace.accepts a b = true := by
  apply accepts_normalized_iff.2
  exact words_eq_of_trim_eq (accepts_exact_iff.1 h)

theorem accepts_numeric_of_normalized (epsilon : Float)
    (h : normalizedWhitespace.accepts a b = true) :
    (numericTolerance epsilon).accepts a b = true := by
  have hwords := accepts_normalized_iff.1 h
  change allWordsMatch epsilon (words a.toList) (words b.toList) = true
  rw [hwords]
  exact allWordsMatch_self epsilon _

theorem accepts_self (policy : Comparison) (text : String) : policy.accepts text text = true := by
  have hexact : exact.accepts text text = true := accepts_exact_iff.2 rfl
  have hnormalized := accepts_normalized_of_exact hexact
  cases policy with
  | exact => exact hexact
  | normalizedWhitespace => exact hnormalized
  | numericTolerance epsilon => exact accepts_numeric_of_normalized epsilon hnormalized

/-- Each policy accepts what the stricter ones do, and every policy a text for itself. The two that
read no numbers are equivalences. -/
theorem policies_grow_lenient :
    (∀ a b, exact.accepts a b = true → normalizedWhitespace.accepts a b = true) ∧
    (∀ epsilon a b, normalizedWhitespace.accepts a b = true →
      (numericTolerance epsilon).accepts a b = true) ∧
    (∀ (policy : Comparison) (text : String), policy.accepts text text = true) ∧
    Equivalence (fun a b => exact.accepts a b = true) ∧
    Equivalence (fun a b => normalizedWhitespace.accepts a b = true) := by
  refine ⟨fun a b h => accepts_normalized_of_exact h,
    fun epsilon a b h => accepts_numeric_of_normalized epsilon h, accepts_self, ?_, ?_⟩
  · simp only [accepts_exact_iff]
    exact ⟨fun _ => rfl, Eq.symm, Eq.trans⟩
  · simp only [accepts_normalized_iff]
    exact ⟨fun _ => rfl, Eq.symm, Eq.trans⟩

theorem padded_nan_accepted :
    exact.accepts "\u2003nan 1\u0085\n" "nan 1" = true ∧
      normalizedWhitespace.accepts "\u2003nan 1\u0085\n" "nan 1" = true ∧
      (numericTolerance (0.0 / 0.0)).accepts "\u2003nan 1\u0085\n" "nan 1" = true := by
  have hexact : exact.accepts "\u2003nan 1\u0085\n" "nan 1" = true := by decide +kernel
  have hnormalized := policies_grow_lenient.1 _ _ hexact
  exact ⟨hexact, hnormalized, policies_grow_lenient.2.1 (0.0 / 0.0) _ _ hnormalized⟩

/-- Every step of the chain lets more pass. -/
example : exact.accepts "1  2" "1 2" = false ∧ normalizedWhitespace.accepts "1  2" "1 2" = true ∧
    normalizedWhitespace.accepts "1.0" "1" = false ∧
    (numericTolerance 0.0).accepts "1.0" "1" = true := by
  decide +kernel

end Anneal.Comparison
