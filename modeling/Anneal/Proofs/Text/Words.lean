import Anneal.Proofs.Text.Lines

/-! The words of a text. A blank ends a word and belongs to none, so blanks at either end of a text
change nothing, and trimming keeps the words. -/

namespace Anneal.Text

variable {c : Char} {cs blanks : List Char}

@[simp] theorem words_nil : words [] = [] := rfl

theorem words_append (hc : isBlank c = true) (a b : List Char) :
    words (a ++ c :: b) = words a ++ words b := by
  rw [words, splitWhere_append hc, List.filter_append, words, words]

theorem words_cons_blank (hc : isBlank c = true) (cs : List Char) : words (c :: cs) = words cs :=
  words_append hc [] cs

theorem words_blank_append (h : ∀ c ∈ blanks, isBlank c = true) (cs : List Char) :
    words (blanks ++ cs) = words cs := by
  induction blanks with
  | nil => rfl
  | cons b blanks ih =>
    obtain ⟨hb, hblanks⟩ := List.forall_mem_cons.1 h
    rw [List.cons_append, words_cons_blank hb, ih hblanks]

theorem words_append_blank (h : ∀ c ∈ blanks, isBlank c = true) (cs : List Char) :
    words (cs ++ blanks) = words cs := by
  cases blanks with
  | nil => rw [List.append_nil]
  | cons b blanks =>
    obtain ⟨hb, hblanks⟩ := List.forall_mem_cons.1 h
    have hnone : words blanks = [] := by simpa using words_blank_append hblanks []
    rw [words_append hb, hnone, List.append_nil]

theorem words_trimChars (cs : List Char) : words (trimChars cs) = words cs := by
  obtain ⟨before, after, hb, ha, hcs⟩ := trimChars_spec cs
  have hwords : words (before ++ trimChars cs ++ after) = words (trimChars cs) := by
    rw [words_append_blank ha, words_blank_append hb]
  rw [← hcs] at hwords
  exact hwords.symm

end Anneal.Text
