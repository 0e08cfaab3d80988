import Anneal.Proofs.Text.Search
import Anneal.Proofs.Text.Words

/-! Collapsing a text puts one space for each run of blanks. What is left of it between blanks is its
words with a space between any two, so a collapsed text says no more and no less than the words. -/

namespace Anneal.Text

variable {c : Char} {w cs ds blanks : List Char} {ws : List (List Char)}

/-- `ds` is `cs` with one space in place of every maximal run of blanks. -/
inductive Collapses : List Char → List Char → Prop
  | nil : Collapses [] []
  | keep {c : Char} {cs ds : List Char} (hc : isBlank c = false) (h : Collapses cs ds) :
      Collapses (c :: cs) (c :: ds)
  | run {blanks cs ds : List Char} (hne : blanks ≠ []) (hblanks : ∀ c ∈ blanks, isBlank c = true)
      (hend : ∀ c ∈ cs.head?, isBlank c = false) (h : Collapses cs ds) :
      Collapses (blanks ++ cs) (' ' :: ds)

theorem collapseChars_cons (hc : isBlank c = false) (cs : List Char) :
    collapseChars (c :: cs) = c :: collapseChars cs := by
  rw [collapseChars, hc]
  rfl

theorem collapseChars_run (hne : blanks ≠ []) (hblanks : ∀ c ∈ blanks, isBlank c = true)
    (hend : ∀ c ∈ cs.head?, isBlank c = false) :
    collapseChars (blanks ++ cs) = ' ' :: collapseChars cs := by
  induction blanks with
  | nil => exact absurd rfl hne
  | cons b blanks ih =>
    obtain ⟨hb, hblanks⟩ := List.forall_mem_cons.1 hblanks
    rw [List.cons_append, collapseChars, hb]
    cases blanks with
    | nil =>
      cases cs with
      | nil => rfl
      | cons c cs =>
        have hc : isBlank c = false := hend c rfl
        have hspace : c ≠ ' ' := by
          rintro rfl
          cases hc
        rw [List.nil_append, collapseChars_cons hc]
        simp [hspace]
    | cons b' blanks =>
      rw [ih (List.cons_ne_nil _ _) hblanks]
      rfl

theorem exists_collapses (cs : List Char) : ∃ ds, Collapses cs ds := by
  induction cs with
  | nil => exact ⟨[], .nil⟩
  | cons c cs ih =>
    obtain ⟨ds, h⟩ := ih
    cases hc : isBlank c with
    | false => exact ⟨c :: ds, .keep hc h⟩
    | true =>
      -- The blank begins a run of its own unless the rest begins with a run.
      have hone : ∀ x ∈ [c], isBlank x = true := List.forall_mem_singleton.2 hc
      cases h with
      | nil => exact ⟨[' '], .run (List.cons_ne_nil _ _) hone (by simp) .nil⟩
      | keep hd h =>
        exact ⟨_, .run (List.cons_ne_nil _ _) hone (by simpa using hd) (.keep hd h)⟩
      | run hne hblanks hend h =>
        exact ⟨_, .run (List.cons_ne_nil c _) (List.forall_mem_cons.2 ⟨hc, hblanks⟩) hend h⟩

theorem Collapses.eq (h : Collapses cs ds) : ds = collapseChars cs := by
  induction h with
  | nil => rfl
  | keep hc h ih => rw [collapseChars_cons hc, ih]
  | run hne hblanks hend h ih => rw [collapseChars_run hne hblanks hend, ih]

theorem collapses_iff : Collapses cs ds ↔ ds = collapseChars cs := by
  constructor
  · exact Collapses.eq
  · rintro rfl
    obtain ⟨ds, h⟩ := exists_collapses cs
    exact h.eq ▸ h

def IsWord (w : List Char) : Prop := w ≠ [] ∧ ∀ c ∈ w, isBlank c = false

def unwords (ws : List (List Char)) : List Char := [' '].intercalate ws

theorem unwords_cons (w : List Char) (h : ws ≠ []) :
    unwords (w :: ws) = w ++ ' ' :: unwords ws := by
  rw [unwords, intercalate_cons_of_ne_nil _ _ h, List.append_assoc]
  rfl

theorem unwords_cons_char (c : Char) (w : List Char) (ws : List (List Char)) :
    unwords ((c :: w) :: ws) = c :: unwords (w :: ws) := by
  cases ws with
  | nil => simp [unwords]
  | cons w' ws =>
    have hne : w' :: ws ≠ [] := List.cons_ne_nil w' ws
    rw [unwords_cons (c :: w) hne, unwords_cons w hne, List.cons_append]

theorem words_whole (hw : IsWord w) : words w = [w] := by
  rw [words, splitWhere_whole hw.2]
  simp [hw.1]

theorem words_unwords (h : ∀ w ∈ ws, IsWord w) : words (unwords ws) = ws := by
  induction ws with
  | nil => rfl
  | cons w ws ih =>
    obtain ⟨hw, hws⟩ := List.forall_mem_cons.1 h
    by_cases hne : ws = []
    · subst hne
      simpa [unwords] using words_whole hw
    · have hspace : isBlank ' ' = true := by decide
      rw [unwords_cons w hne, words_append hspace, words_whole hw, ih hws, List.singleton_append]

theorem words_cons_end (hc : isBlank c = false) (hend : ∀ d ∈ cs.head?, isBlank d = true) :
    words (c :: cs) = [c] :: words cs := by
  have hword : words [c] = [[c]] := words_whole ⟨by simp, by simpa using hc⟩
  cases cs with
  | nil => exact hword
  | cons d cs =>
    have hd : isBlank d = true := hend d rfl
    have hsplit : words ([c] ++ d :: cs) = words [c] ++ words cs := words_append hd [c] cs
    rw [words_cons_blank hd, ← List.singleton_append, hsplit, hword, List.singleton_append]

theorem words_cons_word {d : Char} (hc : isBlank c = false) (hd : isBlank d = false)
    (cs : List Char) :
    ∃ w ws, words (d :: cs) = w :: ws ∧ words (c :: d :: cs) = (c :: w) :: ws := by
  have hne := splitWhere_ne_nil isBlank cs
  obtain ⟨piece, pieces, hpieces⟩ := List.exists_cons_of_ne_nil hne
  have hshort : splitWhere isBlank (d :: cs) = (d :: piece) :: pieces := by
    simp [splitWhere, hd, hpieces]
  refine ⟨d :: piece, pieces.filter fun w => !w.isEmpty, ?_, ?_⟩
  · simp [words, hshort]
  · rw [words, splitWhere, hc, hshort]
    simp

theorem isWord_of_mem_words (hw : w ∈ words cs) : IsWord w := by
  induction cs generalizing w with
  | nil => simp at hw
  | cons c cs ih =>
    cases hc : isBlank c with
    | true =>
      rw [words_cons_blank hc] at hw
      exact ih hw
    | false =>
      by_cases hend : ∀ d ∈ cs.head?, isBlank d = true
      · rw [words_cons_end hc hend] at hw
        rcases List.mem_cons.1 hw with rfl | hw
        · exact ⟨by simp, by simpa using hc⟩
        · exact ih hw
      · cases cs with
        | nil => simp at hend
        | cons d cs =>
          obtain ⟨w', ws, hshort, hlong⟩ := words_cons_word hc (by simpa using hend) cs
          rw [hshort] at ih
          rw [hlong] at hw
          rcases List.mem_cons.1 hw with rfl | hw
          · obtain ⟨-, hplain⟩ := ih List.mem_cons_self
            exact ⟨by simp, List.forall_mem_cons.2 ⟨hc, hplain⟩⟩
          · exact ih (List.mem_cons_of_mem _ hw)

def lead (cs : List Char) : List Char := if cs.head?.any isBlank then [' '] else []

theorem lead_blank {cs : List Char} : ∀ c ∈ lead cs, isBlank c = true := by
  have hspace : isBlank ' ' = true := by decide
  cases h : cs.head?.any isBlank with
  | true => simpa [lead, h] using hspace
  | false => simp [lead, h]

/-- A collapsed text is its words with single spaces between them, and perhaps one around them. -/
theorem Collapses.spaced (h : Collapses cs ds) :
    ∃ after, (∀ c ∈ after, isBlank c = true) ∧ ds = lead cs ++ unwords (words cs) ++ after := by
  induction h with
  | nil => exact ⟨[], by simp, rfl⟩
  | @run blanks cs ds hne hblanks hend h ih =>
    obtain ⟨after, ha, rfl⟩ := ih
    obtain ⟨b, rest, rfl⟩ := List.exists_cons_of_ne_nil hne
    have hb : isBlank b = true := hblanks b List.mem_cons_self
    have hcs : lead cs = [] := by
      cases hhead : cs.head? <;> simp_all [lead]
    refine ⟨after, ha, ?_⟩
    rw [words_blank_append hblanks, hcs, lead]
    simp [hb]
  | @keep c cs ds hc h ih =>
    obtain ⟨after, ha, rfl⟩ := ih
    have hlead : lead (c :: cs) = [] := by simp [lead, hc]
    rw [hlead]
    cases cs with
    | nil =>
      rw [words_cons_end hc (by simp)]
      exact ⟨after, ha, rfl⟩
    | cons d cs =>
      cases hd : isBlank d with
      | false =>
        obtain ⟨w, ws, hshort, hlong⟩ := words_cons_word hc hd cs
        refine ⟨after, ha, ?_⟩
        rw [hshort, hlong, unwords_cons_char]
        simp [lead, hd]
      | true =>
        have hspaced : lead (d :: cs) = [' '] := by simp [lead, hd]
        rw [words_cons_end hc (by simpa using hd), hspaced]
        by_cases hwords : words (d :: cs) = []
        · -- The text ends with `c` and blanks, so the space belongs to the end.
          refine ⟨' ' :: after, List.forall_mem_cons.2 ⟨by decide, ha⟩, ?_⟩
          simp [hwords, unwords]
        · refine ⟨after, ha, ?_⟩
          rw [unwords_cons _ hwords]
          simp

theorem trimChars_collapseChars (cs : List Char) :
    trimChars (collapseChars cs) = trimChars (unwords (words cs)) := by
  obtain ⟨after, ha, hds⟩ := (collapses_iff.2 (Eq.refl (collapseChars cs))).spaced
  rw [hds, trimChars_between lead_blank ha]

theorem words_collapseChars (cs : List Char) : words (collapseChars cs) = words cs := by
  rw [← words_trimChars, trimChars_collapseChars, words_trimChars,
    words_unwords fun _ hw => isWord_of_mem_words hw]

theorem words_eq_iff {as bs : List Char} :
    words as = words bs ↔ trimChars (collapseChars as) = trimChars (collapseChars bs) := by
  constructor
  · intro h
    rw [trimChars_collapseChars, trimChars_collapseChars, h]
  · intro h
    rw [← words_collapseChars as, ← words_trimChars, h, words_trimChars, words_collapseChars]

structure IsGap (gap : String) : Prop where
  ne_empty : gap ≠ ""
  blank : isBlankText gap = true

theorem words_gap (hne : blanks ≠ []) (hblanks : ∀ c ∈ blanks, isBlank c = true)
    (as bs : List Char) : words (as ++ blanks ++ bs) = words as ++ words bs := by
  obtain ⟨b, rest, rfl⟩ := List.exists_cons_of_ne_nil hne
  obtain ⟨hb, hrest⟩ := List.forall_mem_cons.1 hblanks
  rw [List.append_assoc, List.cons_append, words_append hb, words_blank_append hrest]

theorem IsGap.words {gap : String} (h : IsGap gap) (front back : String) :
    Text.words (front ++ gap ++ back).toList =
      Text.words front.toList ++ Text.words back.toList := by
  rw [String.toList_append, String.toList_append]
  refine words_gap ?_ (List.all_eq_true.1 h.blank) _ _
  exact fun hnil => h.ne_empty (String.toList_eq_nil_iff.1 hnil)

theorem words_padded {before after : String} (hb : isBlankText before = true)
    (ha : isBlankText after = true) (text : String) :
    words (before ++ text ++ after).toList = words text.toList := by
  rw [String.toList_append, String.toList_append, words_append_blank (List.all_eq_true.1 ha),
    words_blank_append (List.all_eq_true.1 hb)]

theorem trim_padded {before after : String} (hb : isBlankText before = true)
    (ha : isBlankText after = true) (text : String) :
    trim (before ++ text ++ after) = trim text := by
  rw [trim, String.toList_append, String.toList_append,
    trimChars_between (List.all_eq_true.1 hb) (List.all_eq_true.1 ha), trim]

end Anneal.Text
