import Anneal.Proofs.Json.Compact

/-! What is written in the indented form is read back. Blanks may stand in front of every value,
behind every colon and in front of every closing bracket, and the reader skips them. -/

namespace Anneal.Json

variable {depth : Nat} {bs : List Char}

def Blanks (bs : List Char) : Prop := ∀ c ∈ bs, isSpace c = true

theorem blanks_newline (n : Nat) : Blanks (newline n) := by
  intro c hc
  rcases List.mem_cons.1 hc with rfl | hc
  · rfl
  · rw [List.eq_of_mem_replicate hc]
    rfl

theorem blanks_space : Blanks [' '] := by simp [Blanks, isSpace]

theorem ends_of_isSpace {c : Char} (h : isSpace c = true) (rest : List Char) : Ends (c :: rest) := by
  apply ends_cons
  simp only [isSpace, Bool.or_eq_true, decide_eq_true_eq] at h
  rcases h with ((rfl | rfl) | rfl) | rfl <;> decide

theorem Blanks.ends {cs : List Char} (h : Blanks bs) (hcs : Ends cs) : Ends (bs ++ cs) := by
  cases bs with
  | nil => exact hcs
  | cons c bs => exact ends_of_isSpace (h c List.mem_cons_self) _

theorem Reads.behind_blanks {text : List Char} {j : Json} (hb : Blanks bs)
    (h : Reads depth text j) : Reads depth (bs ++ text) j := by
  apply reads_of_succ
  · intro he
    exact h.ne_nil (List.append_eq_nil_iff.1 he).2
  · intro fuel d rest hf hd hr
    rw [List.length_append] at hf
    have := List.length_pos_iff.2 h.ne_nil
    rw [← value_skipSpace, List.append_assoc, skipSpace_append hb, value_skipSpace]
    exact h (fuel + 1) d rest (by omega) hd hr

theorem readsItems_close (depth : Nat) (hb : Blanks bs) : ReadsItems depth (bs ++ [']']) [] where
  ends rest := by
    rw [List.append_assoc]
    exact hb.ends (ends_cons (by decide))
  reads fuel d rest hf hd := by
    obtain ⟨fuel, rfl⟩ : ∃ f, fuel = f + 1 := ⟨fuel - 1, by simp at hf; omega⟩
    rw [items, nextItem, List.append_assoc, skipSpace_append hb]
    rfl

theorem readsFields_close (depth : Nat) (hb : Blanks bs) :
    ReadsFields depth (bs ++ ['\x7d']) [] where
  ends rest := by
    rw [List.append_assoc]
    exact hb.ends (ends_cons (by decide))
  reads fuel d acc rest hf hd := by
    obtain ⟨fuel, rfl⟩ : ∃ f, fuel = f + 1 := ⟨fuel - 1, by simp at hf; omega⟩
    rw [fields, nextField, List.append_assoc, skipSpace_append hb]
    rfl

theorem readsItems_prettyItems {n : Nat} {js : List Json}
    (h : ∀ j ∈ js, Reads depth (prettyChars (n + 1) j) (normal j)) :
    ReadsItems depth (prettyItems n js) (normalItems js) := by
  induction js with
  | nil => exact readsItems_close depth (blanks_newline n)
  | cons j js ih =>
    obtain ⟨hj, hjs⟩ := List.forall_mem_cons.1 h
    exact readsItems_cons (hj.behind_blanks (blanks_newline (n + 1))) (ih hjs)

theorem readsFields_prettyFields {n : Nat} {es : List (String × Json)}
    (h : ∀ e ∈ es, Reads depth (prettyChars (n + 1) e.2) (normal e.2)) :
    ReadsFields depth (prettyFields n es) (normalFields es) := by
  induction es with
  | nil => exact readsFields_close depth (blanks_newline n)
  | cons e es ih =>
    obtain ⟨key, j⟩ := e
    obtain ⟨hj, hes⟩ := List.forall_mem_cons.1 h
    have hspace : Reads depth ([' '] ++ prettyChars (n + 1) j) (normal j) :=
      hj.behind_blanks blanks_space
    have htext : prettyFields n ((key, j) :: es) = ',' :: newline (n + 1) ++
        '"' :: memberText key (' ' :: prettyChars (n + 1) j) ++ prettyFields n es := by
      rw [prettyFields, ← quoted_member]
      simp
    rw [htext]
    exact readsFields_cons (blanks_newline (n + 1)) hspace (ih hes)

theorem Plain.reads_pretty {j : Json} (h : Plain depth j) (n : Nat) :
    Reads depth (prettyChars n j) (normal j) := by
  induction h generalizing n with
  | null depth => exact reads_null depth
  | bool depth b =>
    cases b with
    | true => exact reads_true depth
    | false => exact reads_false depth
  | int depth h => exact reads_int depth h
  | str depth s => exact reads_str depth s
  | @arr depth items _ ih =>
    cases items with
    | nil => exact reads_arr_nil depth
    | cons j js =>
      obtain ⟨hj, hjs⟩ := List.forall_mem_cons.1 ih
      exact reads_arr_cons ((hj (n + 1)).behind_blanks (blanks_newline (n + 1)))
        (readsItems_prettyItems fun j hj => hjs j hj (n + 1))
  | @obj depth fields _ ih =>
    cases fields with
    | nil => exact reads_obj_nil depth
    | cons e es =>
      obtain ⟨key, j⟩ := e
      obtain ⟨hj, hes⟩ := List.forall_mem_cons.1 ih
      have hspace : Reads depth ([' '] ++ prettyChars (n + 1) j) (normal j) :=
        (hj (n + 1)).behind_blanks blanks_space
      have htext : prettyChars n (.obj ((key, j) :: es)) = '\x7b' :: newline (n + 1) ++
          '"' :: memberText key (' ' :: prettyChars (n + 1) j) ++ prettyFields n es := by
        rw [prettyChars, ← quoted_member]
        simp
      rw [htext]
      exact reads_obj_cons (blanks_newline (n + 1)) hspace
        (readsFields_prettyFields fun e he => hes e he (n + 1))

theorem document_behind {text : List Char} {j : Json} (h : Reads (depthLimit - 1) text j)
    (hb : Blanks bs) : document (text ++ bs) = .ok j := by
  have hv := h (2 * (text ++ bs).length + 2) (depthLimit - 1) bs
    (by rw [List.length_append]; omega) (Nat.le_refl _) (by simpa using hb.ends ends_nil)
  have hend : skipSpace bs = [] := List.dropWhile_eq_nil_iff.2 hb
  rw [document, hv]
  dsimp only
  rw [hend]

theorem parse?_pretty {j : Json} (h : Plain (depthLimit - 1) j) :
    parse? (j.pretty ++ "\n") = some j.normal := by
  have htext : (j.pretty ++ "\n").toList = prettyChars 0 j ++ ['\n'] := by
    simp [pretty]
  rw [parse?, parse, htext, document_behind (h.reads_pretty 0) (by simp [Blanks, isSpace])]
  rfl

end Anneal.Json
