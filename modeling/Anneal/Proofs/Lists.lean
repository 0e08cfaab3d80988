import Mathlib.Data.List.Infix
import Mathlib.Data.List.TakeWhile

/-! Where an element or a stretch of a list stands that is put together from others. -/

namespace Anneal

variable {α : Type} {needle as bs cs ds : List α} {x : α}

/-- An element of an appended list is on the one side or on the other. -/
theorem append_eq_append_cons_iff :
    as ++ bs = cs ++ x :: ds ↔
      (∃ rest, as = cs ++ x :: rest ∧ ds = rest ++ bs) ∨
        ∃ front, bs = front ++ x :: ds ∧ cs = as ++ front := by
  rw [List.append_eq_append_iff]
  constructor
  · rintro (⟨front, rfl, rfl⟩ | ⟨rest, rfl, hds⟩)
    · exact .inr ⟨front, rfl, rfl⟩
    · cases rest with
      | nil => exact .inr ⟨[], hds.symm, by simp⟩
      | cons y rest =>
        obtain ⟨rfl, rfl⟩ := List.cons.inj hds
        exact .inl ⟨rest, rfl, rfl⟩
  · rintro (⟨rest, rfl, rfl⟩ | ⟨front, rfl, rfl⟩)
    · exact .inr ⟨x :: rest, rfl, rfl⟩
    · exact .inl ⟨front, rfl, rfl⟩

theorem not_infix_dropLast (h : needle ≠ []) : ¬ needle <:+: needle.dropLast := by
  intro hi
  have hlength := hi.length_le
  rw [List.length_dropLast] at hlength
  have hpos := List.length_pos_iff.2 h
  omega

/-- A stretch lies on one side of an element that can only stand at its beginning. -/
theorem infix_append_cons_iff (hx : x ∉ needle.tail) :
    needle <:+: as ++ x :: bs ↔ needle <:+: as ∨ needle <:+: x :: bs := by
  rw [List.infix_append_iff]
  constructor
  · rintro (h | h | ⟨l₁, l₂, rfl, h₁, h₂⟩)
    · exact .inl h
    · exact .inr h
    · cases l₂ with
      | nil => exact .inl (by simpa using h₁.isInfix)
      | cons d l₂ =>
        obtain rfl := (List.cons_prefix_cons.1 h₂).1
        cases l₁ with
        | nil => exact .inr h₂.isInfix
        | cons a l₁ => simp at hx
  · rintro (h | h)
    · exact .inl h
    · exact .inr (.inl h)

theorem infix_append_cons_iff_of_not_mem (hn : needle ≠ []) (hx : x ∉ needle) :
    needle <:+: as ++ x :: bs ↔ needle <:+: as ∨ needle <:+: bs := by
  rw [infix_append_cons_iff fun h => hx (List.mem_of_mem_tail h), List.infix_cons_iff]
  refine or_congr_right (or_iff_right fun h => ?_)
  cases needle with
  | nil => exact hn rfl
  | cons y needle => simp [(List.cons_prefix_cons.1 h).1] at hx

section FirstPlace

variable [BEq α] [LawfulBEq α]

theorem bne_of_notMem (h : x ∉ as) : ∀ a ∈ as, (a != x) = true := by
  intro a ha
  rw [bne_iff_ne]
  rintro rfl
  exact h ha

theorem takeWhile_bne (h : x ∉ as) (bs : List α) :
    (as ++ x :: bs).takeWhile (· != x) = as := by
  rw [List.takeWhile_append_of_pos (bne_of_notMem h), List.takeWhile_cons_of_neg (by simp),
    List.append_nil]

theorem dropWhile_bne (h : x ∉ as) (bs : List α) :
    (as ++ x :: bs).dropWhile (· != x) = x :: bs := by
  rw [List.dropWhile_append_of_pos (bne_of_notMem h), List.dropWhile_cons_of_neg (by simp)]

theorem notMem_takeWhile_bne (x : α) (as : List α) : x ∉ as.takeWhile (· != x) := by
  intro hx
  simpa using List.mem_takeWhile_imp hx

theorem eq_of_dropWhile_bne {y : α} (h : as.dropWhile (· != x) = y :: bs) : y = x := by
  have hy := List.head?_dropWhile_not (· != x) as
  rw [h] at hy
  simpa using hy

end FirstPlace

end Anneal
