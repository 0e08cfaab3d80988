import Anneal.Text.Search

/-!
# Fenced blocks

A block opens with three backticks and an info line and closes at the next three backticks. The
blocks of a text follow one another without overlap: each search begins where the block before it
ended.
-/

namespace Anneal.Reply

open Anneal.Text

def fenceMark : List Char := ['`', '`', '`']

structure Block where
  info : List Char
  body : List Char
  deriving DecidableEq, Repr

def nextBlock? (opening : List Char) (cs : List Char) : Option (Block × List Char) :=
  match breakOn opening cs with
  | none => none
  | some (_, after) =>
    match after.dropWhile (· != '\n') with
    | [] => none
    | _ :: text =>
      match breakOn fenceMark text with
      | none => none
      | some (body, rest) => some (⟨after.takeWhile (· != '\n'), body⟩, rest)

theorem length_nextBlock? {opening cs rest : List Char} {b : Block}
    (h : nextBlock? opening cs = some (b, rest)) : rest.length < cs.length := by
  simp only [nextBlock?] at h
  split at h
  · simp at h
  · next after hopen =>
    split at h
    · simp at h
    · next text hline =>
      split at h
      · simp at h
      · next body rest' hclose =>
        simp only [Option.some.injEq, Prod.mk.injEq] at h
        obtain ⟨-, rfl⟩ := h
        have h₁ := length_breakOn hopen
        have h₂ := length_breakOn hclose
        have h₃ : (after.dropWhile (· != '\n')).length ≤ after.length :=
          (List.dropWhile_sublist _).length_le
        rw [hline, List.length_cons] at h₃
        simp only [fenceMark, List.length_cons, List.length_nil] at h₂
        omega

def blocks (opening : List Char) (cs : List Char) : List Block :=
  match _h : nextBlock? opening cs with
  | none => []
  | some (b, rest) => b :: blocks opening rest
termination_by cs.length
decreasing_by exact length_nextBlock? _h

end Anneal.Reply
