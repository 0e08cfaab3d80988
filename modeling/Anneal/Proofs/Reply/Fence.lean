import Anneal.Proofs.Text.Search
import Anneal.Reply.Fence

/-! Where the blocks of a text are. -/

namespace Anneal.Reply

open Anneal.Text

def fenced (info body : List Char) : List Char :=
  '\n' :: fenceMark ++ info ++ '\n' :: body ++ '\n' :: fenceMark

theorem nextBlock?_fenced {info body : List Char} (hinfo : '\n' ∉ info)
    (hbody : ¬ fenceMark <:+: body) (after : List Char) :
    nextBlock? fenceMark (fenced info body ++ after) = some (⟨info, body ++ ['\n']⟩, after) := by
  let rest := body ++ '\n' :: fenceMark ++ after
  have hline : '\n' ∉ fenceMark := by decide
  have htext : fenced info body ++ after = [] ++ '\n' :: fenceMark ++ (info ++ '\n' :: rest) := by
    simp [fenced, rest]
  have hopen : breakOn fenceMark (fenced info body ++ after) =
      some (['\n'], info ++ '\n' :: rest) := by
    rw [htext]
    exact breakOn_of_separator (by decide) hline (by decide)
  have hclose : breakOn fenceMark rest = some (body ++ ['\n'], after) :=
    breakOn_of_separator (by decide) hline hbody
  unfold nextBlock?
  rw [hopen]
  dsimp only
  rw [dropWhile_bne hinfo, takeWhile_bne hinfo]
  dsimp only
  rw [hclose]

theorem blocks_cons {opening cs rest : List Char} {b : Block}
    (h : nextBlock? opening cs = some (b, rest)) :
    blocks opening cs = b :: blocks opening rest := by
  rw [blocks]
  split
  next hn =>
    rw [hn] at h
    cases h
  next hs =>
    rw [hs] at h
    cases h
    rfl

theorem blocks_nil {opening cs : List Char} (h : nextBlock? opening cs = none) :
    blocks opening cs = [] := by
  rw [blocks]
  split
  next => rfl
  next hs =>
    rw [hs] at h
    cases h

theorem nextBlock?_body {opening cs rest : List Char} {b : Block}
    (h : nextBlock? opening cs = some (b, rest)) : ¬ fenceMark <:+: b.body := by
  unfold nextBlock? at h
  split at h
  · cases h
  · split at h
    · cases h
    · split at h
      · cases h
      next hclose =>
        cases h
        exact not_infix_of_breakOn (by decide) hclose

theorem body_of_mem_blocks {opening cs : List Char} {b : Block} (h : b ∈ blocks opening cs) :
    ¬ fenceMark <:+: b.body := by
  induction cs using blocks.induct opening with
  | case1 cs hn =>
    rw [blocks_nil hn] at h
    cases h
  | case2 cs b' rest hs ih =>
    rw [blocks_cons hs] at h
    rcases List.mem_cons.1 h with rfl | h
    · exact nextBlock?_body hs
    · exact ih h

end Anneal.Reply
