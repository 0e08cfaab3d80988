import Anneal.Text.Utf8

/-!
# Bounded capture of a stream

A stream arrives in pieces. Its first bytes are kept up to a limit and the others are counted, so
that what was kept and what was dropped always make up the stream.
-/

namespace Anneal

open Anneal.Text (Bytes)

structure Capture where
  kept : Bytes
  dropped : Nat
  deriving DecidableEq, Repr

namespace Capture

def empty : Capture := ⟨[], 0⟩

def add (limit : Nat) (c : Capture) (piece : Bytes) : Capture :=
  let room := limit - c.kept.length
  ⟨c.kept ++ piece.take room, c.dropped + (piece.length - room)⟩

def read (limit : Nat) (pieces : List Bytes) : Capture := pieces.foldl (add limit) empty

def pieceSize : Nat := 8192

def pieces (stream : Bytes) : List Bytes :=
  if _h : stream = [] then []
  else stream.take pieceSize :: pieces (stream.drop pieceSize)
termination_by stream.length
decreasing_by
  have := List.length_pos_iff.2 _h
  simp only [List.length_drop, pieceSize]
  omega

theorem pieces_filled (stream : Bytes) : ∀ piece ∈ pieces stream, piece ≠ [] := by
  fun_induction pieces stream with
  | case1 => simp
  | case2 stream h ih =>
    refine List.forall_mem_cons.2 ⟨fun hnil => ?_, ih⟩
    rcases List.take_eq_nil_iff.1 hnil with hsize | hstream
    · cases hsize
    · exact h hstream

def ofStream (limit : Nat) (stream : Bytes) : Capture := read limit (pieces stream)

def notice (stream : String) (dropped : Nat) : String :=
  if dropped = 0 then "" else s!"\n[{stream} truncated {dropped} bytes]\n"

/-- The stream called `name` as a text. -/
def text (c : Capture) (name : String) : String :=
  Text.decodeLossy c.kept ++ notice name c.dropped

end Capture
end Anneal
