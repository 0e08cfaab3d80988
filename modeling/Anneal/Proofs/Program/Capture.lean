import Anneal.Program.Capture
import Mathlib.Data.List.Flatten

/-! A capture keeps the first bytes of a stream and counts the others, in whatever pieces they
come. -/

namespace Anneal.Capture

open Anneal.Text (Bytes)

def cut (limit : Nat) (stream : Bytes) : Capture := ⟨stream.take limit, stream.length - limit⟩

theorem add_cut (limit : Nat) (stream piece : Bytes) :
    (cut limit stream).add limit piece = cut limit (stream ++ piece) := by
  unfold cut add
  dsimp only
  have hroom : limit - min limit stream.length = limit - stream.length := by omega
  rw [List.take_append, List.length_take, List.length_append, Capture.mk.injEq, hroom]
  exact ⟨rfl, by omega⟩

theorem foldl_cut (limit : Nat) (stream : Bytes) (pieces : List Bytes) :
    pieces.foldl (add limit) (cut limit stream) = cut limit (stream ++ pieces.flatten) := by
  induction pieces generalizing stream with
  | nil => simp
  | cons piece pieces ih =>
    rw [List.foldl_cons, add_cut, ih, List.flatten_cons, List.append_assoc]

theorem read_eq (limit : Nat) (pieces : List Bytes) : read limit pieces = cut limit pieces.flatten := by
  have hempty : cut limit [] = empty := by simp [cut, empty]
  rw [read, ← hempty, foldl_cut, List.nil_append]

theorem flatten_pieces (stream : Bytes) : (pieces stream).flatten = stream := by
  fun_induction pieces stream with
  | case1 => rfl
  | case2 stream h ih => rw [List.flatten_cons, ih, List.take_append_drop]

/-- The reads in which a stream arrives: none comes back empty before the end of the stream, and
none brings more than is read at once. -/
structure Delivers (reads : List Bytes) (stream : Bytes) : Prop where
  whole : reads.flatten = stream
  filled : ∀ piece ∈ reads, piece ≠ [] ∧ piece.length ≤ pieceSize

/-- What a capture with a limit holds of a stream. -/
structure Holds (limit : Nat) (stream : Bytes) (c : Capture) : Prop where
  kept : c.kept = stream.take (min limit stream.length)
  length : c.kept.length = min limit stream.length
  dropped : c.dropped = stream.length - min limit stream.length
  complete : c.kept.length + c.dropped = stream.length

theorem delivers_pieces (stream : Bytes) : Delivers (pieces stream) stream where
  whole := flatten_pieces stream
  filled := by
    fun_induction pieces stream with
    | case1 => simp
    | case2 stream h ih =>
      refine List.forall_mem_cons.2 ⟨⟨?_, ?_⟩, ih⟩
      · rw [ne_eq, List.take_eq_nil_iff]
        exact not_or.2 ⟨by decide, h⟩
      · rw [List.length_take]
        exact Nat.min_le_left _ _

theorem cut_holds (limit : Nat) (stream : Bytes) : Holds limit stream (cut limit stream) where
  kept := List.take_eq_take_min
  length := List.length_take
  dropped := by
    show stream.length - limit = _
    omega
  complete := by
    show (stream.take limit).length + (stream.length - limit) = _
    rw [List.length_take]
    omega

/-- A capture does not depend on the reads in which its stream arrives. -/
theorem capture_ignores_delivery (limit : Nat) {stream : Bytes} {reads : List Bytes}
    (h : Delivers reads stream) :
    Holds limit stream (read limit reads) ∧
      (∀ reads', Delivers reads' stream → read limit reads' = read limit reads) ∧
      ofStream limit stream = read limit reads := by
  have hread {reads : List Bytes} (h : Delivers reads stream) :
      read limit reads = cut limit stream := by
    rw [read_eq, h.whole]
  have hsame : ∀ reads', Delivers reads' stream → read limit reads' = read limit reads := by
    intro reads' h'
    rw [hread h, hread h']
  refine ⟨?_, hsame, hsame (pieces stream) (delivers_pieces stream)⟩
  rw [hread h]
  exact cut_holds limit stream

/-- Five bytes in two reads, of which the limit cuts the second. -/
theorem two_reads_captured :
    Delivers [[0x61, 0x62], [0x63, 0x64, 0x65]] [0x61, 0x62, 0x63, 0x64, 0x65] ∧
      Holds 3 [0x61, 0x62, 0x63, 0x64, 0x65] (read 3 [[0x61, 0x62], [0x63, 0x64, 0x65]]) ∧
      read 3 [[0x61, 0x62, 0x63, 0x64], [0x65]] = read 3 [[0x61, 0x62], [0x63, 0x64, 0x65]] := by
  have h : Delivers [[0x61, 0x62], [0x63, 0x64, 0x65]] [0x61, 0x62, 0x63, 0x64, 0x65] :=
    ⟨rfl, by decide⟩
  have h' : Delivers [[0x61, 0x62, 0x63, 0x64], [0x65]] [0x61, 0x62, 0x63, 0x64, 0x65] :=
    ⟨rfl, by decide⟩
  obtain ⟨hholds, hsame, -⟩ := capture_ignores_delivery 3 h
  exact ⟨h, hholds, hsame _ h'⟩

end Anneal.Capture
