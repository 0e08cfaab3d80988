/-!
# Reading bytes as text

A byte sequence is cut into units: characters, and maximal runs of bytes that cannot be continued
to one. Text is strict when it has no unit of the second kind; lossy reading puts U+FFFD for each.
-/

namespace Anneal.Text

abbrev Bytes := List UInt8

structure Lead where
  bits : Nat
  following : Nat
  low : Nat
  high : Nat

def Lead.ofByte? (b : UInt8) : Option Lead :=
  let n := b.toNat
  if n < 0x80 then some ⟨n, 0, 0x80, 0xBF⟩
  else if n < 0xC2 then none
  else if n < 0xE0 then some ⟨n - 0xC0, 1, 0x80, 0xBF⟩
  else if n = 0xE0 then some ⟨0, 2, 0xA0, 0xBF⟩
  else if n = 0xED then some ⟨0xD, 2, 0x80, 0x9F⟩
  else if n < 0xF0 then some ⟨n - 0xE0, 2, 0x80, 0xBF⟩
  else if n = 0xF0 then some ⟨0, 3, 0x90, 0xBF⟩
  else if n < 0xF4 then some ⟨n - 0xF0, 3, 0x80, 0xBF⟩
  else if n = 0xF4 then some ⟨4, 3, 0x80, 0x8F⟩
  else none

def followers (bits low high : Nat) : Nat → Bytes → Option Nat × Bytes
  | 0, bs => (some bits, bs)
  | _ + 1, [] => (none, [])
  | count + 1, b :: bs =>
    if low ≤ b.toNat ∧ b.toNat ≤ high then
      followers (bits * 64 + b.toNat % 64) 0x80 0xBF count bs
    else (none, b :: bs)

theorem length_followers (bits low high count : Nat) (bs : Bytes) :
    (followers bits low high count bs).2.length ≤ bs.length := by
  induction count generalizing bits low high bs with
  | zero => simp [followers]
  | succ count ih =>
    cases bs with
    | nil => simp [followers]
    | cons b bs =>
      simp only [followers]
      split
      · exact Nat.le_succ_of_le (ih ..)
      · simp

def firstUnit (b : UInt8) (bs : Bytes) : Option Char × Bytes :=
  match Lead.ofByte? b with
  | none => (none, bs)
  | some lead =>
    let r := followers lead.bits lead.low lead.high lead.following bs
    (r.1.map Char.ofNat, r.2)

theorem length_firstUnit (b : UInt8) (bs : Bytes) :
    (firstUnit b bs).2.length ≤ bs.length := by
  simp only [firstUnit]
  split
  · simp
  · exact length_followers ..

def units : Bytes → List (Option Char)
  | [] => []
  | b :: bs => (firstUnit b bs).1 :: units (firstUnit b bs).2
termination_by bs => bs.length
decreasing_by exact Nat.lt_succ_of_le (length_firstUnit b bs)

def decodeLossy (bs : Bytes) : String :=
  String.ofList ((units bs).map fun u => u.getD '\uFFFD')

def decode? (bs : Bytes) : Option String :=
  ((units bs).mapM id).map String.ofList

def encode (s : String) : Bytes := s.toList.flatMap String.utf8EncodeChar

def stray (b : UInt8) : Char := Char.ofNat (0x10FF00 + b.toNat)

def isStray (c : Char) : Bool := 0x10FF80 ≤ c.toNat && c.toNat ≤ 0x10FFFF

def charsOf : Bytes → List Char
  | [] => []
  | b :: bs =>
    let unit := firstUnit b bs
    match unit.1 with
    | some c => c :: charsOf unit.2
    | none => stray b :: charsOf bs
termination_by bs => bs.length
decreasing_by
  · exact Nat.lt_succ_of_le (length_firstUnit b bs)
  · exact Nat.lt_succ_self _

def bytesOf (cs : List Char) : Bytes :=
  cs.flatMap fun c => if isStray c then [UInt8.ofNat (c.toNat % 256)] else String.utf8EncodeChar c

def encodedSize (cs : List Char) : Nat := cs.foldr (fun c n => c.utf8Size + n) 0

end Anneal.Text
