/-!
# Machine words

Numbers of a fixed width, by the bound below which they lie.
-/

namespace Anneal.Word

/-- The numbers that fit into so many bits are below this one. -/
def bound (bits : Nat) : Nat := Nat.pow 2 bits

theorem bound_succ (bits : Nat) : bound (bits + 1) = bound bits * 2 := rfl

theorem bound_pos (bits : Nat) : 0 < bound bits := Nat.two_pow_pos bits

end Anneal.Word
