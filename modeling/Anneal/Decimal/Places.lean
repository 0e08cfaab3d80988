import Anneal.Decimal.Shortest

/-!
# Doubles with a fixed number of places

A finite double is a fraction of whole numbers, so its digits up to any place are exact; the last one
is rounded to the nearest, and a half goes to the even neighbour. The number is written positionally,
with an exponent of at least two digits, or in the shorter of the two ways.
-/

namespace Anneal.Decimal

def roundDiv (num den : Nat) : Nat :=
  let below := num / den
  let rest := 2 * (num % den)
  if rest < den ∨ (rest = den ∧ below % 2 = 0) then below else below + 1

def Binary.fraction (b : Binary) : Nat × Nat :=
  (b.mantissa * Nat.pow 2 b.exponent.toNat, Nat.pow 2 (-b.exponent).toNat)

def pointed (places units : Nat) : List Char :=
  let digits := (toString units).toList
  let digits := List.replicate (places + 1 - digits.length) '0' ++ digits
  let whole := digits.take (digits.length - places)
  if places = 0 then whole else whole ++ '.' :: digits.drop (digits.length - places)

def positional (places : Nat) (x : Float) : List Char :=
  let f := (Binary.ofFloat x).fraction
  pointed places (roundDiv (f.1 * Nat.pow 10 places) f.2)

def leadingDigits (places : Nat) (x : Float) : Nat × Int :=
  let f := (Binary.ofFloat x).fraction
  if f.1 = 0 then (0, 0)
  else
    let leading := leadingExponent f.1 f.2 400
    let shift := (places : Int) - leading
    let units := roundDiv (f.1 * Nat.pow 10 shift.toNat) (f.2 * Nat.pow 10 (-shift).toNat)
    if Nat.pow 10 (places + 1) ≤ units then (units / 10, leading + 1) else (units, leading)

def exponentText (exponent : Int) : List Char :=
  let digits := (toString exponent.natAbs).toList
  (if exponent < 0 then ['e', '-'] else ['e', '+']) ++
    List.replicate (2 - digits.length) '0' ++ digits

def scientific (places : Nat) (x : Float) : List Char :=
  let d := leadingDigits places x
  pointed places d.1 ++ exponentText d.2

def withoutTail (cs : List Char) : List Char :=
  if cs.contains '.' then
    match cs.reverse.dropWhile (· == '0') with
    | '.' :: rest => rest.reverse
    | rest => rest.reverse
  else cs

/-- The magnitude of a finite double with so many digits in all, with an exponent if it is small or
large. Zeros at the end of the fraction are kept on demand. -/
def general (digits : Nat) (keep : Bool) (x : Float) : List Char :=
  let places := max digits 1 - 1
  let d := leadingDigits places x
  let trim (cs : List Char) : List Char := if keep then cs else withoutTail cs
  if -4 ≤ d.2 ∧ d.2 ≤ places then trim (positional ((places : Int) - d.2).toNat x)
  else trim (pointed places d.1) ++ exponentText d.2

end Anneal.Decimal
