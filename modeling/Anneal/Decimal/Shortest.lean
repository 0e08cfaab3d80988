import Anneal.Word

/-!
# Shortest decimals

A finite double is `mantissa * 2 ^ exponent`; the reals that round to it form an interval. Its
shortest decimal is the one with the fewest digits inside that interval, and among those the
nearest. The search runs on exact natural numbers: for each digit count it tests the two
neighbours of the value on the decimal grid with that many digits.
-/

namespace Anneal

structure Decimal where
  coefficient : Nat
  exponent : Int
  deriving DecidableEq, Repr, Inhabited

namespace Decimal

structure Binary where
  mantissa : Nat
  exponent : Int
  narrowBelow : Bool

def Binary.ofFloat (x : Float) : Binary :=
  let bits := x.toBits.toNat
  let fraction := bits % Word.bound 52
  let biased : Nat := bits / Word.bound 52 % Word.bound 11
  if biased = 0 then ⟨fraction, -1074, false⟩
  else ⟨fraction + Word.bound 52, (biased : Int) - 1075, decide (fraction = 0 ∧ 1 < biased)⟩

def isNegative (x : Float) : Bool := Word.bound 63 ≤ x.toBits.toNat

structure Rounding where
  low : Nat
  value : Nat
  high : Nat
  denominator : Nat
  closed : Bool

def Binary.rounding (b : Binary) : Rounding :=
  let up := Nat.pow 2 (b.exponent - 2).toNat
  { low := (4 * b.mantissa - if b.narrowBelow then 1 else 2) * up
    value := 4 * b.mantissa * up
    high := (4 * b.mantissa + 2) * up
    denominator := Nat.pow 2 (2 - b.exponent).toNat
    closed := b.mantissa % 2 == 0 }

def Rounding.holds (r : Rounding) (n scale : Nat) : Bool :=
  if r.closed then r.low * scale ≤ n && n ≤ r.high * scale
  else r.low * scale < n && n < r.high * scale

def leadingExponent (num den : Nat) : Nat → Int
  | 0 => 0
  | fuel + 1 =>
    if num < den then leadingExponent (num * 10) den fuel - 1
    else ((toString (num / den)).length : Int) - 1

def Rounding.onGrid (r : Rounding) (leading : Int) (count : Nat) : Option Decimal :=
  let exponent := leading - count + 1
  let unit := Nat.pow 10 exponent.toNat * r.denominator
  let scale := Nat.pow 10 (-exponent).toNat
  let below := r.value * scale / unit
  let lower := r.holds (below * unit) scale
  let upper := r.holds ((below + 1) * unit) scale
  if lower && upper then
    let dLow := r.value * scale - below * unit
    let dHigh := (below + 1) * unit - r.value * scale
    let takeLow := dLow < dHigh || (dLow = dHigh && below % 2 = 0)
    some ⟨if takeLow then below else below + 1, exponent⟩
  else if lower then some ⟨below, exponent⟩
  else if upper then some ⟨below + 1, exponent⟩
  else none

def stripZeros (coefficient : Nat) (exponent : Int) : Nat → Decimal
  | 0 => ⟨coefficient, exponent⟩
  | fuel + 1 =>
    if coefficient ≠ 0 ∧ coefficient % 10 = 0 then
      stripZeros (coefficient / 10) (exponent + 1) fuel
    else ⟨coefficient, exponent⟩

def shortest (x : Float) : Decimal :=
  let b := Binary.ofFloat x
  if b.mantissa = 0 then ⟨0, 0⟩
  else
    let r := b.rounding
    let leading := leadingExponent r.value r.denominator 400
    match (List.range 17).findSome? fun i => r.onGrid leading (i + 1) with
    | some d => stripZeros d.coefficient d.exponent 20
    | none => ⟨r.value / r.denominator, 0⟩

end Decimal
end Anneal
