import Anneal.Text.Search

/-!
# Reading doubles

The grammar of a decimal number with optional sign, point and exponent, and the double nearest to
a decimal. Infinities and the undefined value have names, read in any case.
-/

namespace Anneal.Decimal

open Anneal.Text

def isDigit (c : Char) : Bool := '0' ≤ c && c ≤ '9'

def digitValue (c : Char) : Nat := c.toNat - '0'.toNat

def natOfDigits (cs : List Char) : Nat := cs.foldl (fun n c => n * 10 + digitValue c) 0

/-- The double nearest to `coefficient * 10 ^ exponent`. Exponents far outside the range of
doubles are settled by the digit count alone. -/
def nearest (coefficient : Nat) (exponent : Int) : Float :=
  let leading := (toString coefficient).length + exponent
  if coefficient = 0 || leading < -340 then 0.0
  else if 320 < leading then 1.0 / 0.0
  else if 0 ≤ exponent then Float.ofScientific coefficient false exponent.toNat
  else Float.ofScientific coefficient true (-exponent).toNat

def takeSign : List Char → Bool × List Char
  | '-' :: cs => (true, cs)
  | '+' :: cs => (false, cs)
  | cs => (false, cs)

def exponentPart? : List Char → Option Int
  | [] => some 0
  | c :: cs =>
    if c = 'e' ∨ c = 'E' then
      let s := takeSign cs
      if s.2.isEmpty || !s.2.all isDigit then none
      else some (if s.1 then -(natOfDigits s.2 : Int) else natOfDigits s.2)
    else none

def unsigned? (cs : List Char) : Option Float :=
  let whole := cs.takeWhile isDigit
  let rest := cs.dropWhile isDigit
  let fraction := match rest with
    | '.' :: r => r.takeWhile isDigit
    | _ => []
  let tail := match rest with
    | '.' :: r => r.dropWhile isDigit
    | _ => rest
  if whole.isEmpty && fraction.isEmpty then none
  else (exponentPart? tail).map fun e =>
    nearest (natOfDigits (whole ++ fraction)) (e - fraction.length)

def named? (cs : List Char) : Option Float :=
  let name := lowerChars cs
  if name = "inf".toList ∨ name = "infinity".toList then some (1.0 / 0.0)
  else if name = "nan".toList then some (0.0 / 0.0)
  else none

def read? (cs : List Char) : Option Float :=
  let s := takeSign cs
  let magnitude := (unsigned? s.2).orElse fun _ => named? s.2
  magnitude.map fun x => if s.1 then -x else x

end Anneal.Decimal
