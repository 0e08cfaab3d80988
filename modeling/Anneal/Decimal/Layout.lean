import Anneal.Decimal.Shortest

/-!
# Writing doubles

A layout says where a shortest decimal is written positionally and where with an exponent, and
what a whole number ends with.
-/

namespace Anneal.Decimal

structure Layout where
  positional : Option (Int × Int)
  whole : String
  nan : String
  infinity : String

def Layout.document : Layout := ⟨some (-5, 15), ".0", "null", "null"⟩

def Layout.message : Layout := ⟨none, "", "NaN", "inf"⟩

def Layout.settings : Layout := ⟨none, ".0", "nan", "inf"⟩

def zeros (n : Nat) : String := String.ofList (List.replicate n '0')

def Layout.positionalText (l : Layout) (digits : String) (exponent : Int) : String :=
  let point := (digits.length : Int) + exponent
  if 0 ≤ exponent then digits ++ zeros exponent.toNat ++ l.whole
  else if 0 < point then
    let cs := digits.toList
    String.ofList (cs.take point.toNat) ++ "." ++ String.ofList (cs.drop point.toNat)
  else "0." ++ zeros (-point).toNat ++ digits

def scientificText (digits : String) (leading : Int) : String :=
  let cs := digits.toList
  let fraction := cs.drop 1
  let mantissa :=
    if fraction.isEmpty then digits else String.ofList (cs.take 1 ++ '.' :: fraction)
  mantissa ++ (if 0 ≤ leading then "e+" else "e-") ++ toString leading.natAbs

def Layout.magnitude (l : Layout) (d : Decimal) : String :=
  let digits := toString d.coefficient
  let leading := (digits.length : Int) + d.exponent - 1
  match l.positional with
  | none => l.positionalText digits d.exponent
  | some (least, greatest) =>
    if least ≤ leading && leading ≤ greatest then l.positionalText digits d.exponent
    else scientificText digits leading

def Layout.render (l : Layout) (x : Float) : String :=
  if x.isNaN then l.nan
  else
    let body := if x.isInf then l.infinity else l.magnitude (shortest x)
    if isNegative x then "-" ++ body else body

end Anneal.Decimal
