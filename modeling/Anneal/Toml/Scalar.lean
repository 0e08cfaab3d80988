import Anneal.Decimal.Reading
import Anneal.Json.Value
import Anneal.Text.Search
import Anneal.Word

/-!
# TOML scalars

Booleans, numbers, dates and times that stand without quotes, each read from the whole text of one
token. A date or a time has no counterpart in JSON; it becomes an object with one marked member.
-/

namespace Anneal.Toml

open Decimal (isDigit digitValue natOfDigits)

def joined? (isOne : Char → Bool) (cs : List Char) : Option (List Char) :=
  let groups := Text.splitWhere (· == '_') cs
  if groups.all fun g => !g.isEmpty && g.all isOne then some groups.flatten else none

def digitOf (c : Char) : Nat :=
  if isDigit c then digitValue c
  else if 'a' ≤ c ∧ c ≤ 'f' then c.toNat - 'a'.toNat + 10
  else if 'A' ≤ c ∧ c ≤ 'F' then c.toNat - 'A'.toNat + 10
  else 36

def natInBase (base : Nat) (cs : List Char) : Nat :=
  cs.foldl (fun n c => n * base + digitOf c) 0

def fitting (n : Int) : Option Json :=
  if -(Word.bound 127 : Int) ≤ n ∧ n < Word.bound 128 then some (.int n) else none

def inBase (base : Nat) (cs : List Char) : Option Json :=
  (joined? (fun c => digitOf c < base) cs).bind fun ds => fitting (natInBase base ds)

def wholeDigits? (cs : List Char) : Option (List Char) :=
  match joined? isDigit cs with
  | some ('0' :: _ :: _) => none
  | r => r

def exponent? : List Char → Option Int
  | [] => some 0
  | c :: cs =>
    if c = 'e' ∨ c = 'E' then
      let s := Decimal.takeSign cs
      (joined? isDigit s.2).map fun ds =>
        if s.1 then -(natOfDigits ds : Int) else natOfDigits ds
    else none

def finite (negative : Bool) (x : Float) : Option Json :=
  if x.isFinite then some (.float (if negative then -x else x)) else none

def isMark (c : Char) : Bool := c = 'e' || c = 'E'

def decimal (negative : Bool) (cs : List Char) : Option Json :=
  let whole := cs.takeWhile fun c => c != '.' && !isMark c
  match wholeDigits? whole, cs.drop whole.length with
  | none, _ => none
  | some ds, [] => fitting (if negative then -(natOfDigits ds : Int) else natOfDigits ds)
  | some ds, '.' :: rest =>
    let fraction := rest.takeWhile fun c => !isMark c
    match joined? isDigit fraction, exponent? (rest.drop fraction.length) with
    | some fs, some e =>
      finite negative (Decimal.nearest (natOfDigits (ds ++ fs)) (e - fs.length))
    | _, _ => none
  | some ds, rest =>
    (exponent? rest).bind fun e => finite negative (Decimal.nearest (natOfDigits ds) e)

def number (cs : List Char) : Option Json :=
  match cs with
  | '0' :: 'x' :: ds => inBase 16 ds
  | '0' :: 'o' :: ds => inBase 8 ds
  | '0' :: 'b' :: ds => inBase 2 ds
  | _ =>
    let s := Decimal.takeSign cs
    if s.2 = ['i', 'n', 'f'] then some (.float (if s.1 then -(1.0 / 0.0) else 1.0 / 0.0))
    else if s.2 = ['n', 'a', 'n'] then some (.float (0.0 / 0.0))
    else decimal s.1 s.2

def momentKey : String := "$__toml_private_datetime"

def moment (text : List Char) : Json := .obj [(momentKey, .str (String.ofList text))]

def pair (least greatest : Nat) : List Char → Option (List Char × List Char)
  | a :: b :: rest =>
    let n := natOfDigits [a, b]
    if isDigit a && isDigit b && least ≤ n && n ≤ greatest then some ([a, b], rest) else none
  | _ => none

def isLeap (year : Nat) : Bool := year % 4 = 0 && (year % 100 ≠ 0 || year % 400 = 0)

def daysIn (year month : Nat) : Nat :=
  if month = 2 then if isLeap year then 29 else 28
  else if month = 4 ∨ month = 6 ∨ month = 9 ∨ month = 11 then 30
  else 31

def date : List Char → Option (List Char × List Char)
  | a :: b :: c :: d :: '-' :: rest =>
    if [a, b, c, d].all isDigit then
      match pair 1 12 rest with
      | some (month, '-' :: rest) =>
        let days := daysIn (natOfDigits [a, b, c, d]) (natOfDigits month)
        (pair 1 days rest).map fun r => (a :: b :: c :: d :: '-' :: month ++ '-' :: r.1, r.2)
      | _ => none
    else none
  | _ => none

def fractionText (digits : List Char) : List Char :=
  match ((digits.take 9).reverse.dropWhile (· == '0')).reverse with
  | [] => []
  | ds => '.' :: ds

def seconds : List Char → Option (List Char × List Char)
  | ':' :: rest =>
    match pair 0 60 rest with
    | none => none
    | some (ss, '.' :: rest) =>
      let digits := rest.takeWhile isDigit
      if digits.isEmpty then none
      else some (':' :: ss ++ fractionText digits, rest.dropWhile isDigit)
    | some (ss, rest) => some (':' :: ss, rest)
  | rest => some ([':', '0', '0'], rest)

def time (cs : List Char) : Option (List Char × List Char) :=
  match pair 0 23 cs with
  | some (hours, ':' :: rest) =>
    match pair 0 59 rest with
    | some (minutes, rest) =>
      (seconds rest).map fun r => (hours ++ ':' :: minutes ++ r.1, r.2)
    | none => none
  | _ => none

def offset : List Char → Option (List Char)
  | [] => some []
  | [c] => if c = 'Z' ∨ c = 'z' then some ['Z'] else none
  | sign :: rest =>
    if sign = '+' ∨ sign = '-' then
      match pair 0 23 rest with
      | some (hours, ':' :: rest) =>
        match pair 0 59 rest with
        | some (minutes, []) =>
          let zero := hours ++ minutes = ['0', '0', '0', '0']
          some ((if zero then '+' else sign) :: hours ++ ':' :: minutes)
        | _ => none
      | _ => none
    else none

def dateOrTime (cs : List Char) : Option Json :=
  match date cs with
  | some (d, []) => some (moment d)
  | some (d, c :: rest) =>
    if c = 'T' ∨ c = 't' ∨ c = ' ' then
      match time rest with
      | some (t, rest) => (offset rest).map fun o => moment (d ++ 'T' :: t ++ o)
      | none => none
    else none
  | none => match time cs with
    | some (t, []) => some (moment t)
    | _ => none

def scalar (cs : List Char) : Option Json :=
  if cs = "true".toList then some (.bool true)
  else if cs = "false".toList then some (.bool false)
  else (dateOrTime cs).orElse fun _ => number cs

end Anneal.Toml
