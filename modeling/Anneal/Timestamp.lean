import Anneal.Decimal.Reading
import Anneal.Text.Search
import Anneal.Word

/-!
# Moments in time

A moment is kept by its calendar fields in UTC. It is written as `2024-05-06T07:08:09Z` with as
many fraction digits as it needs, in groups of three. Reading also takes other offsets, which move
the fields to UTC, a space or small letter between date and time, and blanks around numbers.
-/

namespace Anneal

open Anneal.Text Anneal.Decimal

structure Timestamp where
  year : Int
  month : Nat
  day : Nat
  hour : Nat
  minute : Nat
  second : Nat
  nanos : Nat
  deriving DecidableEq, Repr, Inhabited

namespace Timestamp

def isLeapYear (y : Int) : Bool := y % 4 = 0 && (y % 100 ≠ 0 || y % 400 = 0)

def daysInMonth (y : Int) (m : Nat) : Nat :=
  if m = 2 then (if isLeapYear y then 29 else 28)
  else if m = 4 ∨ m = 6 ∨ m = 9 ∨ m = 11 then 30
  else 31

def dayNumber (y : Int) (m d : Nat) : Int :=
  let y' := if m ≤ 2 then y - 1 else y
  let era := y' / 400
  let yearOfEra := y' % 400
  let monthFromMarch : Int := ((m : Int) + 9) % 12
  let dayOfYear := (153 * monthFromMarch + 2) / 5 + d - 1
  era * 146097 + (yearOfEra * 365 + yearOfEra / 4 - yearOfEra / 100 + dayOfYear) - 719468

def dateOfDay (n : Int) : Int × Nat × Nat :=
  let z := n + 719468
  let era := z / 146097
  let dayOfEra := z % 146097
  let yearOfEra := (dayOfEra - dayOfEra / 1460 + dayOfEra / 36524 - dayOfEra / 146096) / 365
  let dayOfYear := dayOfEra - (365 * yearOfEra + yearOfEra / 4 - yearOfEra / 100)
  let monthFromMarch := (5 * dayOfYear + 2) / 153
  let day := dayOfYear - (153 * monthFromMarch + 2) / 5 + 1
  let month := if monthFromMarch < 10 then monthFromMarch + 3 else monthFromMarch - 9
  let year := yearOfEra + era * 400 + (if month ≤ 2 then 1 else 0)
  (year, month.toNat, day.toNat)

def minusSeconds (t : Timestamp) (seconds : Int) : Timestamp :=
  if seconds = 0 then t
  else
    let leap := t.second = 60
    let inDay : Int := t.hour * 3600 + t.minute * 60 + (if leap then 59 else t.second)
    let total := dayNumber t.year t.month t.day * 86400 + inDay - seconds
    let (year, month, day) := dateOfDay (total / 86400)
    let rest := (total % 86400).toNat
    { year := year, month := month, day := day, hour := rest / 3600, minute := rest / 60 % 60
      second := rest % 60 + (if leap then 1 else 0), nanos := t.nanos }

def ofMillis (ms : Nat) : Timestamp :=
  let (year, month, day) := dateOfDay (ms / 86400000)
  let rest := ms % 86400000
  { year := year, month := month, day := day, hour := rest / 3600000
    minute := rest / 60000 % 60, second := rest / 1000 % 60, nanos := rest % 1000 * 1000000 }

def padded (width n : Nat) : String :=
  let digits := toString n
  String.ofList (List.replicate (width - digits.length) '0') ++ digits

def yearText (y : Int) : String :=
  if 0 ≤ y ∧ y ≤ 9999 then padded 4 y.toNat
  else (if 0 ≤ y then "+" else "-") ++ padded 4 y.natAbs

def upToSeconds (t : Timestamp) : String :=
  yearText t.year ++ "-" ++ padded 2 t.month ++ "-" ++ padded 2 t.day ++ "T" ++
    padded 2 t.hour ++ ":" ++ padded 2 t.minute ++ ":" ++ padded 2 t.second

def fractionText (nanos : Nat) : String :=
  if nanos = 0 then ""
  else if nanos % 1000000 = 0 then "." ++ padded 3 (nanos / 1000000)
  else if nanos % 1000 = 0 then "." ++ padded 6 (nanos / 1000)
  else "." ++ padded 9 nanos

def text (t : Timestamp) : String := t.upToSeconds ++ fractionText t.nanos ++ "Z"

def logText (t : Timestamp) : String :=
  t.upToSeconds ++ "." ++ padded 3 (t.nanos / 1000000) ++ "Z"

inductive Fault where
  | outOfRange | invalid | tooShort | trailing | impossible
  deriving DecidableEq, Repr

def Fault.message : Fault → String
  | .outOfRange => "input is out of range"
  | .invalid => "input contains invalid characters"
  | .tooShort => "premature end of input"
  | .trailing => "trailing input"
  | .impossible => "no possible date and time matching input"

abbrev Scan (α : Type) := Except Fault (α × List Char)

def scanDigits (width : Nat) (cs : List Char) : Scan Nat :=
  match cs with
  | [] => .error .tooShort
  | c :: _ =>
    if isDigit c then
      let found := (cs.take width).takeWhile isDigit
      .ok (natOfDigits found, cs.drop found.length)
    else .error .invalid

def scanField (width low high : Nat) (cs : List Char) : Scan Nat :=
  match scanDigits width (trimStartChars cs) with
  | .error e => .error e
  | .ok (n, rest) => if low ≤ n ∧ n ≤ high then .ok (n, rest) else .error .outOfRange

def isCalendarYear (y : Int) : Bool := -262143 ≤ y && y ≤ 262142

def wordYear (y : Int) (rest : List Char) : Scan Int :=
  if -(Word.bound 31 : Int) ≤ y ∧ y < Word.bound 31 then .ok (y, rest) else .error .outOfRange

def scanYear (cs : List Char) : Scan Int :=
  match trimStartChars cs with
  | '-' :: rest => match scanDigits rest.length rest with
    | .error e => .error e
    | .ok (n, rest) => wordYear (-(n : Int)) rest
  | '+' :: rest => match scanDigits rest.length rest with
    | .error e => .error e
    | .ok (n, rest) => wordYear n rest
  | rest => match scanDigits 4 rest with
    | .error e => .error e
    | .ok (n, rest) => .ok ((n : Int), rest)

def scanSeparator (c : Char) (cs : List Char) : Scan Unit :=
  match trimStartChars cs with
  | [] => .error .tooShort
  | d :: rest => if d = c then .ok ((), trimStartChars rest) else .error .invalid

def scanFraction (cs : List Char) : Scan Nat :=
  match cs with
  | '.' :: rest => match scanDigits 9 rest with
    | .error e => .error e
    | .ok (_, _) =>
      let found := (rest.take 9).takeWhile isDigit
      .ok (natOfDigits found * Nat.pow 10 (9 - found.length), rest.dropWhile isDigit)
  | _ => .ok (0, cs)

/-- Two digits. They are looked for in the bytes of the text, so one character outside ASCII is
two bytes that are no digits. -/
def twoDigits (cs : List Char) : Scan (Nat × Nat) :=
  match cs with
  | [] => .error .tooShort
  | [c] => .error (if c.toNat < 128 then .tooShort else .invalid)
  | a :: b :: rest =>
    if isDigit a && isDigit b then .ok ((digitValue a, digitValue b), rest) else .error .invalid

def offsetMinutes (cs : List Char) : Scan Nat :=
  match twoDigits cs with
  | .error e => .error e
  | .ok ((a, b), rest) => if a ≤ 5 then .ok (a * 10 + b, rest) else .error .outOfRange

def offsetSeconds (cs : List Char) : Scan Nat :=
  match twoDigits cs with
  | .error e => .error e
  | .ok ((a, b), rest) =>
    match offsetMinutes (rest.dropWhile fun c => c == ':' || isBlank c) with
    | .error e => .error e
    | .ok (minutes, rest) => .ok ((a * 10 + b) * 3600 + minutes * 60, rest)

def scanOffset (cs : List Char) : Scan Int :=
  match cs with
  | [] => .error .tooShort
  | c :: rest =>
    if lowerChars (cs.take 3) = ['u', 't', 'c'] then .ok (0, cs.drop 3)
    else if c = 'Z' ∨ c = 'z' then .ok (0, rest)
    else if c = '+' then (offsetSeconds rest).map fun r => ((r.1 : Int), r.2)
    else if c = '-' ∨ c = '−' then (offsetSeconds rest).map fun r => (-(r.1 : Int), r.2)
    else .error .invalid

def scanDate (cs : List Char) : Except Fault ((Int × Nat × Nat) × List Char) := do
  let (y, cs) ← scanYear cs
  let (_, cs) ← scanSeparator '-' cs
  let (m, cs) ← scanField 2 1 12 cs
  let (_, cs) ← scanSeparator '-' cs
  let (d, cs) ← scanField 2 1 31 cs
  return ((y, m, d), cs)

def scanTime (cs : List Char) : Except Fault ((Nat × Nat × Nat × Nat) × List Char) := do
  let (h, cs) ← scanField 2 0 23 cs
  let (_, cs) ← scanSeparator ':' cs
  let (m, cs) ← scanField 2 0 59 cs
  let (_, cs) ← scanSeparator ':' cs
  let (s, cs) ← scanField 2 0 60 cs
  let (n, cs) ← scanFraction cs
  return ((h, m, s, n), trimStartChars cs)

def scanMiddle (cs : List Char) : Scan Unit :=
  match cs with
  | [] => .error .tooShort
  | c :: rest => if c = 'T' ∨ c = 't' ∨ c = ' ' then .ok ((), rest) else .error .invalid

/-- The whole text is scanned before the date is checked. -/
def parse (s : String) : Except Fault Timestamp := do
  let ((y, mo, d), cs) ← scanDate s.toList
  let (_, cs) ← scanMiddle cs
  let ((h, mi, sec, n), cs) ← scanTime cs
  let (off, cs) ← scanOffset cs
  if !cs.all isBlank then throw .trailing
  if 86400 ≤ off.natAbs ∨ !isCalendarYear y ∨ daysInMonth y mo < d then throw .outOfRange
  let t := minusSeconds ⟨y, mo, d, h, mi, sec, n⟩ off
  if isCalendarYear t.year then return t else throw .impossible

end Timestamp
end Anneal
