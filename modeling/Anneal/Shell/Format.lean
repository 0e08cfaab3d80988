import Anneal.Decimal.Places
import Anneal.Decimal.Reading
import Anneal.Shell.Pattern
import Anneal.Text.Utf8
import Anneal.Word

/-!
# Formatted output

The escapes of texts that are to be printed, and the directives of a format. A format is used again
as long as arguments are left.
-/

namespace Anneal.Shell.Format

open Anneal.Text (Bytes)

def charBytes (c : Char) : Bytes := String.utf8EncodeChar c

def isOctal (c : Char) : Bool := '0' ≤ c && c ≤ '7'

def octal (most : Nat) (cs : List Char) : Bytes × List Char :=
  let digits := (cs.take most).takeWhile isOctal
  let n := digits.foldl (fun n d => n * 8 + (d.toNat - '0'.toNat)) 0
  ([UInt8.ofNat n], cs.drop digits.length)

def letter? (c : Char) : Option UInt8 :=
  match c with
  | 'a' => some 7
  | 'b' => some 8
  | 'f' => some 12
  | 'n' => some 10
  | 'r' => some 13
  | 't' => some 9
  | 'v' => some 11
  | 'e' => some 27
  | '\\' => some 92
  | _ => none

def formatEscape (cs : List Char) : Bytes × List Char :=
  match cs with
  | [] => ([92], [])
  | c :: rest =>
    if isOctal c then octal 3 cs
    else if c = '"' then ([34], rest)
    else match letter? c with
      | some b => ([b], rest)
      | none => (92 :: charBytes c, rest)

/-- A text with its escapes, in which octal numbers may have a zero in front of their three digits:
its bytes, and whether everything stops at its end. -/
def escapedText : Nat → List Char → Bytes × Bool
  | 0, _ => ([], false)
  | _ + 1, [] => ([], false)
  | fuel + 1, '\\' :: c :: rest =>
    let step (r : Bytes × List Char) : Bytes × Bool :=
      let more := escapedText fuel r.2
      (r.1 ++ more.1, more.2)
    if c = 'c' then ([], true)
    else if c = '0' then step (octal 3 rest)
    else if isOctal c then step (octal 3 (c :: rest))
    else match letter? c with
      | some b => step ([b], rest)
      | none => step (92 :: charBytes c, rest)
  | fuel + 1, c :: rest =>
    let more := escapedText fuel rest
    (charBytes c ++ more.1, more.2)

def echo (escapes newline : Bool) (words : List String) : Bytes :=
  let text := List.intercalate [' '] (words.map String.toList)
  let ending : Bytes := if newline then [10] else []
  if escapes then
    let r := escapedText (text.length + 1) text
    r.1 ++ if r.2 then [] else ending
  else text.flatMap charBytes ++ ending

inductive Remark where
  | noNumber
  | partly
  | outOfRange
  deriving DecidableEq, Repr

def Remark.message (r : Remark) (arg : String) : String :=
  match r with
  | .noNumber => s!"{arg}: expected numeric value"
  | .partly => s!"{arg}: not completely converted"
  | .outOfRange => s!"{arg}: Numerical result out of range"

def skipSpace (cs : List Char) : List Char := cs.dropWhile (classHolds "space")

def digitValue (c : Char) : Nat :=
  if c.isDigit then c.toNat - '0'.toNat
  else if 'a' ≤ c ∧ c ≤ 'f' then c.toNat - 'a'.toNat + 10
  else if 'A' ≤ c ∧ c ≤ 'F' then c.toNat - 'A'.toNat + 10
  else 36

def numberIn (base : Nat) (cs : List Char) : Nat :=
  cs.foldl (fun n c => n * base + digitValue c) 0

def digitsOf (base : Nat) (cs : List Char) : List Char × List Char :=
  let ds := cs.takeWhile fun c => digitValue c < base
  (ds, cs.drop ds.length)

def wholePrefix? (cs : List Char) : Option (Nat × List Char) :=
  let found (base : Nat) (cs : List Char) : Option (Nat × List Char) :=
    match digitsOf base cs with
    | ([], _) => none
    | (ds, rest) => some (numberIn base ds, rest)
  match cs with
  | '0' :: x :: rest =>
    if x = 'x' ∨ x = 'X' then (found 16 rest).orElse fun _ => some (0, x :: rest)
    else found 8 cs
  | cs => found 10 cs

def argWhole (signed : Bool) (s : String) : Int × Option Remark :=
  match s.toList with
  | '\'' :: c :: _ => (c.toNat, none)
  | '"' :: c :: _ => (c.toNat, none)
  | cs =>
    let sign := Decimal.takeSign (skipSpace cs)
    match wholePrefix? sign.2 with
    | none => (0, if cs.isEmpty then none else some .noNumber)
    | some (n, rest) =>
      let n : Int := if sign.1 then -n else n
      let remark := if rest.isEmpty then none else some .partly
      if signed then
        if n < -(Word.bound 63 : Int) then (-(Word.bound 63 : Int), some .outOfRange)
        else if Word.bound 63 ≤ n then ((Word.bound 63 : Int) - 1, some .outOfRange)
        else (n, remark)
      else if (Word.bound 64 : Int) ≤ n.natAbs then ((Word.bound 64 : Int) - 1, some .outOfRange)
      else (n, remark)

def doublePrefix? (cs : List Char) : Option (Float × List Char) :=
  let lower := Text.lowerChars cs
  let exponent (mark : Char) (cs : List Char) : Int × List Char :=
    match cs with
    | c :: rest =>
      let sign := Decimal.takeSign rest
      match digitsOf 10 sign.2 with
      | ([], _) => (0, cs)
      | (ds, after) =>
        if c.toLower = mark then
          (if sign.1 then -(numberIn 10 ds : Int) else numberIn 10 ds, after)
        else (0, cs)
    | [] => (0, [])
  let fraction (base : Nat) (cs : List Char) : List Char × List Char :=
    match cs with
    | '.' :: rest => digitsOf base rest
    | rest => ([], rest)
  if "infinity".toList.isPrefixOf lower then some (1.0 / 0.0, cs.drop 8)
  else if "inf".toList.isPrefixOf lower then some (1.0 / 0.0, cs.drop 3)
  else if "nan".toList.isPrefixOf lower then some (0.0 / 0.0, cs.drop 3)
  else match lower with
    | '0' :: 'x' :: c :: _ =>
      if digitValue c < 16 then
        let whole := digitsOf 16 (cs.drop 2)
        let part := fraction 16 whole.2
        let e := exponent 'p' part.2
        some (Float.scaleB (Float.ofNat (numberIn 16 (whole.1 ++ part.1)))
          (e.1 - 4 * part.1.length), e.2)
      else some (0.0, cs.drop 1)
    | _ =>
      let whole := digitsOf 10 cs
      let part := fraction 10 whole.2
      if whole.1.isEmpty && part.1.isEmpty then none
      else
        let e := exponent 'e' part.2
        some (Decimal.nearest (numberIn 10 (whole.1 ++ part.1)) (e.1 - part.1.length), e.2)

def leastNormal : Float := Float.scaleB 1.0 (-1022)

def argDouble (s : String) : Float × Option Remark :=
  match s.toList with
  | '\'' :: c :: _ => (Float.ofNat c.toNat, none)
  | '"' :: c :: _ => (Float.ofNat c.toNat, none)
  | cs =>
    let sign := Decimal.takeSign (skipSpace cs)
    match doublePrefix? sign.2 with
    | none => (0.0, if cs.isEmpty then none else some .noNumber)
    | some (x, rest) =>
      let digits := (sign.2.take (sign.2.length - rest.length)).takeWhile fun c => c.toLower != 'e'
      let zero := digits.all fun c => digitValue c = 0 || digitValue c = 36
      let named := x.isNaN || sign.2.head?.map Char.toLower = some 'i'
      let far := !named && !zero && (x.isInf || x < leastNormal)
      (if sign.1 then -x else x,
        if far then some .outOfRange else if rest.isEmpty then none else some .partly)

structure Directive where
  left : Bool
  zero : Bool
  plus : Bool
  space : Bool
  sharp : Bool
  width : Nat
  precision : Option Nat
  kind : Char

def ascii (cs : List Char) : Bytes := cs.flatMap charBytes

def pad (d : Directive) (zeros : Bool) (sign body : Bytes) : Bytes :=
  let size := sign.length + body.length
  if d.width ≤ size then sign ++ body
  else if d.left then sign ++ body ++ List.replicate (d.width - size) 32
  else if zeros then sign ++ List.replicate (d.width - size) 48 ++ body
  else List.replicate (d.width - size) 32 ++ sign ++ body

def Directive.signOf (d : Directive) (negative : Bool) : List Char :=
  if negative then ['-'] else if d.plus then ['+'] else if d.space then [' '] else []

def integer (d : Directive) (n : Int) : Bytes :=
  let word := if n < 0 then (n + Word.bound 64).toNat else n.toNat
  let digits := match d.kind with
    | 'u' => Nat.toDigits 10 word
    | 'x' => Nat.toDigits 16 word
    | 'X' => (Nat.toDigits 16 word).map Char.toUpper
    | 'o' => Nat.toDigits 8 word
    | _ => Nat.toDigits 10 n.natAbs
  let digits := if d.precision = some 0 ∧ n = 0 then [] else digits
  let digits := List.replicate (d.precision.getD 0 - digits.length) '0' ++ digits
  let digits := if d.sharp ∧ d.kind = 'o' ∧ digits.head? ≠ some '0' then '0' :: digits else digits
  let sign := if ['u', 'o'].contains d.kind then []
    else if ['x', 'X'].contains d.kind then (if d.sharp ∧ n ≠ 0 then ['0', d.kind] else [])
    else d.signOf (n < 0)
  pad d (d.zero && d.precision.isNone) (ascii sign) (ascii digits)

def double (d : Directive) (x : Float) : Bytes :=
  let places := d.precision.getD 6
  let upper := d.kind.isUpper
  let body :=
    if x.isNaN then ['n', 'a', 'n']
    else if x.isInf then ['i', 'n', 'f']
    else match d.kind.toLower with
      | 'f' => Decimal.positional places x ++ if d.sharp && places = 0 then ['.'] else []
      | 'e' => Decimal.scientific places x
      | _ => Decimal.general places d.sharp x
  let body := if upper then body.map Char.toUpper else body
  let sign := d.signOf (Decimal.isNegative x && !x.isNaN)
  pad d (d.zero && x.isFinite) (ascii sign) (ascii body)

/-- What a directive prints for an argument, what is to be said about that, and whether everything
stops. -/
def Directive.print (d : Directive) (arg : String) : Bytes × Option Remark × Bool :=
  let text (bs : Bytes) : Bytes := pad d false [] (match d.precision with
    | some n => bs.take n
    | none => bs)
  if d.kind = 's' then (text (ascii arg.toList), none, false)
  else if d.kind = 'c' then
    (pad d false [] (match ascii arg.toList with
      | b :: _ => [b]
      | [] => [0]), none, false)
  else if d.kind = 'b' then
    let r := escapedText (arg.length + 1) arg.toList
    (text r.1, none, r.2)
  else if ['e', 'E', 'f', 'F', 'g', 'G'].contains d.kind then
    let n := argDouble arg
    (double d n.1, n.2, false)
  else
    let n := argWhole (d.kind = 'd' ∨ d.kind = 'i') arg
    (integer d n.1, n.2, false)

def kinds : List Char :=
  ['s', 'd', 'i', 'u', 'x', 'X', 'o', 'c', 'b', 'e', 'E', 'f', 'F', 'g', 'G']

inductive BadFormat where
  | missing
  | invalid (directive : String)
  deriving DecidableEq, Repr

def BadFormat.message : BadFormat → String
  | .missing => "missing format character"
  | .invalid directive => s!"{directive}: invalid directive"

structure Progress where
  bytes : Bytes
  args : List String
  used : Bool
  remarks : List (Remark × String)
  stopped : Bool
  bad : Option BadFormat

def Progress.start (args : List String) : Progress := ⟨[], args, false, [], false, none⟩

def Progress.next (p : Progress) : String × Progress :=
  (p.args.headD "", { p with args := p.args.drop 1, used := p.used || !p.args.isEmpty })

def Progress.say (p : Progress) (remark : Option Remark) (arg : String) : Progress :=
  match remark with
  | some r => { p with remarks := p.remarks ++ [(r, arg)] }
  | none => p

def measure (p : Progress) (cs : List Char) : Option Int × Progress × List Char :=
  match cs with
  | '*' :: rest =>
    let (arg, p) := p.next
    let n := argWhole true arg
    (some n.1, p.say n.2 arg, rest)
  | cs =>
    let r := digitsOf 10 cs
    (if r.1.isEmpty then none else some (numberIn 10 r.1), p, r.2)

def directive (p : Progress) (cs : List Char) :
    Except BadFormat (Directive × Progress × List Char) :=
  let flags := cs.takeWhile fun c => ['-', '0', '+', ' ', '#'].contains c
  let (width, p, rest) := measure p (cs.drop flags.length)
  let width := width.getD 0
  let (precision, p, rest) := match rest with
    | '.' :: rest =>
      let r := measure p rest
      (some (r.1.getD 0), r.2)
    | rest => (none, p, rest)
  match rest with
  | [] => .error .missing
  | c :: rest =>
    if kinds.contains c then
      .ok (⟨flags.contains '-' || width < 0, flags.contains '0', flags.contains '+',
        flags.contains ' ', flags.contains '#', width.natAbs,
        precision.bind fun n => if n < 0 then none else some n.toNat, c⟩, p, rest)
    else .error (.invalid (String.ofList ('%' :: cs.take (cs.length - rest.length))))

def once (stops : Bool) : Nat → List Char → Progress → Progress
  | 0, _, p => p
  | _ + 1, [], p => p
  | fuel + 1, c :: rest, p =>
    if p.stopped then p
    else if c = '\\' then
      if stops && rest.head? = some 'c' then { p with stopped := true }
      else
        let r := formatEscape rest
        once stops fuel r.2 { p with bytes := p.bytes ++ r.1 }
    else if c = '%' then
      match rest with
      | '%' :: rest => once stops fuel rest { p with bytes := p.bytes ++ [37] }
      | rest => match directive p rest with
        | .error e => { p with stopped := true, bad := some e }
        | .ok (d, p, rest) =>
          let (arg, p) := p.next
          let (bytes, remark, stopped) := d.print arg
          let p := p.say remark arg
          once stops fuel rest { p with bytes := p.bytes ++ bytes, stopped := stopped }
    else once stops fuel rest { p with bytes := p.bytes ++ charBytes c }

def again (stops : Bool) (format : List Char) : Nat → Progress → Progress
  | 0, p => p
  | fuel + 1, p =>
    let p := once stops (format.length + 1) format { p with used := false }
    if p.stopped || p.args.isEmpty || !p.used then p else again stops format fuel p

def print (stops : Bool) (format : String) (args : List String) : Progress :=
  again stops format.toList (args.length + 1) (.start args)

end Anneal.Shell.Format
