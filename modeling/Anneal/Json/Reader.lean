import Anneal.Decimal.Reading
import Anneal.Json.Value
import Anneal.Text.Utf8
import Anneal.Word

/-!
# Reading JSON

A reader over the characters that are left. A fault names what was wrong and what was left when it
was found, so that its line and column follow from the text: lines are counted from one, columns
are the bytes of the line used up so far, and a byte that was only looked at counts as used.

A value and the step to the next item together use up a character, so twice the length of the text
bounds the recursion.
Containers nest at most 127 deep.
-/

namespace Anneal.Json

open Decimal (isDigit digitValue)

inductive Fault where
  | eofValue | eofString | eofObject | eofList
  | expectedValue | expectedIdent | expectedColon | expectedFieldEnd | expectedItemEnd
  | keyNotString | trailingComma | trailingCharacters
  | invalidEscape | invalidNumber | outOfRange
  | hexEscapeEnd | loneSurrogate | controlCharacter | tooDeep
  deriving DecidableEq, Repr

def Fault.text : Fault → String
  | .eofValue => "EOF while parsing a value"
  | .eofString => "EOF while parsing a string"
  | .eofObject => "EOF while parsing an object"
  | .eofList => "EOF while parsing a list"
  | .expectedValue => "expected value"
  | .expectedIdent => "expected ident"
  | .expectedColon => "expected `:`"
  | .expectedFieldEnd => "expected `,` or `\x7d`"
  | .expectedItemEnd => "expected `,` or `]`"
  | .keyNotString => "key must be a string"
  | .trailingComma => "trailing comma"
  | .trailingCharacters => "trailing characters"
  | .invalidEscape => "invalid escape"
  | .invalidNumber => "invalid number"
  | .outOfRange => "number out of range"
  | .hexEscapeEnd => "unexpected end of hex escape"
  | .loneSurrogate => "lone leading surrogate in hex escape"
  | .controlCharacter => "control character (\\u0000-\\u001F) found while parsing a string"
  | .tooDeep => "recursion limit exceeded"

structure Stop where
  fault : Fault
  rest : List Char
  ahead : Nat := 0

abbrev Step (α : Type) := Except Stop (α × List Char)

def stop {α : Type} (fault : Fault) (rest : List Char) (ahead : Nat) : Except Stop α :=
  .error ⟨fault, rest, ahead⟩

def stopPeeking {α : Type} (fault : Fault) (rest : List Char) : Except Stop α :=
  stop fault rest (if rest.isEmpty then 0 else 1)

def isSpace (c : Char) : Bool := c = ' ' || c = '\n' || c = '\t' || c = '\r'

def skipSpace (cs : List Char) : List Char := cs.dropWhile isSpace

def hexValue? (c : Char) : Option Nat :=
  if '0' ≤ c && c ≤ '9' then some (c.toNat - '0'.toNat)
  else if 'a' ≤ c && c ≤ 'f' then some (c.toNat - 'a'.toNat + 10)
  else if 'A' ≤ c && c ≤ 'F' then some (c.toNat - 'A'.toNat + 10)
  else none

def fourHex (cs : List Char) : Step Nat :=
  if Text.encodedSize cs < 4 then stop .eofString [] 0
  else match cs with
    | a :: b :: c :: d :: rest =>
      match hexValue? a, hexValue? b, hexValue? c, hexValue? d with
      | some a, some b, some c, some d => .ok (((a * 16 + b) * 16 + c) * 16 + d, rest)
      | _, _, _, _ => stop .invalidEscape cs 4
    | _ => stop .invalidEscape cs 4

def lowSurrogate (high : Nat) : List Char → Step Char
  | [] => stop .eofString [] 0
  | '\\' :: cs =>
    match cs with
    | [] => stop .eofString [] 0
    | 'u' :: cs =>
      match fourHex cs with
      | .error e => .error e
      | .ok (low, rest) =>
        if 0xDC00 ≤ low ∧ low ≤ 0xDFFF then
          .ok (Char.ofNat ((high - 0xD800) * 0x400 + (low - 0xDC00) + 0x10000), rest)
        else stop .loneSurrogate rest 0
    | cs => stop .hexEscapeEnd cs 1
  | cs => stop .hexEscapeEnd cs 1

def unicodeEscape (cs : List Char) : Step Char :=
  match fourHex cs with
  | .error e => .error e
  | .ok (n, rest) =>
    if 0xDC00 ≤ n ∧ n ≤ 0xDFFF then stop .loneSurrogate rest 0
    else if 0xD800 ≤ n ∧ n ≤ 0xDBFF then lowSurrogate n rest
    else .ok (Char.ofNat n, rest)

def plainEscape? (c : Char) : Option Char :=
  if c = '"' ∨ c = '\\' ∨ c = '/' then some c
  else if c = 'b' then some '\x08'
  else if c = 'f' then some '\x0c'
  else if c = 'n' then some '\n'
  else if c = 'r' then some '\r'
  else if c = 't' then some '\t'
  else none

def escape : List Char → Step Char
  | [] => stop .eofString [] 0
  | c :: cs =>
    match plainEscape? c with
    | some d => .ok (d, cs)
    | none => if c = 'u' then unicodeEscape cs else stop .invalidEscape (c :: cs) 1

def stringChars : Nat → List Char → Step (List Char)
  | 0, cs => stop .eofString cs 0
  | fuel + 1, cs =>
    match cs with
    | [] => stop .eofString [] 0
    | c :: rest =>
      if c = '"' then .ok ([], rest)
      else if c = '\\' then
        match escape rest with
        | .error e => .error e
        | .ok (d, rest) =>
          match stringChars fuel rest with
          | .error e => .error e
          | .ok (ds, rest) => .ok (d :: ds, rest)
      else if c.toNat < 0x20 then stop .controlCharacter (c :: rest) 1
      else
        match stringChars fuel rest with
        | .error e => .error e
        | .ok (ds, rest) => .ok (c :: ds, rest)

def string (cs : List Char) : Step String :=
  match stringChars (cs.length + 1) cs with
  | .error e => .error e
  | .ok (ds, rest) => .ok (String.ofList ds, rest)

def scaled (negative : Bool) (rest : List Char) : Nat → Float → Int → Step Json
  | 0, x, _ => .ok (.float (if negative then -x else x), rest)
  | fuel + 1, x, exponent =>
    if exponent.natAbs ≤ 308 then
      let power := Float.ofScientific 1 false exponent.natAbs
      if 0 ≤ exponent then
        let y := x * power
        if y.isInf then stop .outOfRange rest 0
        else .ok (.float (if negative then -y else y), rest)
      else
        let y := x / power
        .ok (.float (if negative then -y else y), rest)
    else if x == 0.0 then .ok (.float (if negative then -x else x), rest)
    else if 0 ≤ exponent then stop .outOfRange rest 0
    else scaled negative rest fuel (x / 1e308) (exponent + 308)

def ofParts (negative : Bool) (significand : Nat) (exponent : Int) (rest : List Char) :
    Step Json :=
  scaled negative rest 4 (Float.ofNat significand) exponent

def exponentDigits (negative down : Bool) (significand : Nat) (start : Int) :
    Nat → List Char → Step Json
  | e, [] => ofParts negative significand (if down then start - e else start + e) []
  | e, c :: cs =>
    if isDigit c then
      let e' := e * 10 + digitValue c
      if Word.bound 31 ≤ e' then
        if significand ≠ 0 ∧ !down then stop .outOfRange cs 0
        else .ok (.float (if negative then -0.0 else 0.0), cs.dropWhile isDigit)
      else exponentDigits negative down significand start e' cs
    else ofParts negative significand (if down then start - e else start + e) (c :: cs)

def exponent (negative : Bool) (significand : Nat) (start : Int) (cs : List Char) : Step Json :=
  let (down, digits) := Decimal.takeSign cs
  match digits with
  | [] => stop .eofValue [] 0
  | c :: rest =>
    if isDigit c then exponentDigits negative down significand start (digitValue c) rest
    else stop .invalidNumber (c :: rest) 1

def afterFraction (negative : Bool) (significand : Nat) (start : Int) : List Char → Step Json
  | [] => ofParts negative significand start []
  | c :: cs =>
    if c = 'e' ∨ c = 'E' then exponent negative significand start cs
    else ofParts negative significand start (c :: cs)

def fractionDigits (negative : Bool) : Nat → Int → List Char → Step Json
  | significand, start, [] => ofParts negative significand start []
  | significand, start, c :: cs =>
    if isDigit c then
      if Word.bound 64 ≤ significand * 10 + digitValue c then
        afterFraction negative significand start ((c :: cs).dropWhile isDigit)
      else fractionDigits negative (significand * 10 + digitValue c) (start - 1) cs
    else afterFraction negative significand start (c :: cs)

def fraction (negative : Bool) (significand : Nat) (start : Int) (cs : List Char) : Step Json :=
  match cs with
  | [] => stop .eofValue [] 0
  | c :: _ =>
    if isDigit c then fractionDigits negative significand start cs
    else stopPeeking .invalidNumber cs

def longWhole (negative : Bool) (significand : Nat) : Int → List Char → Step Json
  | e, [] => ofParts negative significand e []
  | e, c :: cs =>
    if isDigit c then longWhole negative significand (e + 1) cs
    else if c = '.' then fraction negative significand e cs
    else if c = 'e' ∨ c = 'E' then exponent negative significand e cs
    else ofParts negative significand e (c :: cs)

/-- A number without point or exponent. Below the 64-bit range, and for a negative zero, it is a
double. -/
def whole (negative : Bool) (significand : Nat) : Json :=
  if negative then
    if significand = 0 ∨ Word.bound 63 < significand then .float (-(Float.ofNat significand))
    else .int (-(significand : Int))
  else .int significand

def afterWhole (negative : Bool) (significand : Nat) : List Char → Step Json
  | [] => .ok (whole negative significand, [])
  | c :: cs =>
    if c = '.' then fraction negative significand 0 cs
    else if c = 'e' ∨ c = 'E' then exponent negative significand 0 cs
    else .ok (whole negative significand, c :: cs)

def wholeDigits (negative : Bool) : Nat → List Char → Step Json
  | significand, [] => afterWhole negative significand []
  | significand, c :: cs =>
    if isDigit c then
      if Word.bound 64 ≤ significand * 10 + digitValue c then longWhole negative significand 0 (c :: cs)
      else wholeDigits negative (significand * 10 + digitValue c) cs
    else afterWhole negative significand (c :: cs)

def number (negative : Bool) : List Char → Step Json
  | [] => stop .eofValue [] 0
  | c :: cs =>
    if c = '0' then
      match cs with
      | d :: _ => if isDigit d then stopPeeking .invalidNumber cs else afterWhole negative 0 cs
      | [] => afterWhole negative 0 []
    else if isDigit c then wholeDigits negative (digitValue c) cs
    else stop .invalidNumber (c :: cs) 1

def ident (value : Json) : List Char → List Char → Step Json
  | [], cs => .ok (value, cs)
  | _ :: _, [] => stop .eofValue [] 0
  | e :: es, c :: cs => if c = e then ident value es cs else stop .expectedIdent (c :: cs) 1

def depthLimit : Nat := 128

def nextItem (first : Bool) (cs : List Char) : Step Bool :=
  match skipSpace cs with
  | [] => stop .eofList [] 0
  | c :: rest =>
    if c = ']' then .ok (false, rest)
    else if first then .ok (true, c :: rest)
    else if c = ',' then
      match skipSpace rest with
      | [] => stop .eofValue [] 0
      | d :: rest => if d = ']' then stop .trailingComma (d :: rest) 1 else .ok (true, d :: rest)
    else stop .expectedItemEnd (c :: rest) 1

def nextField (first : Bool) (cs : List Char) : Step Bool :=
  match skipSpace cs with
  | [] => stop .eofObject [] 0
  | c :: rest =>
    if c = '\x7d' then .ok (false, rest)
    else if first then
      if c = '"' then .ok (true, rest) else stop .keyNotString (c :: rest) 1
    else if c = ',' then
      match skipSpace rest with
      | [] => stop .eofValue [] 0
      | d :: rest =>
        if d = '"' then .ok (true, rest)
        else if d = '\x7d' then stop .trailingComma (d :: rest) 1
        else stop .keyNotString (d :: rest) 1
    else stop .expectedFieldEnd (c :: rest) 1

def colon (cs : List Char) : Step Unit :=
  match skipSpace cs with
  | [] => stop .eofObject [] 0
  | c :: rest => if c = ':' then .ok ((), rest) else stop .expectedColon (c :: rest) 1

mutual

def value : Nat → Nat → List Char → Step Json
  | 0, _, cs => stop .eofValue cs 0
  | fuel + 1, depth, cs =>
    match skipSpace cs with
    | [] => stop .eofValue [] 0
    | c :: rest =>
      if c = '"' then
        match string rest with
        | .error e => .error e
        | .ok (s, rest) => .ok (.str s, rest)
      else if c = '[' then
        match depth with
        | 0 => stop .tooDeep (c :: rest) 1
        | depth + 1 =>
          match items fuel depth true rest with
          | .error e => .error e
          | .ok (vs, rest) => .ok (.arr vs, rest)
      else if c = '\x7b' then
        match depth with
        | 0 => stop .tooDeep (c :: rest) 1
        | depth + 1 =>
          match fields fuel depth true [] rest with
          | .error e => .error e
          | .ok (fs, rest) => .ok (.obj fs, rest)
      else if c = 'n' then ident .null ['u', 'l', 'l'] rest
      else if c = 't' then ident (.bool true) ['r', 'u', 'e'] rest
      else if c = 'f' then ident (.bool false) ['a', 'l', 's', 'e'] rest
      else if c = '-' then number true rest
      else if isDigit c then number false (c :: rest)
      else stop .expectedValue (c :: rest) 1

def items : Nat → Nat → Bool → List Char → Step (List Json)
  | 0, _, _, cs => stop .eofList cs 0
  | fuel + 1, depth, first, cs =>
    match nextItem first cs with
    | .error e => .error e
    | .ok (false, rest) => .ok ([], rest)
    | .ok (true, rest) =>
      match value fuel depth rest with
      | .error e => .error e
      | .ok (v, rest) =>
        match items fuel depth false rest with
        | .error e => .error e
        | .ok (vs, rest) => .ok (v :: vs, rest)

def fields : Nat → Nat → Bool → Keyed Json → List Char → Step (Keyed Json)
  | 0, _, _, _, cs => stop .eofObject cs 0
  | fuel + 1, depth, first, acc, cs =>
    match nextField first cs with
    | .error e => .error e
    | .ok (false, rest) => .ok (acc, rest)
    | .ok (true, rest) =>
      match string rest with
      | .error e => .error e
      | .ok (key, rest) =>
        match colon rest with
        | .error e => .error e
        | .ok ((), rest) =>
          match value fuel depth rest with
          | .error e => .error e
          | .ok (v, rest) => fields fuel depth false (Keyed.put key v acc) rest

end

def document (cs : List Char) : Except Stop Json :=
  match value (2 * cs.length + 2) (depthLimit - 1) cs with
  | .error e => .error e
  | .ok (v, rest) =>
    match skipSpace rest with
    | [] => .ok v
    | c :: rest => stop .trailingCharacters (c :: rest) 1

def position (count : Nat) (cs : List Char) : Nat × Nat :=
  let used := (Text.encode (String.ofList cs)).take count
  let lineBytes := (used.reverse.takeWhile (· ≠ 10)).length
  (1 + used.count 10, lineBytes)

def Stop.message (s : Stop) (text : List Char) : String :=
  let used := Text.encodedSize text - Text.encodedSize s.rest + s.ahead
  let (line, column) := position used text
  s.fault.text ++ s!" at line {line} column {column}"

/-- Reads a text as one JSON value, or says what is wrong and where. -/
def parse (text : String) : Except String Json :=
  match document text.toList with
  | .ok v => .ok v
  | .error s => .error (s.message text.toList)

def parse? (text : String) : Option Json := (parse text).toOption

end Anneal.Json
