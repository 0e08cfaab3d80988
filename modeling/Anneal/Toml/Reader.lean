import Anneal.Json.Reader
import Anneal.Toml.Scalar
import Anneal.Toml.Tree

/-!
# Reading TOML

A reader over the characters that are left; it gives no value where the text is not well formed.
The document becomes one JSON object. Every step of a loop uses up a character, so the length of
the text bounds the loops. Arrays and inline tables nest at most 80 deep, and a key has at most 80
parts.
-/

namespace Anneal.Toml

open Json (hexValue?)

abbrev Step (α : Type) := Option (α × List Char)

def isGap (c : Char) : Bool := c = ' ' || c = '\t'

def skipGap (cs : List Char) : List Char := cs.dropWhile isGap

def isPlain (c : Char) : Bool := c = '\t' || (0x20 ≤ c.toNat && c.toNat ≠ 0x7F)

def lineEnd? : List Char → Option (List Char)
  | '\n' :: rest => some rest
  | '\r' :: '\n' :: rest => some rest
  | _ => none

def skipComment : List Char → List Char
  | '#' :: rest => rest.dropWhile isPlain
  | cs => cs

def endOfLine (cs : List Char) : Option (List Char) :=
  match skipComment (skipGap cs) with
  | [] => some []
  | rest => lineEnd? rest

def skipLines : Nat → List Char → List Char
  | 0, cs => cs
  | fuel + 1, cs =>
    let rest := skipComment (skipGap cs)
    match lineEnd? rest with
    | some rest => skipLines fuel rest
    | none => rest

def skipAll (cs : List Char) : List Char := skipLines cs.length cs

def hexDigits : Nat → Nat → List Char → Step Nat
  | 0, n, cs => some (n, cs)
  | _ + 1, _, [] => none
  | count + 1, n, c :: cs => (hexValue? c).bind fun d => hexDigits count (n * 16 + d) cs

def codePoint (count : Nat) (cs : List Char) : Step Char :=
  match hexDigits count 0 cs with
  | some (n, rest) => if n.isValidChar then some (Char.ofNat n, rest) else none
  | none => none

def escape : List Char → Step Char
  | [] => none
  | c :: cs =>
    if c = 'b' then some ('\x08', cs)
    else if c = 't' then some ('\t', cs)
    else if c = 'n' then some ('\n', cs)
    else if c = 'f' then some ('\x0c', cs)
    else if c = 'r' then some ('\r', cs)
    else if c = 'e' then some ('\x1b', cs)
    else if c = '"' ∨ c = '\\' then some (c, cs)
    else if c = 'x' then codePoint 2 cs
    else if c = 'u' then codePoint 4 cs
    else if c = 'U' then codePoint 8 cs
    else none

/-- Puts characters in front of a text that was read. -/
def before (cs : List Char) (r : Step (List Char)) : Step (List Char) :=
  r.map fun r => (cs ++ r.1, r.2)

def basicChars : Nat → List Char → Step (List Char)
  | 0, _ => none
  | fuel + 1, cs =>
    match cs with
    | [] => none
    | c :: rest =>
      if c = '"' then some ([], rest)
      else if c = '\\' then
        match escape rest with
        | some (d, rest) => before [d] (basicChars fuel rest)
        | none => none
      else if isPlain c then before [c] (basicChars fuel rest)
      else none

def literalChars (cs : List Char) : Step (List Char) :=
  let text := cs.takeWhile fun c => c ≠ '\'' && isPlain c
  match cs.drop text.length with
  | '\'' :: rest => some (text, rest)
  | _ => none

/-- Inside a string of several lines: a run of quotes. Three of them end it; up to two more belong
to its text. -/
def closing? (quote : Char) (cs : List Char) : Option (List Char × List Char) :=
  let run := (cs.takeWhile (· == quote)).length
  if run < 3 then none
  else some (List.replicate (min (run - 3) 2) quote, cs.drop (min run 5))

def continuation? (cs : List Char) : Option (List Char) :=
  (lineEnd? (skipGap cs)).map fun rest =>
    rest.dropWhile fun c => isGap c || c = '\n' || c = '\r'

def longChars (quote : Char) : Nat → List Char → Step (List Char)
  | 0, _ => none
  | fuel + 1, cs =>
    match closing? quote cs with
    | some r => some r
    | none =>
      match cs with
      | [] => none
      | c :: rest =>
        if c = '\\' ∧ quote = '"' then
          match continuation? rest with
          | some rest => longChars quote fuel rest
          | none => match escape rest with
            | some (d, rest) => before [d] (longChars quote fuel rest)
            | none => none
        else match lineEnd? cs with
          | some rest =>
            before (if c = '\n' then ['\n'] else ['\r', '\n']) (longChars quote fuel rest)
          | none => if isPlain c then before [c] (longChars quote fuel rest) else none

def longString (quote : Char) (cs : List Char) : Step (List Char) :=
  let cs := (lineEnd? cs).getD cs
  longChars quote (cs.length + 1) cs

def shortString (quote : Char) (cs : List Char) : Step (List Char) :=
  if quote = '"' then basicChars (cs.length + 1) cs else literalChars cs

def isQuote (c : Char) : Bool := c = '"' || c = '\''

def string (quote : Char) : List Char → Step (List Char)
  | a :: b :: rest =>
    if a = quote ∧ b = quote then longString quote rest else shortString quote (a :: b :: rest)
  | rest => shortString quote rest

def isBare (c : Char) : Bool := c.isAlphanum || c = '-' || c = '_'

def keyPart : List Char → Step String
  | [] => none
  | c :: rest =>
    if isQuote c then (shortString c rest).map fun r => (String.ofList r.1, r.2)
    else
      let name := (c :: rest).takeWhile isBare
      if name.isEmpty then none else some (String.ofList name, (c :: rest).drop name.length)

def depthLimit : Nat := 80

def keyParts : Nat → List Char → Step (List String)
  | 0, _ => none
  | count + 1, cs =>
    match keyPart (skipGap cs) with
    | none => none
    | some (part, rest) =>
      match skipGap rest with
      | '.' :: rest => (keyParts count rest).map fun r => (part :: r.1, r.2)
      | rest => some ([part], rest)

def key (cs : List Char) : Step (List String) := keyParts depthLimit cs

def isToken (c : Char) : Bool := c.isAlphanum || c = '+' || c = '-' || c = '_' || c = '.' || c = ':'

def token (cs : List Char) : List Char × List Char :=
  let first := cs.takeWhile isToken
  match cs.drop first.length with
  | ' ' :: c :: rest =>
    if Decimal.isDigit c ∧ (date first).map (·.2) = some [] then
      let second := (c :: rest).takeWhile isToken
      (first ++ ' ' :: second, (c :: rest).drop second.length)
    else (first, ' ' :: c :: rest)
  | rest => (first, rest)

/-- Looks past blanks and the comma between two items, which may also stand behind the last one;
`none` inside at the closing bracket. -/
def nextItem (closing : Char) (first : Bool) (cs : List Char) : Step Bool :=
  match skipAll cs with
  | [] => none
  | c :: rest =>
    if c = closing then some (false, rest)
    else if first then some (true, c :: rest)
    else if c = ',' then
      match skipAll rest with
      | [] => none
      | d :: rest => if d = closing then some (false, rest) else some (true, d :: rest)
    else none

mutual

def value : Nat → Nat → List Char → Step Json
  | 0, _, _ => none
  | fuel + 1, depth, cs =>
    match cs with
    | [] => none
    | c :: rest =>
      if isQuote c then (string c rest).map fun r => (.str (String.ofList r.1), r.2)
      else if c = '[' then
        match depth with
        | 0 => none
        | depth + 1 => (items fuel depth true rest).map fun r => (.arr r.1, r.2)
      else if c = '\x7b' then
        match depth with
        | 0 => none
        | depth + 1 => (fields fuel depth true [] rest).map fun r => (r.1.toJson, r.2)
      else
        let t := token (c :: rest)
        (scalar t.1).map fun j => (j, t.2)

def items : Nat → Nat → Bool → List Char → Step (List Json)
  | 0, _, _, _ => none
  | fuel + 1, depth, first, cs =>
    match nextItem ']' first cs with
    | none => none
    | some (false, rest) => some ([], rest)
    | some (true, rest) =>
      match value fuel depth rest with
      | none => none
      | some (j, rest) => (items fuel depth false rest).map fun r => (j :: r.1, r.2)

def fields : Nat → Nat → Bool → Entries → List Char → Step Entries
  | 0, _, _, _, _ => none
  | fuel + 1, depth, first, acc, cs =>
    match nextItem '\x7d' first cs with
    | none => none
    | some (false, rest) => some (acc, rest)
    | some (true, rest) =>
      match key rest with
      | none => none
      | some (path, rest) =>
        match skipAll rest with
        | '=' :: rest => match value fuel depth (skipAll rest) with
          | none => none
          | some (j, rest) =>
            match acc.assign j path with
            | none => none
            | some acc => fields fuel depth false acc rest
        | _ => none

end

structure Draft where
  entries : Entries
  current : List String

def Draft.empty : Draft := ⟨[], []⟩

def header (brackets : Nat) (finish : String → Entries → Option Entries) (draft : Draft)
    (cs : List Char) : Step Draft :=
  match key cs with
  | none => none
  | some (path, rest) =>
    if rest.take brackets = List.replicate brackets ']' then
      match draft.entries.follow finish path, endOfLine (rest.drop brackets) with
      | some entries, some rest => some (⟨entries, path⟩, rest)
      | _, _ => none
    else none

def assignment (draft : Draft) (cs : List Char) : Step Draft :=
  match key cs with
  | some (path, '=' :: rest) =>
    match value (2 * rest.length + 2) depthLimit (skipGap rest) with
    | none => none
    | some (j, rest) =>
      match draft.entries.change (Entries.assign j path) draft.current, endOfLine rest with
      | some entries, some rest => some ({ draft with entries := entries }, rest)
      | _, _ => none
  | _ => none

def statement (draft : Draft) : List Char → Step Draft
  | '[' :: '[' :: rest => header 2 Entries.openElement draft rest
  | '[' :: rest => header 1 Entries.openTable draft rest
  | cs => assignment draft cs

def statements : Nat → Draft → List Char → Option Draft
  | 0, _, _ => none
  | fuel + 1, draft, cs =>
    match skipAll cs with
    | [] => some draft
    | rest => match statement draft rest with
      | none => none
      | some (draft, rest) => statements fuel draft rest

def parse? (text : String) : Option Json :=
  let cs := match text.toList with
    | '\uFEFF' :: rest => rest
    | cs => cs
  (statements (cs.length + 1) .empty cs).map fun draft => draft.entries.toJson

end Anneal.Toml
