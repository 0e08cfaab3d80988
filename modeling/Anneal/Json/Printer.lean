import Anneal.Json.Value
import Anneal.Decimal.Layout

/-!
# Writing JSON

The compact form has no blanks; the indented form puts every item on a line of its own, two spaces
deeper than its container. Strings escape quotes, backslashes and control characters alone. A
double that is not finite is written as `null`.
-/

namespace Anneal.Json

open Decimal (Layout)

def hexDigit (n : Nat) : Char := (Nat.digitChar (n % 16))

def escapeChar (c : Char) : List Char :=
  if c = '"' then ['\\', '"']
  else if c = '\\' then ['\\', '\\']
  else if c = '\n' then ['\\', 'n']
  else if c = '\r' then ['\\', 'r']
  else if c = '\t' then ['\\', 't']
  else if c = '\x08' then ['\\', 'b']
  else if c = '\x0c' then ['\\', 'f']
  else if c.toNat < 0x20 then
    ['\\', 'u', '0', '0', hexDigit (c.toNat / 16), hexDigit c.toNat]
  else [c]

def quoted (s : String) : List Char := '"' :: s.toList.flatMap escapeChar ++ ['"']

def floatText (x : Float) : String :=
  if x.isNaN || x.isInf then "null" else Layout.document.render x

mutual

def compactChars : Json → List Char
  | .null => "null".toList
  | .bool true => "true".toList
  | .bool false => "false".toList
  | .int n => (toString n).toList
  | .float x => (floatText x).toList
  | .str s => quoted s
  | .arr [] => ['[', ']']
  | .arr (item :: items) => '[' :: compactChars item ++ compactItems items
  | .obj [] => ['{', '}']
  | .obj ((key, value) :: fields) =>
    '{' :: quoted key ++ ':' :: compactChars value ++ compactFields fields

def compactItems : List Json → List Char
  | [] => [']']
  | item :: items => ',' :: compactChars item ++ compactItems items

def compactFields : List (String × Json) → List Char
  | [] => ['}']
  | (key, value) :: fields =>
    ',' :: quoted key ++ ':' :: compactChars value ++ compactFields fields

end

def compact (j : Json) : String := String.ofList (compactChars j)

def newline (depth : Nat) : List Char := '\n' :: List.replicate (2 * depth) ' '

mutual

def prettyChars (depth : Nat) : Json → List Char
  | .null => "null".toList
  | .bool true => "true".toList
  | .bool false => "false".toList
  | .int n => (toString n).toList
  | .float x => (floatText x).toList
  | .str s => quoted s
  | .arr [] => ['[', ']']
  | .arr (item :: items) =>
    '[' :: newline (depth + 1) ++ prettyChars (depth + 1) item ++ prettyItems depth items
  | .obj [] => ['{', '}']
  | .obj ((key, value) :: fields) =>
    '{' :: newline (depth + 1) ++ quoted key ++ [':', ' '] ++ prettyChars (depth + 1) value
      ++ prettyFields depth fields

def prettyItems (depth : Nat) : List Json → List Char
  | [] => newline depth ++ [']']
  | item :: items =>
    ',' :: newline (depth + 1) ++ prettyChars (depth + 1) item ++ prettyItems depth items

def prettyFields (depth : Nat) : List (String × Json) → List Char
  | [] => newline depth ++ ['}']
  | (key, value) :: fields =>
    ',' :: newline (depth + 1) ++ quoted key ++ [':', ' '] ++ prettyChars (depth + 1) value
      ++ prettyFields depth fields

end

def pretty (j : Json) : String := String.ofList (prettyChars 0 j)

end Anneal.Json
