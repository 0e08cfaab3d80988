import Anneal.Json.Value
import Anneal.Decimal.Layout
import Anneal.Json.Printer
import Anneal.Text.Search

/-!
# Writing TOML

A record is written as sections: its plain fields under a header, then a section for each field
that is a table or a list of tables. A section is left out if its header would say nothing new. A
list of several values has one on each line. Nothing can be written for `null`.
-/

namespace Anneal.Toml

open Decimal (Layout)

def isControl (c : Char) : Bool := (c.toNat < 0x20 && c != '\t') || c.toNat = 0x7F

def longestRun (c : Char) (cs : List Char) : Nat :=
  (Text.splitWhere (· != c) cs).foldl (fun n run => max n run.length) 0

def escaped (c : Char) : List Char :=
  if c = '"' then ['\\', '"']
  else if c = '\\' then ['\\', '\\']
  else if c = '\x08' then ['\\', 'b']
  else if c = '\t' then ['\\', 't']
  else if c = '\n' then ['\\', 'n']
  else if c = '\x0c' then ['\\', 'f']
  else if c = '\r' then ['\\', 'r']
  else if isControl c then
    ['\\', 'u', '0', '0', (Json.hexDigit (c.toNat / 16)).toUpper, (Json.hexDigit c.toNat).toUpper]
  else [c]

def basic (cs : List Char) : List Char := '"' :: cs.flatMap escaped ++ ['"']

def literal (cs : List Char) : List Char := '\'' :: cs ++ ['\'']

def longBody : Nat → List Char → List Char
  | _, [] => []
  | run, c :: cs =>
    if c = '"' then
      if run = 2 then '\\' :: '"' :: longBody 0 cs else '"' :: longBody (run + 1) cs
    else if c = '\n' then '\n' :: longBody 0 cs
    else escaped c ++ longBody 0 cs

def longLead (cs : List Char) : List Char := if cs.contains '\n' then ['\n'] else []

def longBasic (cs : List Char) : List Char :=
  "\"\"\"".toList ++ longLead cs ++ longBody 0 cs ++ "\"\"\"".toList

def longLiteral (cs : List Char) : List Char :=
  "'''".toList ++ longLead cs ++ cs ++ "'''".toList

def stringText (cs : List Char) : List Char :=
  let lines := cs.contains '\n'
  let control := cs.any fun c => isControl c && c != '\n'
  let backslash := cs.contains '\\'
  if !control && !backslash && !cs.contains '"' && !lines then basic cs
  else if !control && !cs.contains '\'' && !lines then literal cs
  else if !control && !backslash && longestRun '"' cs ≤ 2 then longBasic cs
  else if !control && longestRun '\'' cs ≤ 2 then longLiteral cs
  else if lines then longBasic cs
  else basic cs

def isBareKey (c : Char) : Bool := c.isAlphanum || c = '-' || c = '_'

def keyText (name : String) : List Char :=
  let cs := name.toList
  let control := cs.any isControl
  if !cs.isEmpty && cs.all isBareKey then cs
  else if !control && !cs.contains '\\' && !cs.contains '"' then basic cs
  else if !control && !cs.contains '\'' then literal cs
  else basic cs

structure Frame where
  lead : List Char
  between : List Char
  close : List Char

def Frame.ofLength (n : Nat) : Frame :=
  if 2 ≤ n then ⟨"\n    ".toList, ",\n    ".toList, ",\n".toList⟩
  else ⟨[], ", ".toList, []⟩

mutual

def valueText : Json → Option (List Char)
  | .null => none
  | .bool b => some (if b then "true".toList else "false".toList)
  | .int n => some (toString n).toList
  | .float x => some (Layout.settings.render x).toList
  | .str s => some (stringText s.toList)
  | .arr [] => some ['[', ']']
  | .arr (item :: items) =>
    let frame := Frame.ofLength (items.length + 1)
    match valueText item, itemsAfter frame items with
    | some v, some rest => some ('[' :: frame.lead ++ v ++ rest)
    | _, _ => none
  | .obj [] => some ['{', '}']
  | .obj ((name, item) :: fields) =>
    match valueText item, fieldsAfter fields with
    | some v, some rest => some (['{', ' '] ++ keyText name ++ " = ".toList ++ v ++ rest)
    | _, _ => none

def itemsAfter (frame : Frame) : List Json → Option (List Char)
  | [] => some (frame.close ++ [']'])
  | item :: items =>
    match valueText item, itemsAfter frame items with
    | some v, some rest => some (frame.between ++ v ++ rest)
    | _, _ => none

def fieldsAfter : List (String × Json) → Option (List Char)
  | [] => some [' ', '}']
  | (name, item) :: fields =>
    match valueText item, fieldsAfter fields with
    | some v, some rest => some ([',', ' '] ++ keyText name ++ " = ".toList ++ v ++ rest)
    | _, _ => none

end

structure Section where
  path : List String
  element : Bool
  body : List Char
  hasParts : Bool

def isTable : Json → Bool
  | .obj _ => true
  | _ => false

inductive Form where
  | line | table | elements

def Form.of : Json → Form
  | .obj _ => .table
  | .arr [] => .line
  | .arr items => if items.all isTable then .elements else .line
  | _ => .line

/-- The plain fields of a record, one on each line. -/
def body : List (String × Json) → Option (List Char)
  | [] => some []
  | (name, item) :: fields =>
    match Form.of item with
    | .line => match valueText item, body fields with
      | some v, some rest => some (keyText name ++ " = ".toList ++ v ++ '\n' :: rest)
      | _, _ => none
    | _ => body fields

def hasParts (fields : List (String × Json)) : Bool :=
  fields.any fun f => match Form.of f.2 with
    | .line => false
    | _ => true

mutual

def sections (path : List String) (element : Bool) : Json → Option (List Section)
  | .obj fields =>
    match body fields, parts path fields with
    | some lines, some rest => some (⟨path, element, lines, hasParts fields⟩ :: rest)
    | _, _ => none
  | _ => some []

def parts (path : List String) : List (String × Json) → Option (List Section)
  | [] => some []
  | (name, item) :: fields =>
    let own := match Form.of item with
      | .line => some []
      | .table => sections (path ++ [name]) false item
      | .elements => match item with
        | .arr items => elements (path ++ [name]) items
        | _ => some []
    match own, parts path fields with
    | some own, some rest => some (own ++ rest)
    | _, _ => none

def elements (path : List String) : List Json → Option (List Section)
  | [] => some []
  | item :: items =>
    match sections path true item, elements path items with
    | some own, some rest => some (own ++ rest)
    | _, _ => none

end

def Section.isNeeded (s : Section) : Bool :=
  if s.path.isEmpty then !s.body.isEmpty
  else s.element || !s.body.isEmpty || !s.hasParts

def Section.text (s : Section) : List Char :=
  let name := List.intercalate ['.'] (s.path.map keyText)
  let heading :=
    if s.path.isEmpty then []
    else if s.element then ['[', '['] ++ name ++ "]]\n".toList
    else '[' :: name ++ "]\n".toList
  heading ++ s.body

def render? (record : Json) : Option String :=
  (sections [] false record).map fun all =>
    String.ofList (List.intercalate ['\n'] ((all.filter Section.isNeeded).map Section.text))

end Anneal.Toml
