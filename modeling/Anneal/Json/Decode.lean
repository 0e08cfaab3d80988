import Anneal.Decimal.Layout
import Anneal.Json.Value
import Anneal.Text.Quoted
import Anneal.Text.Search
import Anneal.Word

/-!
# Typed reading of JSON values

A decoder turns a value into a typed one or says why it cannot. A record is read in two passes:
first every known field that is there is checked, in key order, then the fields are taken in the
order of their declaration, where a field that is neither there nor optional is missing. Fields
that the record does not know are ignored. A list may stand for a record: it holds the fields in
the order of their declaration, and only fields with a default can be left out at its end.
-/

namespace Anneal.Json

/-- Why a value is not of the wanted type. -/
inductive Mismatch where
  | wrongType (found : Json) (expected : String)
  | outOfRange (found : Int) (expected : String)
  | wrongLength (found : Nat) (expected : String)
  | unknownVariant (name : String) (expected : List String)
  | missingField (name : String)
  | custom (message : String)

def backquoted (s : String) : String := "`" ++ s ++ "`"

def describe : Json → String
  | .null => "null"
  | .bool b => "boolean " ++ backquoted (if b then "true" else "false")
  | .int n => "integer " ++ backquoted (toString n)
  | .float x => "floating point " ++ backquoted (Decimal.Layout.document.render x)
  | .str s => "string " ++ Text.showQuoted s
  | .arr _ => "sequence"
  | .obj _ => "map"

def alternatives : List String → String
  | [] => "there are no variants"
  | [a] => "expected " ++ backquoted a
  | [a, b] => "expected " ++ backquoted a ++ " or " ++ backquoted b
  | vs => "expected one of " ++ Text.join ", " (vs.map backquoted)

def Mismatch.message : Mismatch → String
  | .wrongType found expected => s!"invalid type: {describe found}, expected {expected}"
  | .outOfRange found expected =>
    s!"invalid value: integer {backquoted (toString found)}, expected {expected}"
  | .wrongLength found expected => s!"invalid length {found}, expected {expected}"
  | .unknownVariant name expected =>
    s!"unknown variant {backquoted name}, {alternatives expected}"
  | .missingField name => s!"missing field {backquoted name}"
  | .custom message => message

abbrev Decoder (α : Type) := Json → Except Mismatch α

namespace Decode

mutual

/-- A value as a JSON text can hold it: numbers that are not finite become null, and whole numbers
have to fit into 64 bits. -/
def json : Decoder Json
  | .float x => .ok (if x.isFinite then .float x else .null)
  | .int n =>
    if -(Word.bound 63 : Int) ≤ n ∧ n < Word.bound 64 then .ok (.int n)
    else .error (.custom "JSON number out of range")
  | .arr items => (jsonItems items).map .arr
  | .obj fields => (jsonFields fields).map .obj
  | j => .ok j

def jsonItems : List Json → Except Mismatch (List Json)
  | [] => .ok []
  | item :: items =>
    match json item with
    | .error e => .error e
    | .ok item => (jsonItems items).map (item :: ·)

def jsonFields : List (String × Json) → Except Mismatch (List (String × Json))
  | [] => .ok []
  | (key, item) :: fields =>
    match json item with
    | .error e => .error e
    | .ok item => (jsonFields fields).map ((key, item) :: ·)

end

def string : Decoder String
  | .str s => .ok s
  | j => .error (.wrongType j "a string")

def path : Decoder String
  | .str s => .ok s
  | j => .error (.wrongType j "path string")

def bool : Decoder Bool
  | .bool b => .ok b
  | j => .error (.wrongType j "a boolean")

def word (bits : Nat) (name : String) : Decoder Nat
  | .int n =>
    if 0 ≤ n ∧ n < Word.bound bits then .ok n.toNat else .error (.outOfRange n name)
  | j => .error (.wrongType j name)

def word32 : Decoder Nat := word 32 "u32"
def word64 : Decoder Nat := word 64 "u64"
def count : Decoder Nat := word 64 "usize"

def float : Decoder Float
  | .float x => .ok x
  | .int n => .ok (Float.ofInt n)
  | j => .error (.wrongType j "f64")

def list {α : Type} (item : Decoder α) : Decoder (List α)
  | .arr items => items.mapM item
  | j => .error (.wrongType j "a sequence")

def table {α : Type} (item : Decoder α) : Decoder (Keyed α)
  | .obj fields => fields.mapM fun e => (item e.2).map fun v => (e.1, v)
  | j => .error (.wrongType j "a map")

def optional {α : Type} (item : Decoder α) : Decoder (Option α)
  | .null => .ok none
  | j => (item j).map some

def variant {α : Type} (all : List (String × α)) : Decoder α
  | .str s => match all.lookup s with
    | some v => .ok v
    | none => .error (.unknownVariant s (all.map (·.1)))
  | .obj [(s, payload)] => match all.lookup s with
    | none => .error (.unknownVariant s (all.map (·.1)))
    | some v => match payload with
      | .null => .ok v
      | j => .error (.wrongType j "unit")
  | .obj _ => .error (.custom "invalid value: map, expected map with a single key")
  | j => .error (.wrongType j "string or map")

structure Field where
  key : String
  check : Decoder Unit
  needed : Bool

def need {α : Type} (key : String) (item : Decoder α) : Field :=
  ⟨key, fun j => (item j).map fun _ => (), true⟩

def may {α : Type} (key : String) (item : Decoder α) : Field :=
  ⟨key, fun j => (item j).map fun _ => (), false⟩

def checkFields (known : List Field) : Keyed Json → Except Mismatch Unit
  | [] => .ok ()
  | (key, value) :: rest =>
    match known.find? fun f => f.key = key with
    | none => checkFields known rest
    | some f => match f.check value with
      | .error e => .error e
      | .ok () => checkFields known rest

def fieldCount (n : Nat) : String := if n = 1 then "1 element" else s!"{n} elements"

/-- An object, or a list of its fields, read as a record called `name`. -/
def record {α : Type} (name : String) (known : List Field)
    (build : Keyed Json → Except Mismatch α) : Decoder α
  | .obj fields => match checkFields known fields with
    | .error e => .error e
    | .ok () => build fields
  | .arr items =>
    let fields := (known.map (·.key)).zip items
    match checkFields known fields with
    | .error e => .error e
    | .ok () =>
      match (known.drop items.length).findIdx? (·.needed) with
      | some i =>
        .error (.wrongLength (items.length + i) s!"struct {name} with {fieldCount known.length}")
      | none =>
        if known.length < items.length then
          .error (.wrongLength items.length "fewer elements in array")
        else build fields
  | j => .error (.wrongType j s!"struct {name}")

def required {α : Type} (fields : Keyed Json) (key : String) (item : Decoder α) :
    Except Mismatch α :=
  match Keyed.get? fields key with
  | some j => item j
  | none => .error (.missingField key)

def withDefault {α : Type} (fields : Keyed Json) (key : String) (default : α)
    (item : Decoder α) : Except Mismatch α :=
  match Keyed.get? fields key with
  | some j => item j
  | none => .ok default

end Decode
end Anneal.Json
