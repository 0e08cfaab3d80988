import Anneal.Json.Value

/-!
# Building a TOML document

A document is put together from its headers and its assignments. A table remembers how it came
about, because that decides who may add to it: a header opens a table once, and only a table that
no header or value has claimed; an assignment to a dotted key adds to tables made by dotted keys.
-/

namespace Anneal.Toml

inductive Origin where
  | header
  | implied
  | dotted
  deriving DecidableEq, Repr

inductive Item where
  | value (j : Json)
  | table (origin : Origin) (entries : List (String × Item))
  | tables (elements : List (List (String × Item)))

abbrev Entries := List (String × Item)

namespace Entries

def set (key : String) (item : Item) : Entries → Entries
  | [] => [(key, item)]
  | (k, i) :: rest => if k = key then (k, item) :: rest else (k, i) :: set key item rest

def changeLast (change : Entries → Option Entries) : List Entries → Option (List Entries)
  | [] => none
  | [e] => (change e).map fun e => [e]
  | e :: es => (changeLast change es).map fun es => e :: es

/-- Follows the keys of a header but for its last one, making the tables that are not there, and
lets `finish` treat the last one. -/
def follow (finish : String → Entries → Option Entries) : List String → Entries → Option Entries
  | [], _ => none
  | [key], entries => finish key entries
  | key :: keys, entries =>
    match entries.lookup key with
    | none => (follow finish keys []).map fun es => set key (.table .implied es) entries
    | some (.table origin es) =>
      (follow finish keys es).map fun es => set key (.table origin es) entries
    | some (.tables elements) =>
      (changeLast (follow finish keys) elements).map fun els => set key (.tables els) entries
    | some (.value _) => none

def openTable (key : String) (entries : Entries) : Option Entries :=
  match entries.lookup key with
  | none => some (set key (.table .header []) entries)
  | some (.table .implied es) => some (set key (.table .header es) entries)
  | some _ => none

def openElement (key : String) (entries : Entries) : Option Entries :=
  match entries.lookup key with
  | none => some (set key (.tables [[]]) entries)
  | some (.tables elements) => some (set key (.tables (elements ++ [[]])) entries)
  | some _ => none

def assign (j : Json) : List String → Entries → Option Entries
  | [], _ => none
  | [key], entries =>
    match entries.lookup key with
    | none => some (set key (.value j) entries)
    | some _ => none
  | key :: keys, entries =>
    match entries.lookup key with
    | none => (assign j keys []).map fun es => set key (.table .dotted es) entries
    | some (.table origin es) =>
      if origin = .dotted ∨ (origin = .implied ∧ 1 < keys.length) then
        (assign j keys es).map fun es => set key (.table origin es) entries
      else none
    | some (.tables elements) =>
      if 1 < keys.length then
        (changeLast (assign j keys) elements).map fun els => set key (.tables els) entries
      else none
    | some (.value _) => none

def change (f : Entries → Option Entries) : List String → Entries → Option Entries
  | [], entries => f entries
  | key :: keys, entries =>
    match entries.lookup key with
    | some (.table origin es) =>
      (change f keys es).map fun es => set key (.table origin es) entries
    | some (.tables elements) =>
      (changeLast (change f keys) elements).map fun els => set key (.tables els) entries
    | _ => none

end Entries

mutual

def Item.toJson : Item → Json
  | .value j => j
  | .table _ entries => .obj (fieldsOf entries)
  | .tables elements => .arr (elementsOf elements)

def fieldsOf : List (String × Item) → Keyed Json
  | [] => []
  | (key, item) :: rest => Keyed.put key item.toJson (fieldsOf rest)

def elementsOf : List (List (String × Item)) → List Json
  | [] => []
  | entries :: rest => .obj (fieldsOf entries) :: elementsOf rest

end

def Entries.toJson (entries : Entries) : Json := .obj (fieldsOf entries)

end Anneal.Toml
