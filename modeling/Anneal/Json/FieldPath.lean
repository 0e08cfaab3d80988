import Anneal.Decimal.Reading
import Anneal.Json.Value
import Anneal.Word

/-!
# Field paths

A path such as `choices[0].message.content` names a place inside a JSON value: keys separated by
dots, each followed by any number of indexes in brackets. The first part may be indexes alone.
`parse` reads a path, `render` writes the steps back, and `lookup` follows them, blaming the first
step that leads nowhere.
-/

namespace Anneal

open Anneal.Text Anneal.Decimal

namespace FieldPath

inductive Step where
  | key (name : String)
  | index (i : Nat)
  deriving DecidableEq, Repr

def Step.text : Step → String
  | .key name => name
  | .index i => s!"[{i}]"

inductive Fault where
  | empty | emptyKey | unbalanced | textAfterIndex | unclosed | badIndex
  deriving DecidableEq, Repr

def Fault.text : Fault → String
  | .empty => "path is empty"
  | .emptyKey => "empty key segment"
  | .unbalanced => "unbalanced `]`"
  | .textAfterIndex => "unexpected text after index"
  | .unclosed => "unclosed `[`"
  | .badIndex => "index must be a non-negative integer"

end FieldPath

inductive FieldPathError where
  | invalid (path : String) (fault : FieldPath.Fault)
  | missing (path step resolved : String)
  | notText (path : String)
  deriving DecidableEq, Repr

def FieldPathError.message : FieldPathError → String
  | .invalid path fault => s!"invalid field path `{path}`: {fault.text}"
  | .missing path step resolved => s!"field `{path}` missing: no `{step}` after `{resolved}`"
  | .notText path => s!"field `{path}` is not a string"

structure FieldPath where
  raw : String
  steps : List FieldPath.Step
  deriving DecidableEq, Repr

namespace FieldPath

def indexLimit : Nat := Word.bound 64

def index? (cs : List Char) : Option Nat :=
  let digits := match cs with
    | '+' :: rest => rest
    | _ => cs
  if digits.isEmpty || !digits.all isDigit then none
  else
    let n := natOfDigits digits
    if n < indexLimit then some n else none

def indexes : List Char → Except Fault (List Step)
  | [] => .ok []
  | c :: inner =>
    if c = '[' then
      match _h : inner.dropWhile (· != ']') with
      | [] => .error .unclosed
      | _ :: rest =>
        match index? (inner.takeWhile (· != ']')) with
        | none => .error .badIndex
        | some i => match indexes rest with
          | .error e => .error e
          | .ok steps => .ok (.index i :: steps)
    else .error .textAfterIndex
termination_by cs => cs.length
decreasing_by
  have : (inner.dropWhile (· != ']')).length ≤ inner.length :=
    (List.dropWhile_sublist _).length_le
  simp only [_h, List.length_cons] at this ⊢
  omega

def part (first : Bool) (cs : List Char) : Except Fault (List Step) :=
  let key := cs.takeWhile (· != '[')
  let rest := cs.dropWhile (· != '[')
  if key.isEmpty then
    if rest.isEmpty || !first then .error .emptyKey else indexes rest
  else if key.contains ']' then .error .unbalanced
  else match indexes rest with
    | .error e => .error e
    | .ok steps => .ok (.key (String.ofList key) :: steps)

def parts (first : Bool) : List (List Char) → Except Fault (List Step)
  | [] => .ok []
  | cs :: rest =>
    match part first cs with
    | .error e => .error e
    | .ok steps => match parts false rest with
      | .error e => .error e
      | .ok more => .ok (steps ++ more)

def stepsOf (cs : List Char) : Except Fault (List Step) :=
  if cs.all isBlank then .error .empty else parts true (splitWhere (· == '.') cs)

def parse (raw : String) : Except FieldPathError FieldPath :=
  match stepsOf raw.toList with
  | .error fault => .error (.invalid raw fault)
  | .ok steps => .ok ⟨raw, steps⟩

def renderRest : List Step → String
  | [] => ""
  | .key name :: rest => "." ++ name ++ renderRest rest
  | .index i :: rest => Step.text (.index i) ++ renderRest rest

/-- The steps as a path; no steps are the root. -/
def render : List Step → String
  | [] => "<root>"
  | step :: rest => step.text ++ renderRest rest

def Step.follow? (j : Json) : Step → Option Json
  | .key name => j.member? name
  | .index i => j.element? i

def follow (raw : String) (done : List Step) (j : Json) :
    List Step → Except FieldPathError Json
  | [] => .ok j
  | step :: rest =>
    match step.follow? j with
    | none => .error (.missing raw step.text (render done))
    | some next => follow raw (done ++ [step]) next rest

def lookup (p : FieldPath) (j : Json) : Except FieldPathError Json :=
  follow p.raw [] j p.steps

def lookupText (p : FieldPath) (j : Json) : Except FieldPathError String :=
  match p.lookup j with
  | .error e => .error e
  | .ok found => match found.asStr? with
    | some s => .ok s
    | none => .error (.notText p.raw)

end FieldPath
end Anneal
