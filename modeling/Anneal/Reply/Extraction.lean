import Anneal.Reply.Payload

/-!
# Reading code out of a completion

The code stands in the first block of the wanted kind behind a bracketed marker, or in a structured
payload. Markers win over payloads. What is read is trimmed and never empty; a second artifact that
was asked for and not found gives a warning.
-/

namespace Anneal.Reply

open Anneal.Text

structure Slot where
  marker : String
  fence : String
  field : String
  deriving DecidableEq, Repr

structure Request where
  code : Slot
  auxiliary : Option Slot
  deriving DecidableEq, Repr

/-- Answers to repair prompts hold the corrected program. -/
def Request.repair : Request := ⟨⟨"MODIFIED_CODE", "rust", "code"⟩, none⟩

/-- Answers to conversion prompts hold a program and its manifest. -/
def Request.conversion : Request :=
  ⟨⟨"RUST_CODE", "rust", "code"⟩, some ⟨"TOML", "toml", "manifest"⟩⟩

inductive Encoding where
  | markers | structured
  deriving DecidableEq, Repr

structure Extracted where
  code : String
  auxiliary : Option String
  warnings : List String
  encoding : Encoding
  deriving DecidableEq, Repr

inductive ExtractionError where
  | missingCode (marker fence : String)
  | invalidPayload (violations : List String)
  deriving DecidableEq, Repr

def ExtractionError.message : ExtractionError → String
  | .missingCode marker fence =>
    s!"no `[{marker}]` block fenced as ```{fence} found in completion"
  | .invalidPayload violations =>
    "structured completion rejected:\n- " ++ join "\n- " violations

def bracketed (marker : String) : List Char := '[' :: marker.toList ++ [']']

/-- The first block of the wanted kind behind the first marker, unless it is blank. -/
def markerBlock? (completion : String) (slot : Slot) : Option String :=
  match breakOn (bracketed slot.marker) completion.toList with
  | none => none
  | some (_, behind) =>
    match (blocks fenceMark behind).find? fun b => slot.fence.toList.isPrefixOf b.info with
    | none => none
    | some b =>
      let body := trimChars b.body
      if body.isEmpty then none else some (String.ofList body)

def noBlockWarning (slot : Slot) : String := s!"no `[{slot.marker}]` block found in completion"

def noFieldWarning (slot : Slot) : String := s!"structured completion has no `{slot.field}` field"

/-- An artifact that was asked for: what was found, or a warning that it was not. -/
def auxiliary (find : Slot → Option String) (warning : Slot → String) :
    Option Slot → Option String × List String
  | none => (none, [])
  | some slot => match find slot with
    | some text => (some text, [])
    | none => (none, [warning slot])

def payloadText? (payload : Json) (slot : Slot) : Option String :=
  match payload.member? slot.field with
  | some (.str s) => if (trim s).isEmpty then none else some (trim s)
  | _ => none

def ofPayload (payload : Json) (request : Request) : Except ExtractionError Extracted :=
  match violations payload with
  | v :: vs => .error (.invalidPayload ((v :: vs).map Violation.message))
  | [] =>
    let code := codeText request.code.field payload
    if code.isEmpty then .error (.missingCode request.code.marker request.code.fence)
    else
      let aux := auxiliary (payloadText? payload) noFieldWarning request.auxiliary
      .ok ⟨code, aux.1, aux.2, .structured⟩

def extract (completion : String) (request : Request) : Except ExtractionError Extracted :=
  match markerBlock? completion request.code with
  | some code =>
    let aux := auxiliary (markerBlock? completion) noBlockWarning request.auxiliary
    .ok ⟨code, aux.1, aux.2, .markers⟩
  | none => match payload? completion with
    | some payload => ofPayload payload request
    | none => .error (.missingCode request.code.marker request.code.fence)

end Anneal.Reply
