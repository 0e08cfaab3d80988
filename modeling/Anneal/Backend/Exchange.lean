import Anneal.Backend.Descriptor
import Anneal.Backend.Error
import Anneal.Json.Reader

/-!
# Requests and responses

A request body is a merge in layers: the prompt, then model, token bound and temperature, then the
parameters of the descriptor, then those of the call. A response holds the answer at the path that
the descriptor names, in one document or in fragments, one per line.
-/

namespace Anneal.Backend

def promptLayer (field model : String) (prompt : Prompt) (options : CompletionOptions) :
    Keyed Json :=
  Keyed.ofList [(field, prompt.toJson), ("model", .str model),
    ("max_tokens", .int options.maxOutputTokens), ("temperature", .float options.temperature)]

def requestBody (name : String) (d : Descriptor) (model : String) (prompt : Prompt)
    (options : CompletionOptions) : Except ClientError Json :=
  if prompt.shape ≠ d.shape then
    .error (.configuration name
      s!"expects a {d.shape.tag} prompt, got {prompt.shape.tag}")
  else
    .ok (.obj (Keyed.merge
      (Keyed.merge (promptLayer d.promptField model prompt options) d.params) options.extra))

structure Fragments where
  text : String
  count : Nat
  firstError : Option FieldPathError

def Fragments.add (path : FieldPath) (f : Fragments) (line : List Char) : Fragments :=
  match Json.parse? (String.ofList line) with
  | none => f
  | some j => match path.lookupText j with
    | .ok text => { f with text := f.text ++ text, count := f.count + 1 }
    | .error e => { f with firstError := f.firstError.orElse fun _ => some e }

def responseLines (body : String) : List (List Char) :=
  ((Text.lines body.toList).map Text.trimChars).filter fun l => !l.isEmpty

def ofDocument (name : String) (d : Descriptor) (j : Json) : Except ClientError String :=
  match d.responseField.lookupText j with
  | .ok text => .ok text
  | .error e => .error (.missingField name e)

def ofLines (name : String) (d : Descriptor) (body : String) : Except ClientError String :=
  let f := (responseLines body).foldl (Fragments.add d.responseField) ⟨"", 0, none⟩
  if 0 < f.count then .ok f.text
  else match f.firstError with
    | some e => .error (.missingField name e)
    | none => .error (.malformed name "no JSON fragments in response")

/-- The answer in a response. A body that is one document is read as such in either framing. -/
def responseText (name : String) (d : Descriptor) (body : String) :
    Except ClientError String :=
  match Json.parse body, d.framing with
  | .ok j, _ => ofDocument name d j
  | .error e, .json => .error (.malformed name e)
  | .error _, .ndjson => ofLines name d body

end Anneal.Backend
