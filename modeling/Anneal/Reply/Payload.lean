import Anneal.Json.Printer
import Anneal.Json.Reader
import Anneal.Reply.Fence

/-!
# Structured replies

A reply may be a JSON object, bare or in a `json` block, with a `code` field: a text, or an object
whose `content` is a text or a list of lines. `violations` lists what is wrong with a payload in
the order in which the rules are checked, and `codeText` reads the code of a payload.
-/

namespace Anneal.Reply

open Anneal.Text

inductive Violation where
  | noAlternative (found : Json)
  | notOfType (found : Json) (expected : String)
  | required (name : String)

def Violation.message : Violation → String
  | .noAlternative found =>
    s!"{found.compact} is not valid under any of the schemas listed in the 'oneOf' keyword"
  | .notOfType found expected => s!"{found.compact} is not of type \"{expected}\""
  | .required name => s!"\"{name}\" is a required property"

def isText : Json → Bool
  | .str _ => true
  | _ => false

def isNonEmptyText : Json → Bool
  | .str s => !s.isEmpty
  | _ => false

def isContent : Json → Bool
  | .arr lines => !lines.isEmpty && lines.all isText
  | j => isNonEmptyText j

def holdsIfPresent (rule : Json → Bool) : Option Json → Bool
  | none => true
  | some j => rule j

def isCode : Json → Bool
  | .obj fields =>
    holdsIfPresent isText (Keyed.get? fields "type") &&
      (match Keyed.get? fields "content" with
        | some content => isContent content
        | none => false)
  | j => isNonEmptyText j

def textViolations (fields : Keyed Json) (name : String) : List Violation :=
  match Keyed.get? fields name with
  | some j => if isText j then [] else [.notOfType j "string"]
  | none => []

def violations : Json → List Violation
  | .obj fields =>
    (match Keyed.get? fields "code" with
      | some code => if isCode code then [] else [.noAlternative code]
      | none => []) ++
    textViolations fields "explanation" ++ textViolations fields "manifest" ++
    (if (Keyed.get? fields "code").isNone then [.required "code"] else [])
  | j => [.notOfType j "object"]

/-- The code of a payload: a text as it is, lines joined by line feeds. -/
def codeText (field : String) (payload : Json) : String :=
  match payload.member? field with
  | some (.str text) => trim text
  | some (.obj block) => match Keyed.get? block "content" with
    | some (.str text) => trim text
    | some (.arr lines) => trim (join "\n" (lines.filterMap Json.asStr?))
    | _ => ""
  | _ => ""

/-- The payload of a completion: all of it when it opens with a brace and is JSON, else the first
`json` block that is. -/
def payload? (completion : String) : Option Json :=
  let trimmed := trimChars completion.toList
  let whole := if trimmed.head? = some '\x7b' then Json.parse? (String.ofList trimmed) else none
  whole.orElse fun _ =>
    (blocks (fenceMark ++ "json".toList) completion.toList).findSome? fun b =>
      Json.parse? (String.ofList (trimChars b.body))

end Anneal.Reply
