import Anneal.Backend.Error
import Anneal.Text.Search

/-!
# Choosing a tool

A router reply names a tool in its `[TOOL_CHOICE]` section and says in its `[ACTION]` section what
the tool is to do. The label is the first run of label characters after `tool:` in the section.
-/

namespace Anneal

open Anneal.Text

inductive Tool where
  | converter | modifier | explainer
  deriving DecidableEq, Repr

namespace Tool

def name : Tool → String
  | .converter => "converter"
  | .modifier => "modifier"
  | .explainer => "explainer"

def aliases : List (String × Tool) :=
  [("convert", .converter), ("converter", .converter), ("repair", .modifier),
   ("modifier", .modifier), ("fix", .modifier), ("explain", .explainer),
   ("explainer", .explainer)]

def all : List Tool := [.converter, .modifier, .explainer]

def ofName? (s : String) : Option Tool :=
  all.find? fun t => t.name = lowerAscii s

end Tool

inductive RoutingError where
  | missingSection (name : String)
  | unknownLabel (label : String)
  | missingLabel
  | backend (cause : ClientError)
  deriving DecidableEq, Repr

def RoutingError.message : RoutingError → String
  | .missingSection name => s!"router reply has no `[{name}]` section"
  | .unknownLabel label => s!"router chose unknown tool `{label}`"
  | .missingLabel => "router reply names no tool"
  | .backend cause => cause.chain

structure ToolChoice where
  tool : Tool
  action : String
  deriving DecidableEq, Repr

namespace ToolChoice

def choiceMark : List Char := "[TOOL_CHOICE]".toList

def actionMark : List Char := "[ACTION]".toList

def isLabelChar (c : Char) : Bool :=
  c.isAlpha || c = '_' || c = '-' || c = '\u017F' || c = '\u212A'

def labelHere? (cs : List Char) : Option (List Char) :=
  if lowerChars (cs.take 4) = "tool".toList then
    match trimStartChars (cs.drop 4) with
    | ':' :: rest =>
      let label := (trimStartChars rest).takeWhile isLabelChar
      if label.isEmpty then none else some label
    | _ => none
  else none

def label? : List Char → Option (List Char)
  | [] => none
  | c :: cs => (labelHere? (c :: cs)).orElse fun _ => label? cs

def choiceSection? (reply : List Char) : Option (List Char) :=
  (breakOn choiceMark reply).map fun r =>
    match breakOn actionMark r.2 with
    | some (inner, _) => inner
    | none => r.2

def toolOfLabel (label : String) : Except RoutingError Tool :=
  let key := lowerAscii (trim label)
  match Tool.aliases.lookup key with
  | some t => .ok t
  | none => .error (.unknownLabel key)

def parse (reply : String) : Except RoutingError ToolChoice :=
  match choiceSection? reply.toList with
  | none => .error (.missingSection "TOOL_CHOICE")
  | some inner => match label? inner with
    | none => .error .missingLabel
    | some label => match toolOfLabel (String.ofList label) with
      | .error e => .error e
      | .ok tool => match breakOn actionMark reply.toList with
        | none => .error (.missingSection "ACTION")
        | some (_, action) => .ok ⟨tool, String.ofList (trimChars action)⟩

end ToolChoice
end Anneal
