import Anneal.Json.Decode

/-!
# Messages and prompts

A prompt is one text or a list of messages; each backend takes one of the two shapes.
-/

namespace Anneal

inductive Role where
  | system | user | assistant
  deriving DecidableEq, Repr

def Role.tag : Role → String
  | .system => "system"
  | .user => "user"
  | .assistant => "assistant"

def Role.label : Role → String
  | .system => "System"
  | .user => "User"
  | .assistant => "Assistant"

def Role.ofJson : Json.Decoder Role :=
  Json.Decode.variant [("system", .system), ("user", .user), ("assistant", .assistant)]

structure Message where
  role : Role
  content : String
  deriving DecidableEq, Repr

namespace Message

def system (content : String) : Message := ⟨.system, content⟩
def user (content : String) : Message := ⟨.user, content⟩
def assistant (content : String) : Message := ⟨.assistant, content⟩

def toJson (m : Message) : Json :=
  .obj [("role", .str m.role.tag), ("content", .str m.content)]

def ofJson : Json.Decoder Message :=
  Json.Decode.record "Message"
    [Json.Decode.need "role" Role.ofJson, Json.Decode.need "content" Json.Decode.string]
    fun fields => do
      let role ← Json.Decode.required fields "role" Role.ofJson
      let content ← Json.Decode.required fields "content" Json.Decode.string
      return ⟨role, content⟩

/-- The message as a line of a transcript. -/
def line (m : Message) : String := m.role.label ++ ": " ++ m.content

end Message

inductive PromptShape where
  | text | messages
  deriving DecidableEq, Repr

def PromptShape.tag : PromptShape → String
  | .text => "text"
  | .messages => "messages"

def PromptShape.ofJson : Json.Decoder PromptShape :=
  Json.Decode.variant [("text", .text), ("messages", .messages)]

inductive Prompt where
  | text (s : String)
  | messages (ms : List Message)
  deriving DecidableEq, Repr

def Prompt.shape : Prompt → PromptShape
  | .text _ => .text
  | .messages _ => .messages

def Prompt.toJson : Prompt → Json
  | .text s => .str s
  | .messages ms => .arr (ms.map Message.toJson)

def Prompt.lastUserText? : Prompt → Option String
  | .text s => some s
  | .messages ms => (ms.reverse.find? fun m => m.role = .user).map (·.content)

structure CompletionOptions where
  maxOutputTokens : Nat := 100
  temperature : Float := 0.7
  extra : Keyed Json := []

end Anneal
