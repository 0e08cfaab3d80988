import Anneal.Conversation.Message
import Anneal.Json.FieldPath
import Anneal.Text.Search

/-!
# Describing a backend

A descriptor says where requests go, what they carry and where the answer stands in the response.
Three well-known backends come with descriptors of their own.
-/

namespace Anneal

open Anneal.Json

inductive Framing where
  | json
  | ndjson
  deriving DecidableEq, Repr

def Framing.tag : Framing → String
  | .json => "json"
  | .ndjson => "ndjson"

def Framing.ofJson : Decoder Framing := Decode.variant [("json", .json), ("ndjson", .ndjson)]

structure Descriptor where
  baseUrl : String
  endpoint : String
  headers : Keyed String
  promptField : String
  responseField : FieldPath
  shape : PromptShape
  framing : Framing
  params : Keyed Json
  apiKeyEnv : Option String
  model : Option String
  deriving BEq

namespace Descriptor

def keyMark : String := "\x7bapi_key\x7d"

def ollama : Descriptor :=
  { baseUrl := "http://localhost:11434"
    endpoint := "/api/generate"
    headers := [("Content-Type", "application/json")]
    promptField := "prompt"
    responseField := ⟨"response", [.key "response"]⟩
    shape := .text
    framing := .ndjson
    params := [("stream", .bool false)]
    apiKeyEnv := none
    model := none }

def chatCompletions (baseUrl apiKeyEnv : String) : Descriptor :=
  { baseUrl := baseUrl
    endpoint := "/chat/completions"
    headers := [("Authorization", "Bearer " ++ keyMark), ("Content-Type", "application/json")]
    promptField := "messages"
    responseField := ⟨"choices[0].message.content",
      [.key "choices", .index 0, .key "message", .key "content"]⟩
    shape := .messages
    framing := .json
    params := []
    apiKeyEnv := some apiKeyEnv
    model := none }

def openai : Descriptor := chatCompletions "https://api.openai.com/v1" "OPENAI_API_KEY"

def deepseek : Descriptor := chatCompletions "https://api.deepseek.com" "DEEPSEEK_API_KEY"

def presets : Keyed Descriptor :=
  [("deepseek", deepseek), ("ollama", ollama), ("openai", openai)]

def url (d : Descriptor) : String :=
  String.ofList (d.baseUrl.toList.reverse.dropWhile (· == '/')).reverse ++ "/" ++
    String.ofList (d.endpoint.toList.dropWhile (· == '/'))

def needsKey (d : Descriptor) : Bool := d.headers.any fun h => Text.contains keyMark h.2

def filledHeaders (d : Descriptor) (key : Option String) : List (String × String) :=
  d.headers.map fun h => (h.1, Text.replace keyMark (key.getD "") h.2)

def toJson (d : Descriptor) : Json :=
  .obj [("base_url", .str d.baseUrl), ("endpoint", .str d.endpoint),
    ("headers", .obj (d.headers.map fun h => (h.1, .str h.2))),
    ("prompt_field", .str d.promptField), ("response_field", .str d.responseField.raw),
    ("shape", .str d.shape.tag), ("framing", .str d.framing.tag), ("params", .obj d.params),
    ("api_key_env", match d.apiKeyEnv with | some v => .str v | none => .null),
    ("model", match d.model with | some m => .str m | none => .null)]

def pathOfJson : Decoder FieldPath
  | .str s => match FieldPath.parse s with
    | .ok p => .ok p
    | .error e => .error (.custom e.message)
  | j => .error (.wrongType j "a string")

def known : List Decode.Field :=
  [Decode.need "base_url" Decode.string, Decode.need "endpoint" Decode.string,
   Decode.may "headers" (Decode.table Decode.string), Decode.need "prompt_field" Decode.string,
   Decode.need "response_field" pathOfJson, Decode.need "shape" PromptShape.ofJson,
   Decode.may "framing" Framing.ofJson, Decode.may "params" (Decode.table Decode.json),
   Decode.may "api_key_env" (Decode.optional Decode.string),
   Decode.may "model" (Decode.optional Decode.string)]

def ofJson : Decoder Descriptor :=
  Decode.record "BackendDescriptor" known
    fun fields => do
      let baseUrl ← Decode.required fields "base_url" Decode.string
      let endpoint ← Decode.required fields "endpoint" Decode.string
      let headers ← Decode.withDefault fields "headers" [] (Decode.table Decode.string)
      let promptField ← Decode.required fields "prompt_field" Decode.string
      let responseField ← Decode.required fields "response_field" pathOfJson
      let shape ← Decode.required fields "shape" PromptShape.ofJson
      let framing ← Decode.withDefault fields "framing" .json Framing.ofJson
      let params ← Decode.withDefault fields "params" [] (Decode.table Decode.json)
      let apiKeyEnv ←
        Decode.withDefault fields "api_key_env" none (Decode.optional Decode.string)
      let model ← Decode.withDefault fields "model" none (Decode.optional Decode.string)
      return ⟨baseUrl, endpoint, headers, promptField, responseField, shape, framing, params,
        apiKeyEnv, model⟩

end Descriptor
end Anneal
