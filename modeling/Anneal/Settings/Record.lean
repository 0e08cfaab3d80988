import Anneal.Settings.Basic

/-!
# Settings as records

Settings are read from an object in which every field may be missing, and written with all of
them. A document in the settings format has no null, so there a descriptor without a key variable
or a model lacks the field, a one-entry table may stand for the name of a variant, and a list that
stands for a record may be longer than the record.
-/

namespace Anneal

open Anneal.Json

def RepairSettings.toJson (s : RepairSettings) : Json :=
  .obj [("max_retry", .int s.maxRetry), ("max_history", .int s.maxHistory),
    ("comparison", s.comparison.toJson)]

def RepairSettings.known : List Decode.Field :=
  [Decode.may "max_retry" Decode.word32, Decode.may "max_history" Decode.count,
   Decode.may "comparison" Comparison.ofJson]

def RepairSettings.ofJson : Decoder RepairSettings :=
  Decode.record "RepairConfig" RepairSettings.known
    fun fields => do
      let base : RepairSettings := {}
      let maxRetry ← Decode.withDefault fields "max_retry" base.maxRetry Decode.word32
      let maxHistory ← Decode.withDefault fields "max_history" base.maxHistory Decode.count
      let comparison ←
        Decode.withDefault fields "comparison" base.comparison Comparison.ofJson
      return ⟨maxRetry, maxHistory, comparison⟩

def CompilerSettings.toJson (s : CompilerSettings) : Json :=
  .obj [("compiler", .str s.compiler), ("args", .arr (s.args.map Json.str)),
    ("compile_timeout_secs", .int s.compileSeconds), ("run_timeout_secs", .int s.runSeconds),
    ("output_limit_bytes", .int s.outputLimit)]

def CompilerSettings.known : List Decode.Field :=
  [Decode.may "compiler" Decode.string, Decode.may "args" (Decode.list Decode.string),
   Decode.may "compile_timeout_secs" Decode.word64, Decode.may "run_timeout_secs" Decode.word64,
   Decode.may "output_limit_bytes" Decode.count]

def CompilerSettings.ofJson : Decoder CompilerSettings :=
  Decode.record "ToolchainConfig" CompilerSettings.known
    fun fields => do
      let base := CompilerSettings.default
      let compiler ← Decode.withDefault fields "compiler" base.compiler Decode.string
      let args ← Decode.withDefault fields "args" base.args (Decode.list Decode.string)
      let compileSeconds ←
        Decode.withDefault fields "compile_timeout_secs" base.compileSeconds Decode.word64
      let runSeconds ←
        Decode.withDefault fields "run_timeout_secs" base.runSeconds Decode.word64
      let outputLimit ←
        Decode.withDefault fields "output_limit_bytes" base.outputLimit Decode.count
      return ⟨compiler, args, compileSeconds, runSeconds, outputLimit⟩

def CompilersSettings.toJson (s : CompilersSettings) : Json :=
  .obj [("rust", s.rust.toJson), ("cpp", s.cpp.toJson)]

def CompilersSettings.known : List Decode.Field :=
  [Decode.may "rust" CompilerSettings.ofJson, Decode.may "cpp" CompilerSettings.ofJson]

def CompilersSettings.ofJson : Decoder CompilersSettings :=
  Decode.record "ToolchainsConfig" CompilersSettings.known
    fun fields => do
      let base := CompilersSettings.default
      let rust ← Decode.withDefault fields "rust" base.rust CompilerSettings.ofJson
      let cpp ← Decode.withDefault fields "cpp" base.cpp CompilerSettings.ofJson
      return ⟨rust, cpp⟩

def ClientSettings.toJson (s : ClientSettings) : Json :=
  .obj [("backend", .str s.backend), ("model", .str s.model),
    ("request_timeout_secs", .int s.requestSeconds), ("max_retries", .int s.maxRetries),
    ("initial_backoff_ms", .int s.initialMs), ("max_backoff_ms", .int s.maxMs)]

def ClientSettings.known : List Decode.Field :=
  [Decode.may "backend" Decode.string, Decode.may "model" Decode.string,
   Decode.may "request_timeout_secs" Decode.word64, Decode.may "max_retries" Decode.word32,
   Decode.may "initial_backoff_ms" Decode.word64, Decode.may "max_backoff_ms" Decode.word64]

def ClientSettings.ofJson : Decoder ClientSettings :=
  Decode.record "ClientConfig" ClientSettings.known
    fun fields => do
      let base : ClientSettings := {}
      let backend ← Decode.withDefault fields "backend" base.backend Decode.string
      let model ← Decode.withDefault fields "model" base.model Decode.string
      let requestSeconds ←
        Decode.withDefault fields "request_timeout_secs" base.requestSeconds Decode.word64
      let maxRetries ← Decode.withDefault fields "max_retries" base.maxRetries Decode.word32
      let initialMs ← Decode.withDefault fields "initial_backoff_ms" base.initialMs Decode.word64
      let maxMs ← Decode.withDefault fields "max_backoff_ms" base.maxMs Decode.word64
      return ⟨backend, model, requestSeconds, maxRetries, initialMs, maxMs⟩

namespace Settings

def recordWith (descriptor : Descriptor → Json) (s : Settings) : Json :=
  .obj [("reference_path", .str s.referencePath), ("output_dir", .str s.outputDir),
    ("repair", s.repair.toJson), ("toolchains", s.compilers.toJson),
    ("client", s.client.toJson),
    ("backends", .obj (s.backends.map fun e => (e.1, descriptor e.2)))]

def toJson (s : Settings) : Json := s.recordWith Descriptor.toJson

def ofJson : Decoder Settings :=
  Decode.record "AppConfig"
    [Decode.may "reference_path" Decode.path, Decode.may "output_dir" Decode.path,
     Decode.may "repair" RepairSettings.ofJson,
     Decode.may "toolchains" CompilersSettings.ofJson,
     Decode.may "client" ClientSettings.ofJson,
     Decode.may "backends" (Decode.table Descriptor.ofJson)]
    fun fields => do
      let base := Settings.default
      let referencePath ←
        Decode.withDefault fields "reference_path" base.referencePath Decode.path
      let outputDir ← Decode.withDefault fields "output_dir" base.outputDir Decode.path
      let repair ← Decode.withDefault fields "repair" base.repair RepairSettings.ofJson
      let compilers ←
        Decode.withDefault fields "toolchains" base.compilers CompilersSettings.ofJson
      let client ← Decode.withDefault fields "client" base.client ClientSettings.ofJson
      let backends ←
        Decode.withDefault fields "backends" base.backends (Decode.table Descriptor.ofJson)
      return ⟨referencePath, outputDir, repair, compilers, client, backends⟩

def withoutNulls : Json → Json
  | .obj fields => .obj (fields.filter fun f => match f.2 with
    | .null => false
    | _ => true)
  | j => j

def toDocument (s : Settings) : Json := s.recordWith fun d => withoutNulls d.toJson

def variantName : Json → Json
  | .obj [(name, .obj [])] => .str name
  | .obj [(name, .arr [])] => .str name
  | j => j

def onField (key : String) (change : Json → Json) : Json → Json
  | .obj fields => .obj (fields.map fun f => if f.1 = key then (f.1, change f.2) else f)
  | j => j

def onFields (change : Json → Json) : Json → Json
  | .obj fields => .obj (fields.map fun f => (f.1, change f.2))
  | j => j

/-- A list that stands for a record in a document: it holds the fields in the order of their
declaration, and what follows them counts for nothing. -/
def listed (known : List Decode.Field) : Json → Json
  | .arr items => .obj ((known.map (·.key)).zip items)
  | j => j

def compilersOfDocument (j : Json) : Json :=
  let compiler := listed CompilerSettings.known
  onField "rust" compiler (onField "cpp" compiler (listed CompilersSettings.known j))

def descriptorOfDocument (j : Json) : Json :=
  onField "framing" variantName (onField "shape" variantName (listed Descriptor.known j))

def ofDocument (document : Json) : Except Mismatch Settings :=
  ofJson <| onField "repair" (listed RepairSettings.known) <|
    onField "client" (listed ClientSettings.known) <|
    onField "toolchains" compilersOfDocument <|
    onField "backends" (onFields descriptorOfDocument) document

end Settings
end Anneal
