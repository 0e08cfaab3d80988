import Anneal.Json.Decode
import Anneal.Timestamp

/-!
# Verifications, repair attempts and reports

What one cycle of compiling, running and comparing finds, what a repair attempt did about it, and
how a whole repair ended. Each has a written form as a JSON record with its fields in the order of
their declaration.
-/

namespace Anneal

open Anneal.Json

inductive Language where
  | rust | cpp
  deriving DecidableEq, Repr

def Language.tag : Language → String
  | .rust => "rust"
  | .cpp => "cpp"

def Language.displayName : Language → String
  | .rust => "Rust"
  | .cpp => "C++"

def Language.sourceExtension : Language → String
  | .rust => "rs"
  | .cpp => "cpp"

def Language.ofJson : Decoder Language := Decode.variant [("rust", .rust), ("cpp", .cpp)]

inductive Stage where
  | compile | run | compare
  deriving DecidableEq, Repr

def Stage.tag : Stage → String
  | .compile => "compile"
  | .run => "run"
  | .compare => "compare"

def Stage.ofJson : Decoder Stage :=
  Decode.variant [("compile", .compile), ("run", .run), ("compare", .compare)]

inductive FailureClass where
  | compileError | runtimeError | outputMismatch
  deriving DecidableEq, Repr

def FailureClass.tag : FailureClass → String
  | .compileError => "compile_error"
  | .runtimeError => "runtime_error"
  | .outputMismatch => "output_mismatch"

def FailureClass.ofJson : Decoder FailureClass :=
  Decode.variant [("compile_error", .compileError), ("runtime_error", .runtimeError),
    ("output_mismatch", .outputMismatch)]

def FailureClass.stage : FailureClass → Stage
  | .compileError => .compile
  | .runtimeError => .run
  | .outputMismatch => .compare

def Stage.failureClass : Stage → FailureClass
  | .compile => .compileError
  | .run => .runtimeError
  | .compare => .outputMismatch

structure Outcome where
  stage : Stage
  passed : Bool
  capturedOutput : String
  diagnostic : Option String
  deriving DecidableEq, Repr

namespace Outcome

def pass (stage : Stage) (output : String) : Outcome := ⟨stage, true, output, none⟩

def fail (stage : Stage) (output diagnostic : String) : Outcome :=
  ⟨stage, false, output, some diagnostic⟩

def failureClass? (o : Outcome) : Option FailureClass :=
  if o.passed then none else some o.stage.failureClass

def diagnosticText (o : Outcome) : String := o.diagnostic.getD ""

end Outcome

def Json.ofOptionText : Option String → Json
  | none => .null
  | some s => .str s

def Outcome.toJson (o : Outcome) : Json :=
  .obj [("stage", .str o.stage.tag), ("passed", .bool o.passed),
    ("captured_output", .str o.capturedOutput), ("diagnostic", .ofOptionText o.diagnostic)]

def Outcome.ofJson : Decoder Outcome :=
  Decode.record "VerificationOutcome"
    [Decode.need "stage" Stage.ofJson, Decode.need "passed" Decode.bool,
     Decode.need "captured_output" Decode.string,
     Decode.need "diagnostic" (Decode.optional Decode.string)]
    fun fields => do
      let stage ← Decode.required fields "stage" Stage.ofJson
      let passed ← Decode.required fields "passed" Decode.bool
      let captured ← Decode.required fields "captured_output" Decode.string
      let diagnostic ← Decode.withDefault fields "diagnostic" none (Decode.optional Decode.string)
      return ⟨stage, passed, captured, diagnostic⟩

def Timestamp.ofJson : Decoder Timestamp
  | .str s => match Timestamp.parse s with
    | .ok t => .ok t
    | .error e => .error (.custom e.message)
  | j => .error (.wrongType j "an RFC 3339 formatted date and time string")

structure Attempt where
  number : Nat
  startedAt : Timestamp
  durationMs : Nat
  failureClass : FailureClass
  outcome : Outcome
  prompt : String
  newCode : String
  deriving DecidableEq, Repr

def Attempt.toJson (a : Attempt) : Json :=
  .obj [("attempt", .int a.number), ("started_at", .str a.startedAt.text),
    ("duration_ms", .int a.durationMs), ("failure_class", .str a.failureClass.tag),
    ("outcome", a.outcome.toJson), ("prompt", .str a.prompt), ("new_code", .str a.newCode)]

def Attempt.ofJson : Decoder Attempt :=
  Decode.record "RepairAttempt"
    [Decode.need "attempt" Decode.word32, Decode.need "started_at" Timestamp.ofJson,
     Decode.need "duration_ms" Decode.word64,
     Decode.need "failure_class" FailureClass.ofJson,
     Decode.need "outcome" Outcome.ofJson, Decode.need "prompt" Decode.string,
     Decode.need "new_code" Decode.string]
    fun fields => do
      let number ← Decode.required fields "attempt" Decode.word32
      let startedAt ← Decode.required fields "started_at" Timestamp.ofJson
      let durationMs ← Decode.required fields "duration_ms" Decode.word64
      let failureClass ← Decode.required fields "failure_class" FailureClass.ofJson
      let outcome ← Decode.required fields "outcome" Outcome.ofJson
      let prompt ← Decode.required fields "prompt" Decode.string
      let newCode ← Decode.required fields "new_code" Decode.string
      return ⟨number, startedAt, durationMs, failureClass, outcome, prompt, newCode⟩

/-- Why a repair ended. -/
inductive StopReason where
  | converged
  | exhausted
  | referenceBroken
  | responseParse
  | transport
  | backend
  | cancelled
  deriving DecidableEq, Repr

def StopReason.label : StopReason → String
  | .converged => "converged"
  | .exhausted => "exhausted"
  | .referenceBroken => "reference_broken"
  | .responseParse => "response_parse_error"
  | .transport => "transport_error"
  | .backend => "backend_error"
  | .cancelled => "cancelled"

def StopReason.tag : StopReason → String
  | .converged => "converged"
  | .exhausted => "exhausted"
  | .referenceBroken => "reference_broken"
  | .responseParse => "response_parse"
  | .transport => "transport"
  | .backend => "backend"
  | .cancelled => "cancelled"

def StopReason.ofJson : Decoder StopReason :=
  Decode.variant [("converged", .converged), ("exhausted", .exhausted),
    ("reference_broken", .referenceBroken), ("response_parse", .responseParse),
    ("transport", .transport), ("backend", .backend), ("cancelled", .cancelled)]

structure Report where
  success : Bool
  stop : StopReason
  detail : String
  lastDiagnostic : Option String
  verifications : Nat
  attempts : List Attempt
  durationMs : Nat
  deriving DecidableEq, Repr

def Report.attemptsUsed (r : Report) : Nat := r.attempts.length

def Report.toJson (r : Report) : Json :=
  .obj [("success", .bool r.success), ("stop", .str r.stop.tag), ("detail", .str r.detail),
    ("last_diagnostic", .ofOptionText r.lastDiagnostic),
    ("verifications", .int r.verifications), ("attempts", .arr (r.attempts.map Attempt.toJson)),
    ("duration_ms", .int r.durationMs)]

def Report.ofJson : Decoder Report :=
  Decode.record "RepairReport"
    [Decode.need "success" Decode.bool, Decode.need "stop" StopReason.ofJson,
     Decode.need "detail" Decode.string,
     Decode.need "last_diagnostic" (Decode.optional Decode.string),
     Decode.need "verifications" Decode.word32,
     Decode.need "attempts" (Decode.list Attempt.ofJson),
     Decode.need "duration_ms" Decode.word64]
    fun fields => do
      let success ← Decode.required fields "success" Decode.bool
      let stop ← Decode.required fields "stop" StopReason.ofJson
      let detail ← Decode.required fields "detail" Decode.string
      let lastDiagnostic ←
        Decode.withDefault fields "last_diagnostic" none (Decode.optional Decode.string)
      let verifications ← Decode.required fields "verifications" Decode.word32
      let attempts ← Decode.required fields "attempts" (Decode.list Attempt.ofJson)
      let durationMs ← Decode.required fields "duration_ms" Decode.word64
      return ⟨success, stop, detail, lastDiagnostic, verifications, attempts, durationMs⟩

end Anneal
