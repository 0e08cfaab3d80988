import Anneal.Artifact
import Anneal.Comparison
import Anneal.Conversation.Agent
import Anneal.Journal
import Anneal.Prompts
import Anneal.Reply.Extraction
import Anneal.Toolchain

/-!
# What a repair works with

The fixed surroundings of a repair, the request it answers, and the progress it makes. Every call
of a toolchain or of the model, and every text written over the candidate, is entered into the
progress in order, with the worlds before and after it, so that the course of a repair can be read
off it.
-/

namespace Anneal.Repair

structure Settings where
  maxRetry : Nat := 5
  comparison : Comparison := .exact
  options : CompletionOptions := ⟨2000, 0.3, []⟩

structure Request where
  candidatePath : String
  referencePath : String
  instruction : Option String
  stdinPath : Option String
  deriving DecidableEq, Repr

structure Setup (σ : Type) where
  client : Client σ
  candidate : Toolchain σ
  reference : Toolchain σ
  settings : Settings
  journal : Option Journal

inductive Side where
  | candidate | reference
  deriving DecidableEq, Repr

inductive Call where
  | compile (side : Side) (source : String) (result : Except Failure StepResult)
  | run (side : Side) (executable : String) (stdin : Option String)
      (result : Except Failure StepResult)
  | chat (prompt : String) (result : Except ClientError String)
  | write (text : String)

/-- A call, the world it was made in and the world it left. -/
structure Entry (σ : Type) where
  call : Call
  before : World σ
  after : World σ

structure Progress (σ : Type) where
  agent : Agent
  attempts : List Attempt
  lastDiagnostic : Option String
  verifications : Nat
  referenceOutput : Option String
  entries : List (Entry σ)
  world : World σ

namespace Progress

variable {σ : Type}

def start (agent : Agent) (w : World σ) : Progress σ := ⟨agent, [], none, 0, none, [], w⟩

def enter (p : Progress σ) (c : Call) (after : World σ) : Progress σ :=
  { p with entries := p.entries ++ [⟨c, p.world, after⟩], world := after }

end Progress

structure Stop where
  reason : StopReason
  detail : String
  deriving DecidableEq, Repr

end Anneal.Repair
