import Anneal.Artifact
import Anneal.Conversation.Agent
import Anneal.Prompts

/-!
# Explaining the programs

A question is answered with whichever of the two sources are on the disk when it is asked.
-/

namespace Anneal.Explain

inductive Error where
  | noSources (reference candidate : String)
  | read (path : String) (cause : OsError)
  | backend (cause : ClientError)
  deriving DecidableEq, Repr

def Error.message : Error → String
  | .noSources reference candidate =>
    s!"nothing to explain: neither {reference} nor {candidate} exists"
  | .read path cause => s!"read {path}: {cause.message}"
  | .backend cause => cause.chain

def options : CompletionOptions := ⟨1000, 0.3, []⟩

variable {σ : Type}

def readSource (path : String) (w : World σ) :
    Except Error (Option Prompts.Source) × World σ :=
  match w.onDisk fun d => Artifact.readOptional d path with
  | (.ok text, w) => (.ok (text.map fun t => ⟨path, t⟩), w)
  | (.error e, w) => (.error (.read path e), w)

def explain (client : Client σ) (referencePath candidatePath question : String) (a : Agent)
    (w : World σ) : Except Error String × Agent × World σ :=
  match readSource referencePath w with
  | (.error e, w) => (.error e, a, w)
  | (.ok reference, w) =>
    match readSource candidatePath w with
    | (.error e, w) => (.error e, a, w)
    | (.ok candidate, w) =>
      if reference.isNone && candidate.isNone then
        (.error (.noSources referencePath candidatePath), a, w)
      else
        match a.chat client (Prompts.explain reference candidate question) options w with
        | (.error e, a, w) => (.error (.backend e), a, w)
        | (.ok answer, a, w) => (.ok answer, a, w)

end Anneal.Explain
