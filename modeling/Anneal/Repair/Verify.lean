import Anneal.Repair.Setup

/-!
# Verifying a candidate

A verification compiles and runs the candidate and compares its output with that of the reference.
The reference is built and run when a candidate has run for the first time; its output is kept.
-/

namespace Anneal.Repair

variable {σ : Type}

def compileStep (side : Side) (tc : Toolchain σ) (source : String) (p : Progress σ) :
    Except Failure StepResult × Progress σ :=
  let r := tc.compile source p.world
  (r.1, p.enter (.compile side source r.1) r.2)

def runStep (side : Side) (tc : Toolchain σ) (executable : String) (stdin : Option String)
    (p : Progress σ) : Except Failure StepResult × Progress σ :=
  let r := tc.run executable stdin p.world
  (r.1, p.enter (.run side executable stdin r.1) r.2)

inductive Verdict where
  | converged (output : String)
  | failed (failureClass : FailureClass) (outcome : Outcome)
  | referenceBroken (diagnostic : String)

def runReference (s : Setup σ) (q : Request) (p : Progress σ) :
    Except Failure (Except String String) × Progress σ :=
  match compileStep .reference s.reference q.referencePath p with
  | (.error e, p) => (.error e, p)
  | (.ok compiled, p) =>
    if !compiled.ok then
      (.ok (.error ("reference program failed to compile:\n" ++ compiled.text)), p)
    else
      match runStep .reference s.reference (executableFor q.referencePath) q.stdinPath p with
      | (.error e, p) => (.error e, p)
      | (.ok ran, p) =>
        if !ran.ok then (.ok (.error ("reference program failed to run:\n" ++ ran.text)), p)
        else (.ok (.ok ran.text), { p with referenceOutput := some ran.text })

def expectedOutput (s : Setup σ) (q : Request) (p : Progress σ) :
    Except Failure (Except String String) × Progress σ :=
  match p.referenceOutput with
  | some output => (.ok (.ok output), p)
  | none => runReference s q p

def judge (s : Setup σ) (output expected : String) : Verdict :=
  if s.settings.comparison.accepts output expected then .converged output
  else .failed .outputMismatch (.fail .compare output
    (Prompts.mismatchReport s.candidate.language.displayName output
      s.reference.language.displayName expected))

def verify (s : Setup σ) (q : Request) (p : Progress σ) :
    Except Failure Verdict × Progress σ :=
  match compileStep .candidate s.candidate q.candidatePath p with
  | (.error e, p) => (.error e, p)
  | (.ok compiled, p) =>
    if !compiled.ok then
      (.ok (.failed .compileError (.fail .compile "" compiled.text)), p)
    else
      match runStep .candidate s.candidate (executableFor q.candidatePath) q.stdinPath p with
      | (.error e, p) => (.error e, p)
      | (.ok ran, p) =>
        if !ran.ok then (.ok (.failed .runtimeError (.fail .run "" ran.text)), p)
        else
          match expectedOutput s q p with
          | (.error e, p) => (.error e, p)
          | (.ok (.error diagnostic), p) => (.ok (.referenceBroken diagnostic), p)
          | (.ok (.ok expected), p) => (.ok (judge s ran.text expected), p)

end Anneal.Repair
