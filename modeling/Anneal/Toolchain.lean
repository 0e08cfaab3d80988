import Anneal.Verification
import Anneal.World

/-!
# Toolchains

A toolchain compiles a source into the executable beside it and runs executables.
-/

namespace Anneal

structure StepResult where
  ok : Bool
  text : String
  timedOut : Bool
  deriving DecidableEq, Repr

namespace StepResult

def success (text : String) : StepResult := ⟨true, text, false⟩

def failure (text : String) : StepResult := ⟨false, text, false⟩

end StepResult

structure Toolchain (σ : Type) where
  language : Language
  compile : String → World σ → Except Failure StepResult × World σ
  run : String → Option String → World σ → Except Failure StepResult × World σ

def executableFor (source : String) : String := Path.withoutExtension source

end Anneal
