import Anneal.Proofs.Program.Steps
import Anneal.Proofs.Repair.Cancellation
import Anneal.Proofs.Repair.Outputs

/-! What keeps a repair from coming to a report. Toolchains that run programs have a result for
whatever becomes of a program, so only the files that the repair itself reads and writes are left. -/

namespace Anneal.Repair

variable {σ : Type} {s : Setup σ} {q : Request}

structure Answers (tc : Toolchain σ) : Prop where
  compile : ∀ source w, ∃ step w', tc.compile source w = (.ok step, w')
  run : ∀ executable stdin w, ∃ step w', tc.run executable stdin w = (.ok step, w')

end Anneal.Repair
