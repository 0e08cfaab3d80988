import Anneal.Tool.Toolbox

/-! A request to the toolbox, and which conversations it can go into. -/

namespace Anneal.Toolbox

inductive Request where
  | direct (tool : Tool) (input : String)
  | routed (instruction : String)
  deriving DecidableEq, Repr

variable {σ : Type}

def perform (t : Toolbox σ) (s : Workshop σ) :
    Request → Except ToolError Routed × Workshop σ
  | .direct tool input => t.run tool input s
  | .routed instruction => t.route instruction s

theorem run_router (t : Toolbox σ) (tool : Tool) (input : String) (s : Workshop σ) :
    (t.run tool input s).2.router = s.router := by cases tool <;> rfl

end Anneal.Toolbox
