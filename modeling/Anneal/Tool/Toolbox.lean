import Anneal.Repair.Loop
import Anneal.Tool.Choice
import Anneal.Tool.Convert
import Anneal.Tool.Explain

/-!
# The toolbox

The three tools with the router in front of them. Each tool has an agent of its own, so their
conversations stay apart. A request is routed by the model or handed to a tool directly.
-/

namespace Anneal

structure Toolbox (σ : Type) where
  routerClient : Client σ
  converterClient : Client σ
  explainerClient : Client σ
  repair : Repair.Setup σ
  target : Convert.Target
  stdinPath : Option String

structure Workshop (σ : Type) where
  router : Agent
  converter : Agent
  repair : Agent
  explainer : Agent
  world : World σ

inductive ToolError where
  | routing (e : RoutingError)
  | convert (e : Convert.Error)
  | explain (e : Explain.Error)
  | repair (f : Failure)

def ToolError.message : ToolError → String
  | .routing e => e.message
  | .convert e => e.message
  | .explain e => e.message
  | .repair f => f.message

inductive Routed where
  | converted (c : Convert.Converted)
  | repaired (r : Report)
  | explained (answer : String)

namespace Toolbox

variable {σ : Type}

def routerOptions : CompletionOptions := ⟨500, 0.3, []⟩

/-- Lets the router pick a tool. -/
def choose (t : Toolbox σ) (instruction : String) (s : Workshop σ) :
    Except RoutingError ToolChoice × Workshop σ :=
  match s.router.chat t.routerClient (Prompts.route instruction) routerOptions s.world with
  | (.error e, a, w) => (.error (.backend e), { s with router := a, world := w })
  | (.ok reply, a, w) => (ToolChoice.parse reply, { s with router := a, world := w })

def repairRequest (t : Toolbox σ) (instruction : Option String) : Repair.Request :=
  ⟨t.target.codePath, t.target.referencePath, instruction, t.stdinPath⟩

def defaultQuestion : String := "Explain the code."

/-- Hands an input to a tool; a blank one counts as none. -/
def run (t : Toolbox σ) (tool : Tool) (input : String) (s : Workshop σ) :
    Except ToolError Routed × Workshop σ :=
  let given := Prompts.nonBlank (some input)
  match tool with
  | .converter =>
    let (r, a, w) := Convert.convert t.converterClient t.target given s.converter s.world
    ((r.mapError .convert).map .converted, { s with converter := a, world := w })
  | .modifier =>
    let (r, p) := Repair.diagnoseAndFix t.repair (t.repairRequest given) s.repair s.world
    ((r.mapError .repair).map .repaired, { s with repair := p.agent, world := p.world })
  | .explainer =>
    let (r, a, w) := Explain.explain t.explainerClient t.target.referencePath t.target.codePath
      (given.getD defaultQuestion) s.explainer s.world
    ((r.mapError .explain).map .explained, { s with explainer := a, world := w })

/-- Routes an instruction and runs the tool on its action, or on the instruction itself. -/
def route (t : Toolbox σ) (instruction : String) (s : Workshop σ) :
    Except ToolError Routed × Workshop σ :=
  match t.choose instruction s with
  | (.error e, s) => (.error (.routing e), s)
  | (.ok choice, s) =>
    t.run choice.tool (if choice.action.isEmpty then instruction else choice.action) s

end Toolbox
end Anneal
