import Anneal.Proofs.Tool.Requests

/-! Where a routed request goes. The router is asked once. If nothing can be made of its answer, that
is all that happens; otherwise one tool is called, with the conversation of that tool alone. -/

namespace Anneal

variable {σ : Type}

inductive Agent.Chats (client : Client σ) (a : Agent) (input : String)
    (options : CompletionOptions) (w : World σ) :
    Except ClientError String → Agent → World σ → Prop
  | unavailable {e : ClientError} (hshape : client.shape a.backend = .error e) :
      Chats client a input options w (.error e) a w
  | failed {shape : PromptShape} {e : ClientError} {after : World σ}
      (hshape : client.shape a.backend = .ok shape)
      (hcall : client.complete a.backend (a.promptFor input shape) options w = (.error e, after)) :
      Chats client a input options w (.error e) a after
  | answered {shape : PromptShape} {reply : String} {after : World σ}
      (hshape : client.shape a.backend = .ok shape)
      (hcall : client.complete a.backend (a.promptFor input shape) options w = (.ok reply, after)) :
      Chats client a input options w (.ok reply)
        { a with history := a.history.record input reply } after

theorem Agent.chats (client : Client σ) (a : Agent) (input : String) (options : CompletionOptions)
    (w : World σ) : Chats client a input options w (a.chat client input options w).1
      (a.chat client input options w).2.1 (a.chat client input options w).2.2 := by
  unfold chat
  cases hshape : client.shape a.backend with
  | error e => exact .unavailable hshape
  | ok shape =>
    dsimp only
    cases hcall : client.complete a.backend (a.promptFor input shape) options w with
    | mk answer after =>
      cases answer with
      | error e => exact .failed hshape hcall
      | ok reply => exact .answered hshape hcall

namespace Toolbox

def asked (input : String) : Option String := if Text.isBlankText input then none else some input

theorem nonBlank_some (input : String) : Prompts.nonBlank (some input) = asked input := by
  rw [Prompts.nonBlank, asked, Option.filter_some]
  cases Text.isBlankText input <;> rfl

/-- What becomes of the call of one tool: its own conversation and the world may change. -/
inductive Calls (t : Toolbox σ) (input : String) (s : Workshop σ) :
    Tool → Except ToolError Routed × Workshop σ → Prop
  | converter {r : Except Convert.Error Convert.Converted} {a : Agent} {w : World σ}
      (h : Convert.convert t.converterClient t.target (asked input) s.converter s.world =
        (r, a, w)) :
      Calls t input s .converter
        ((r.mapError .convert).map .converted, { s with converter := a, world := w })
  | modifier {r : Except Failure Report} {p : Repair.Progress σ}
      (h : Repair.diagnoseAndFix t.repair
        ⟨t.target.codePath, t.target.referencePath, asked input, t.stdinPath⟩ s.repair s.world =
          (r, p)) :
      Calls t input s .modifier
        ((r.mapError .repair).map .repaired, { s with repair := p.agent, world := p.world })
  | explainer {r : Except Explain.Error String} {a : Agent} {w : World σ}
      (h : Explain.explain t.explainerClient t.target.referencePath t.target.codePath
        ((asked input).getD "Explain the code.") s.explainer s.world = (r, a, w)) :
      Calls t input s .explainer
        ((r.mapError .explain).map .explained, { s with explainer := a, world := w })

theorem run_calls (t : Toolbox σ) (tool : Tool) (input : String) (s : Workshop σ) :
    Calls t input s tool (t.run tool input s) := by
  unfold run
  rw [nonBlank_some]
  cases tool with
  | converter => exact .converter rfl
  | modifier => exact .modifier rfl
  | explainer => exact .explainer rfl

def handed (instruction : String) (choice : ToolChoice) : String :=
  if choice.action = "" then instruction else choice.action

inductive Routes (t : Toolbox σ) (instruction : String) (s : Workshop σ) :
    Except ToolError Routed × Workshop σ → Prop
  | unanswered {e : ClientError} {a : Agent} {w : World σ}
      (hchat : s.router.Chats t.routerClient (Prompts.route instruction) routerOptions s.world
        (.error e) a w) :
      Routes t instruction s (.error (.routing (.backend e)), { s with router := a, world := w })
  | unclear {reply : String} {e : RoutingError} {a : Agent} {w : World σ}
      (hchat : s.router.Chats t.routerClient (Prompts.route instruction) routerOptions s.world
        (.ok reply) a w)
      (hparse : ToolChoice.parse reply = .error e) :
      Routes t instruction s (.error (.routing e), { s with router := a, world := w })
  | dispatched {reply : String} {choice : ToolChoice} {a : Agent} {w : World σ}
      {r : Except ToolError Routed × Workshop σ}
      (hchat : s.router.Chats t.routerClient (Prompts.route instruction) routerOptions s.world
        (.ok reply) a w)
      (hparse : ToolChoice.parse reply = .ok choice)
      (hcall : Calls t (handed instruction choice) { s with router := a, world := w }
        choice.tool r) :
      Routes t instruction s r

theorem route_routes (t : Toolbox σ) (instruction : String) (s : Workshop σ) :
    Routes t instruction s (t.route instruction s) := by
  have hchat := s.router.chats t.routerClient (Prompts.route instruction) routerOptions s.world
  unfold route choose
  revert hchat
  generalize s.router.chat t.routerClient (Prompts.route instruction) routerOptions s.world = r
  obtain ⟨answer, a, w⟩ := r
  intro hchat
  cases answer with
  | error e => exact .unanswered hchat
  | ok reply =>
    dsimp only at hchat ⊢
    cases hparse : ToolChoice.parse reply with
    | error e => exact .unclear hchat hparse
    | ok choice =>
      have hhanded : (if choice.action.isEmpty = true then instruction else choice.action) =
          handed instruction choice := by simp only [handed, String.isEmpty_iff]
      dsimp only
      rw [hhanded]
      exact .dispatched hchat hparse (run_calls t choice.tool _ _)

/-- The toolboxes have the same to offer to the tool. -/
def SameFor (t t' : Toolbox σ) : Tool → Prop
  | .converter => t.converterClient = t'.converterClient ∧ t.target = t'.target
  | .modifier => t.repair = t'.repair ∧ t.target.codePath = t'.target.codePath ∧
      t.target.referencePath = t'.target.referencePath ∧ t.stdinPath = t'.stdinPath
  | .explainer => t.explainerClient = t'.explainerClient ∧
      t.target.referencePath = t'.target.referencePath ∧ t.target.codePath = t'.target.codePath

theorem run_sameFor {t t' : Toolbox σ} {tool : Tool} (h : SameFor t t' tool) (input : String)
    (s : Workshop σ) : t.run tool input s = t'.run tool input s := by
  cases tool with
  | converter =>
    obtain ⟨hclient, htarget⟩ := h
    simp only [run, hclient, htarget]
  | modifier =>
    obtain ⟨hrepair, hcode, hreference, hstdin⟩ := h
    simp only [run, repairRequest, hrepair, hcode, hreference, hstdin]
  | explainer =>
    obtain ⟨hclient, hreference, hcode⟩ := h
    simp only [run, hclient, hreference, hcode]

/-- A routed instruction has to do with nothing but the router and the tool it picks. -/
theorem route_sameFor {t t' : Toolbox σ} (hrouter : t.routerClient = t'.routerClient)
    (instruction : String) (s : Workshop σ)
    (h : ∀ choice s', t.choose instruction s = (.ok choice, s') → SameFor t t' choice.tool) :
    t.route instruction s = t'.route instruction s := by
  have hchoose : t'.choose instruction s = t.choose instruction s := by
    unfold choose
    rw [hrouter]
  unfold route
  rw [hchoose]
  cases hc : t.choose instruction s with
  | mk choice s' =>
    cases choice with
    | error e => rfl
    | ok choice => exact run_sameFor (h choice s' hc) _ s'

end Toolbox
end Anneal
