import Anneal.Proofs.Conversation.Failures
import Anneal.Proofs.Tool.Routing
import Anneal.Scripted

/-! The converter between the other tools. Its conversation is told by its own invocations: by their
instructions, what the reference held, what the model answered, and whether the code could be
stored, for only code that was stored is noted. Two runs that agree on these sent its model the same
prompts, whatever else they did. -/

namespace Anneal

variable {σ τ : Type}

namespace Convert

/-- An invocation of the converter, as far as it matters to later ones. -/
structure Invocation where
  instruction : Option String
  reference : Option String
  answers : List Agent.Answer
  stored : Bool
  deriving DecidableEq

def stored : Except Error Converted → Bool
  | .error (.persist _ _) => false
  | _ => true

/-- An invocation with the prompts that the model received, seen by letting a watched twin take
the call. -/
def invocation (client : Client σ) (target : Target) (instruction : Option String) (a : Agent)
    (w : World σ) : Invocation × List Prompt :=
  let seen := (convert (Agent.watched client) target instruction a
    (w.withOutside ([], w.outside))).2.2.outside.1
  (⟨instruction, (w.onDisk fun d => d.readText target.referencePath).1.toOption,
    seen.map Prod.snd, stored (convert client target instruction a w).1⟩, seen.map Prod.fst)

namespace Invocation

def prompts (shape : Except ClientError PromptShape) (path : String) (a : Agent)
    (i : Invocation) : List Prompt :=
  match i.reference, shape with
  | some text, .ok shape => [a.promptFor (Prompts.convert ⟨path, text⟩ i.instruction) shape]
  | _, _ => []

def told (path text : String) (instruction : Option String) (reply : String) (a : Agent) : Agent :=
  { a with history := a.history.record (Prompts.convert ⟨path, text⟩ instruction) reply }

def next (path : String) (a : Agent) (i : Invocation) : Agent :=
  match i.reference, i.answers with
  | some text, [.ok reply] =>
    let a := told path text i.instruction reply a
    match Reply.extract reply .conversion with
    | .error _ => a
    | .ok found => bif i.stored then a.annotate (conversionNote found.code) else a
  | _, _ => a

end Invocation

section Spec

variable {client : Client σ} {target : Target} {instruction : Option String} {a : Agent}

theorem onDisk_withOutside {ε α : Type} (o : τ) (w : World σ) (op : Disk → Except ε α × Disk) :
    (w.withOutside o).onDisk op = ((w.onDisk op).1, (w.onDisk op).2.withOutside o) := rfl

theorem persist_withOutside (o : τ) (path text : String) (w : World σ) :
    persist path text (w.withOutside o) =
      ((persist path text w).1, (persist path text w).2.withOutside o) := by
  unfold persist
  rw [onDisk_withOutside]
  generalize w.onDisk (fun d => Artifact.writeAtomic d path (Artifact.sourceText text)) = r
  obtain ⟨_ | _, w⟩ := r <;> rfl

theorem persistManifest_withOutside (o : τ) (manifest : Option String) (w : World σ) :
    persistManifest target manifest (w.withOutside o) =
      ((persistManifest target manifest w).1,
        (persistManifest target manifest w).2.withOutside o) := by
  cases manifest with
  | none => rfl
  | some text =>
    unfold persistManifest
    dsimp only
    rw [persist_withOutside]
    generalize persist target.manifestPath text w = r
    obtain ⟨_ | _, w⟩ := r <;> rfl

theorem persistAll_withOutside (o : τ) (found : Reply.Extracted) (w : World σ) :
    persistAll target found (w.withOutside o) =
      ((persistAll target found w).1, (persistAll target found w).2.withOutside o) := by
  unfold persistAll
  rw [persist_withOutside]
  generalize persist target.codePath found.code w = r
  obtain ⟨_ | _, w⟩ := r
  · rfl
  · dsimp only
    rw [persistManifest_withOutside]
    generalize persistManifest target found.auxiliary w = r
    obtain ⟨_ | _, w⟩ := r <;> rfl

def Error.ofStorage : Error → Prop
  | .persist _ _ => True
  | _ => False

theorem persist_error {path text : String} {w w' : World σ} {e : Error}
    (h : persist path text w = (.error e, w')) : e.ofStorage := by
  unfold persist at h
  split at h
  · cases h
  · cases h
    trivial

theorem persistAll_error {found : Reply.Extracted} {w w' : World σ} {e : Error}
    (h : persistAll target found w = (.error e, w')) : e.ofStorage := by
  unfold persistAll at h
  split at h
  next hcode =>
    cases h
    exact persist_error hcode
  next =>
    split at h
    next hmanifest =>
      cases h
      unfold persistManifest at hmanifest
      split at hmanifest
      · cases hmanifest
      · split at hmanifest
        · cases hmanifest
        next hfile =>
          cases hmanifest
          exact persist_error hfile
    next => cases h

def absorb (target : Target) (reply : String) (a : Agent) (w : World σ) :
    Except Error Converted × Agent × World σ :=
  match Reply.extract reply .conversion with
  | .error e => (.error (.noCode e), a, w)
  | .ok found =>
    match persistAll target found w with
    | (.error e, w) => (.error e, a, w)
    | (.ok converted, w) => (.ok converted, a.annotate (conversionNote found.code), w)

theorem convert_eq (client : Client σ) (target : Target) (instruction : Option String) (a : Agent)
    (w : World σ) : convert client target instruction a w =
      match w.onDisk fun d => d.readText target.referencePath with
      | (.error e, w) => (.error (.readReference target.referencePath e), a, w)
      | (.ok reference, w) =>
        match a.chat client (Prompts.convert ⟨target.referencePath, reference⟩ instruction)
          options w with
        | (.error e, a, w) => (.error (.backend e), a, w)
        | (.ok reply, a, w) => absorb target reply a w := rfl

theorem absorb_withOutside (o : τ) (reply : String) (w : World σ) :
    absorb target reply a (w.withOutside o) =
      ((absorb target reply a w).1, (absorb target reply a w).2.1,
        (absorb target reply a w).2.2.withOutside o) := by
  unfold absorb
  split
  · rfl
  next found _ =>
    rw [persistAll_withOutside]
    generalize persistAll target found w = r
    obtain ⟨_ | _, w⟩ := r <;> rfl

/-- Code that is stored is noted. -/
theorem absorb_agent (reply : String) (w : World σ) : (absorb target reply a w).2.1 =
    match Reply.extract reply .conversion with
    | .error _ => a
    | .ok found =>
      bif stored (absorb target reply a w).1 then a.annotate (conversionNote found.code) else a := by
  unfold absorb
  cases Reply.extract reply .conversion with
  | error e => rfl
  | ok found =>
    dsimp only
    cases hp : persistAll target found w with
    | mk result w' =>
      cases result with
      | ok converted => rfl
      | error e =>
        have hstorage := persistAll_error hp
        cases e with
        | persist path cause => rfl
        | _ => exact hstorage.elim

theorem onDisk_watched {ε α : Type} (w : World σ) (op : Disk → Except ε α × Disk) :
    (w.withOutside (([] : List (Prompt × Agent.Answer)), w.outside)).onDisk op =
      ((w.onDisk op).1, (w.onDisk op).2.withOutside ([], (w.onDisk op).2.outside)) := rfl

/-- The twin's client is sent what the client is sent, and answers the same. -/
theorem chat_watched (client : Client σ) (a : Agent) (input : String) (options : CompletionOptions)
    (w : World σ) :
    a.chat (Agent.watched client) input options (w.withOutside ([], w.outside)) =
      ((a.chat client input options w).1, (a.chat client input options w).2.1,
        (a.chat client input options w).2.2.withOutside
          (match client.shape a.backend with
            | .error _ => []
            | .ok shape => [(a.promptFor input shape, (a.chat client input options w).1)],
          (a.chat client input options w).2.2.outside)) := by
  have hwatched : (Agent.watched client).shape a.backend = client.shape a.backend := rfl
  unfold Agent.chat
  rw [hwatched]
  cases client.shape a.backend with
  | error e => rfl
  | ok shape =>
    dsimp only [Agent.watched, World.withOutside]
    generalize client.complete a.backend _ options w = r
    obtain ⟨_ | _, w⟩ := r <;> rfl

/-- An invocation sends what its conversation so far and its own data say, and leaves the
conversation that its data say. -/
theorem invocation_spec (client : Client σ) (target : Target) (instruction : Option String)
    (a : Agent) (w : World σ) :
    (invocation client target instruction a w).2 =
        (invocation client target instruction a w).1.prompts (client.shape a.backend)
          target.referencePath a ∧
      (convert client target instruction a w).2.1 =
        (invocation client target instruction a w).1.next target.referencePath a := by
  unfold invocation
  rw [convert_eq, convert_eq, onDisk_watched]
  generalize w.onDisk (fun d => d.readText target.referencePath) = read
  obtain ⟨_ | text, w⟩ := read
  case error => exact ⟨rfl, rfl⟩
  dsimp only
  rw [chat_watched]
  have hchats := a.chats client (Prompts.convert ⟨target.referencePath, text⟩ instruction) options w
  revert hchats
  generalize a.chat client (Prompts.convert ⟨target.referencePath, text⟩ instruction) options w = r
  obtain ⟨answer, a', w'⟩ := r
  dsimp only
  rintro (hshape | ⟨hshape, -⟩ | ⟨hshape, -⟩)
  case unavailable =>
    rw [hshape]
    exact ⟨rfl, rfl⟩
  case failed =>
    rw [hshape]
    exact ⟨rfl, rfl⟩
  case answered reply =>
    rw [hshape]
    dsimp only
    rw [absorb_withOutside]
    exact ⟨rfl, absorb_agent reply w'⟩

end Spec

end Convert

namespace Toolbox

open Anneal.Convert (Invocation)

def invocation? (t : Toolbox σ) (s : Workshop σ) : Request → Option (Invocation × List Prompt)
  | .direct .converter input =>
    some (Convert.invocation t.converterClient t.target (asked input) s.converter s.world)
  | .direct _ _ => none
  | .routed instruction =>
    match t.choose instruction s with
    | (.error _, _) => none
    | (.ok choice, s) =>
      match choice.tool with
      | .converter => some (Convert.invocation t.converterClient t.target
          (asked (handed instruction choice)) s.converter s.world)
      | _ => none

/-- The invocations of the converter in a run of requests, with the prompts its model received. -/
def invocations (t : Toolbox σ) : List Request → Workshop σ → List (Invocation × List Prompt)
  | [], _ => []
  | q :: qs, s => (t.invocation? s q).toList ++ t.invocations qs (t.perform s q).2

def replay (shape : Except ClientError PromptShape) (path : String) :
    Agent → List Invocation → List (List Prompt)
  | _, [] => []
  | a, i :: is => i.prompts shape path a :: replay shape path (i.next path a) is

section Runs

variable {t : Toolbox σ} {s : Workshop σ} {q : Request}

theorem next_backend (i : Invocation) (path : String) (a : Agent) :
    (i.next path a).backend = a.backend := by
  unfold Invocation.next
  split
  · dsimp only
    split
    · rfl
    · cases i.stored <;> rfl
  · rfl

theorem run_converter (t : Toolbox σ) (input : String) (s : Workshop σ) :
    (t.run .converter input s).2.converter =
      (Convert.convert t.converterClient t.target (asked input) s.converter s.world).2.1 := by
  unfold run
  rw [nonBlank_some]

theorem run_other {tool : Tool} (h : tool ≠ .converter) (t : Toolbox σ) (input : String)
    (s : Workshop σ) : (t.run tool input s).2.converter = s.converter := by
  cases tool with
  | converter => exact absurd rfl h
  | _ => rfl

theorem choose_converter (t : Toolbox σ) (instruction : String) (s : Workshop σ) :
    (t.choose instruction s).2.converter = s.converter := by
  unfold choose
  split <;> rfl

theorem perform_spec (t : Toolbox σ) (s : Workshop σ) (q : Request) :
    match t.invocation? s q with
    | none => (t.perform s q).2.converter = s.converter
    | some i => i.2 = i.1.prompts (t.converterClient.shape s.converter.backend)
          t.target.referencePath s.converter ∧
        (t.perform s q).2.converter = i.1.next t.target.referencePath s.converter := by
  have hspec (input : String) (s : Workshop σ) := Convert.invocation_spec t.converterClient t.target
    (asked input) s.converter s.world
  cases q with
  | direct tool input =>
    cases tool with
    | converter => exact ⟨(hspec input s).1, (run_converter t input s).trans (hspec input s).2⟩
    | modifier => exact run_other (by decide) t input s
    | explainer => exact run_other (by decide) t input s
  | routed instruction =>
    have hchoose := choose_converter t instruction s
    unfold invocation? perform route
    dsimp only
    revert hchoose
    generalize t.choose instruction s = r
    obtain ⟨_ | ⟨tool, action⟩, s'⟩ := r
    · exact id
    · intro hchoose
      have hhanded : (if action.isEmpty = true then instruction else action) =
          handed instruction ⟨tool, action⟩ := by simp only [handed, String.isEmpty_iff]
      dsimp only at hchoose ⊢
      rw [hhanded, ← hchoose]
      cases tool with
      | converter => exact ⟨(hspec _ s').1, (run_converter t _ s').trans (hspec _ s').2⟩
      | modifier => exact run_other (by decide) t _ s'
      | explainer => exact run_other (by decide) t _ s'

theorem invocations_prompts (t : Toolbox σ) (qs : List Request) (s : Workshop σ) :
    (t.invocations qs s).map Prod.snd =
      replay (t.converterClient.shape s.converter.backend) t.target.referencePath s.converter
        ((t.invocations qs s).map Prod.fst) := by
  induction qs generalizing s with
  | nil => rfl
  | cons q qs ih =>
    have hspec := perform_spec t s q
    rw [invocations]
    cases hi : t.invocation? s q with
    | none =>
      rw [hi] at hspec
      rw [Option.toList_none, List.nil_append, ih, hspec]
    | some i =>
      rw [hi] at hspec
      rw [Option.toList_some, List.singleton_append, List.map_cons, List.map_cons, replay, ih,
        hspec.2, next_backend, hspec.1]

/-- A routed instruction goes to one tool or to none, and leaves the other tools alone. The model of
the converter is sent the same wherever the converter's own invocations, the storing of their code
included, are the same. -/
theorem routing_isolates_tools :
    (∀ (t : Toolbox σ) (instruction : String) (s : Workshop σ),
      Routes t instruction s (t.route instruction s) ∧
      ∀ t' : Toolbox σ, t.routerClient = t'.routerClient →
        (∀ choice s', t.choose instruction s = (.ok choice, s') → SameFor t t' choice.tool) →
          t.route instruction s = t'.route instruction s) ∧
    ∀ (t : Toolbox σ) (t' : Toolbox τ) (qs qs' : List Request) (s : Workshop σ) (s' : Workshop τ),
      t.target.referencePath = t'.target.referencePath → s.converter = s'.converter →
      t.converterClient.shape s.converter.backend =
        t'.converterClient.shape s'.converter.backend →
      (t.invocations qs s).map Prod.fst = (t'.invocations qs' s').map Prod.fst →
        (t.invocations qs s).map Prod.snd = (t'.invocations qs' s').map Prod.snd := by
  constructor
  · intro t instruction s
    exact ⟨route_routes t instruction s, fun t' hrouter h => route_sameFor hrouter instruction s h⟩
  · intro t t' qs qs' s s' hpath hagent hshape hinvocations
    rw [invocations_prompts, invocations_prompts, hshape, hpath, hagent, hinvocations]

end Runs

open Scripted in
def routedScript : Script where
  replies
    | .router => ⟨[.ok "[TOOL_CHOICE]\ntool: convert\n[ACTION]\n"], []⟩
    | .converter => ⟨[.ok (conversionReply "fn main() \x7b\x7d" none),
        .ok (conversionReply "fn main() \x7b\x7d" none)], []⟩
    | _ => ⟨[.ok "It prints nothing."], []⟩
  results _ := ⟨[], [], 0, 0, []⟩
  cancelAt := none

def scriptedTools : Toolbox Scripted.Script where
  routerClient := Scripted.client .router .messages
  converterClient := Scripted.client .converter .messages
  explainerClient := Scripted.client .explainer .messages
  repair := ⟨Scripted.client .repair .messages, Scripted.toolchain .rust, Scripted.toolchain .cpp,
    {}, none⟩
  target := ⟨"main.cpp", "out/main.rs", "out/Cargo.toml"⟩
  stdinPath := none

def scriptedShop (other : List (Place × Node)) : Workshop Scripted.Script :=
  let agent := Agent.new "scripted" "You convert programs." 4
  let reference : Place × Node :=
    (["tmp", "work", "main.cpp"], .file (Text.encode "int main() \x7b\x7d\n") false)
  ⟨agent, agent, agent, agent,
    ⟨{ Disk.empty with nodes := Disk.empty.nodes ++ reference :: other }, false, 0, routedScript⟩⟩

def quietTools : Toolbox Scripted.Script :=
  { scriptedTools with explainerClient := Scripted.client .explainer .text }

theorem scripted_isolates_tools :
    (scriptedTools.route "translate it" (scriptedShop [])).1.toOption.isSome = true ∧
    scriptedTools.route "translate it" (scriptedShop []) =
      quietTools.route "translate it" (scriptedShop []) ∧
    let routed := scriptedTools.invocations
      [.routed "translate it", .direct .converter " "] (scriptedShop [])
    let direct := quietTools.invocations
      [.direct .converter "translate it", .direct .explainer "Why?", .direct .converter ""]
      (scriptedShop [])
    (routed.map Prod.snd).length = 2 ∧ routed.map Prod.snd = direct.map Prod.snd := by
  have hchoice : (scriptedTools.choose "translate it" (scriptedShop [])).1 =
      .ok ⟨.converter, ""⟩ := by decide +kernel
  have hisolates := routing_isolates_tools (σ := Scripted.Script) (τ := Scripted.Script)
  refine ⟨by decide +kernel, ?_, by decide +kernel, ?_⟩
  · refine (hisolates.1 scriptedTools "translate it" (scriptedShop [])).2 quietTools rfl ?_
    intro choice s' h
    rw [h] at hchoice
    obtain rfl := Except.ok.inj hchoice
    exact ⟨rfl, rfl⟩
  · exact hisolates.2 scriptedTools quietTools _ _ (scriptedShop []) (scriptedShop []) rfl rfl rfl
      (by decide +kernel)

/-- Where a file stands in the way of the output, the code is not stored and so not noted. -/
theorem prompts_differ_by_storing :
    let requests : List Request := [.direct .converter "", .direct .converter ""]
    let stored := scriptedTools.invocations requests (scriptedShop [])
    let blocked := scriptedTools.invocations requests
      (scriptedShop [(["tmp", "work", "out"], .file [] false)])
    stored.map (fun i => (i.1.instruction, i.1.reference, i.1.answers)) =
        blocked.map (fun i => (i.1.instruction, i.1.reference, i.1.answers)) ∧
      stored.map Prod.snd ≠ blocked.map Prod.snd := by
  decide +kernel

end Toolbox
end Anneal
