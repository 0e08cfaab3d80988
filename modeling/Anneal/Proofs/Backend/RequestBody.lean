import Anneal.Backend.Exchange
import Anneal.Proofs.Keyed
import Mathlib.Data.List.Forall2

/-!
# What a request holds

The layers of a request body may have keys in common, in any combination. Main statement: under each
key stands the value of the last layer that has the key, no key is added or lost, and a prompt whose
name is its own arrives as it is.
-/

namespace Anneal.Backend

open Keyed (keys get? merge)

def SendsMessage (m : Message) (sent : Json) : Prop :=
  sent = .obj [("role", .str m.role.tag), ("content", .str m.content)]

inductive Sends : Prompt → Json → Prop
  | text (s : String) : Sends (.text s) (.str s)
  | messages {ms : List Message} {items : List Json} (h : List.Forall₂ SendsMessage ms items) :
      Sends (.messages ms) (.arr items)

variable {prompt other : Prompt} {sent sent' : Json}

theorem role_tag_injective {a b : Role} (h : a.tag = b.tag) : a = b := by
  cases a <;> cases b <;> first | rfl | exact absurd h (by decide)

theorem sendsMessage_biUnique : Relator.BiUnique SendsMessage := by
  constructor
  · intro m n sent hm hn
    obtain ⟨role, content⟩ := m
    obtain ⟨role', content'⟩ := n
    have h := hm.symm.trans hn
    simp at h
    rw [role_tag_injective h.1, h.2]
  · intro m sent sent' h h'
    exact h.trans h'.symm

theorem sends_toJson (prompt : Prompt) : Sends prompt prompt.toJson := by
  cases prompt with
  | text s => exact .text s
  | messages ms =>
    apply Sends.messages
    exact List.forall₂_map_right_iff.2 (List.forall₂_same.2 fun _ _ => rfl)

theorem Sends.prompt_unique (h : Sends prompt sent) (h' : Sends other sent) :
    prompt = other := by
  cases h with
  | text s =>
    cases h'
    rfl
  | messages h =>
    cases h' with
    | messages h' => rw [sendsMessage_biUnique.forall₂.1 h h']

theorem Sends.sent_unique (h : Sends prompt sent) (h' : Sends prompt sent') :
    sent = sent' := by
  cases h with
  | text s =>
    cases h'
    rfl
  | messages h =>
    cases h' with
    | messages h' => rw [sendsMessage_biUnique.forall₂.2 h h']

def settingKeys : List String := ["model", "max_tokens", "temperature"]

inductive Generated (field model : String) (prompt : Prompt) (options : CompletionOptions) :
    String → Json → Prop
  | model : Generated field model prompt options "model" (.str model)
  | maxTokens : Generated field model prompt options "max_tokens" (.int options.maxOutputTokens)
  | temperature : Generated field model prompt options "temperature" (.float options.temperature)
  | prompt {sent : Json} (hfield : field ∉ settingKeys) (hsent : Sends prompt sent) :
      Generated field model prompt options field sent

/-- The value that counts under a key: that of the call, else that of the descriptor, else the
generated one. -/
inductive Supplied (d : Descriptor) (model : String) (prompt : Prompt)
    (options : CompletionOptions) (key : String) (value : Json) : Prop
  | call (h : (key, value) ∈ options.extra)
  | descriptor (hcall : key ∉ keys options.extra) (h : (key, value) ∈ d.params)
  | generated (hcall : key ∉ keys options.extra) (hdescriptor : key ∉ keys d.params)
      (h : Generated d.promptField model prompt options key value)

variable {field model key name : String} {value : Json} {options : CompletionOptions}
  {d : Descriptor}

theorem get?_promptLayer : get? (promptLayer field model prompt options) key =
    if key = "temperature" then some (.float options.temperature)
    else if key = "max_tokens" then some (.int options.maxOutputTokens)
    else if key = "model" then some (.str model)
    else if key = field then some prompt.toJson else none := by
  simp only [promptLayer, Keyed.ofList, merge, List.foldl_cons, List.foldl_nil, Keyed.get?_put,
    Keyed.get?_nil]

theorem get?_promptLayer_eq_some_iff :
    get? (promptLayer field model prompt options) key = some value ↔
      Generated field model prompt options key value := by
  rw [get?_promptLayer]
  constructor
  · intro h
    split_ifs at h with htemperature htokens hmodel hfield
    · cases h
      exact htemperature ▸ .temperature
    · cases h
      exact htokens ▸ .maxTokens
    · cases h
      exact hmodel ▸ .model
    · cases h
      subst hfield
      exact .prompt (by simp [settingKeys, htemperature, htokens, hmodel]) (sends_toJson prompt)
  · intro h
    cases h with
    | model => simp
    | maxTokens => simp
    | temperature => simp
    | prompt hfield hsent =>
      simp [settingKeys] at hfield
      simp [hfield, hsent.sent_unique (sends_toJson prompt)]

theorem mem_keys_promptLayer :
    key ∈ keys (promptLayer field model prompt options) ↔ key = field ∨ key ∈ settingKeys := by
  rw [promptLayer, Keyed.mem_keys_ofList]
  simp [keys, settingKeys]

/-- The fields of a request, in the order of their keys. -/
structure Layered (d : Descriptor) (model : String) (prompt : Prompt) (options : CompletionOptions)
    (fields : Keyed Json) : Prop where
  ordered : fields.Ordered
  keys (key : String) : key ∈ keys fields ↔
    key = d.promptField ∨ key ∈ settingKeys ∨ key ∈ keys d.params ∨ key ∈ keys options.extra
  value (key : String) (value : Json) :
    get? fields key = some value ↔ Supplied d model prompt options key value
  prompt (hsetting : d.promptField ∉ settingKeys) (hparams : d.promptField ∉ Keyed.keys d.params)
    (hextra : d.promptField ∉ Keyed.keys options.extra) :
    ∃ sent, get? fields d.promptField = some sent ∧
      ∀ other, Sends other sent ↔ other = prompt

def fields (d : Descriptor) (model : String) (prompt : Prompt) (options : CompletionOptions) :
    Keyed Json :=
  merge (merge (promptLayer d.promptField model prompt options) d.params) options.extra

theorem requestBody_eq (hs : prompt.shape = d.shape) :
    requestBody name d model prompt options = .ok (.obj (fields d model prompt options)) :=
  if_neg (not_not.2 hs)

theorem get?_fields (hp : (keys d.params).Nodup) (hx : (keys options.extra).Nodup) :
    get? (fields d model prompt options) key = some value ↔
      Supplied d model prompt options key value := by
  rw [fields, Keyed.get?_merge hx, Keyed.get?_merge hp, Option.or_eq_some_iff,
    Option.or_eq_some_iff, Keyed.get?_eq_some_iff hx, Keyed.get?_eq_some_iff hp,
    Keyed.get?_eq_none_iff, Keyed.get?_eq_none_iff, get?_promptLayer_eq_some_iff]
  constructor
  · intro h
    rcases h with h | ⟨hcall, h | ⟨hdescriptor, h⟩⟩
    · exact .call h
    · exact .descriptor hcall h
    · exact .generated hcall hdescriptor h
  · intro h
    cases h with
    | call h => exact .inl h
    | descriptor hcall h => exact .inr ⟨hcall, .inl h⟩
    | generated hcall hdescriptor h => exact .inr ⟨hcall, .inr ⟨hdescriptor, h⟩⟩

theorem layered_fields (hp : (keys d.params).Nodup) (hx : (keys options.extra).Nodup) :
    Layered d model prompt options (fields d model prompt options) where
  ordered := by
    apply Keyed.Ordered.merge
    apply Keyed.Ordered.merge
    exact Keyed.Ordered.merge .nil _
  keys key := by
    rw [fields, Keyed.mem_keys_merge, Keyed.mem_keys_merge, mem_keys_promptLayer, or_assoc,
      or_assoc]
  value key value := get?_fields hp hx
  prompt hsetting hparams hextra := by
    have hsends := sends_toJson prompt
    refine ⟨prompt.toJson, (get?_fields hp hx).2 ?_, fun other => ?_⟩
    · exact .generated hextra hparams (.prompt hsetting hsends)
    · constructor
      · intro h
        exact h.prompt_unique hsends
      · intro h
        exact h ▸ hsends

theorem Layered.fields_unique {es es' : Keyed Json} (h : Layered d model prompt options es)
    (h' : Layered d model prompt options es') : es = es' := by
  apply h.ordered.ext h'.ordered
  intro key
  apply Option.ext
  intro value
  rw [h.value, h'.value]

/-- A body is refused just if the prompt has the wrong shape. Otherwise it is one object, which the
precedence of the layers determines. -/
theorem request_body_is_layered (name : String) (d : Descriptor) (model : String) (prompt : Prompt)
    (options : CompletionOptions) (hp : (keys d.params).Nodup) (hx : (keys options.extra).Nodup) :
    (∀ e, requestBody name d model prompt options = .error e ↔
      prompt.shape ≠ d.shape ∧ e = .configuration name
        s!"expects a {d.shape.tag} prompt, got {prompt.shape.tag}") ∧
    (∀ body, requestBody name d model prompt options = .ok body ↔
      prompt.shape = d.shape ∧ ∃ fields, body = .obj fields ∧
        Layered d model prompt options fields) := by
  have hlayered : Layered d model prompt options (fields d model prompt options) :=
    layered_fields hp hx
  by_cases hs : prompt.shape = d.shape
  · rw [requestBody_eq hs]
    constructor
    · intro e
      simp [hs]
    · intro body
      constructor
      · intro h
        cases h
        exact ⟨hs, _, rfl, hlayered⟩
      · intro ⟨_, es, hbody, hes⟩
        rw [hbody, hes.fields_unique hlayered]
  · have herror : requestBody name d model prompt options = .error (.configuration name
        s!"expects a {d.shape.tag} prompt, got {prompt.shape.tag}") := if_pos hs
    rw [herror]
    constructor
    · intro e
      rw [Except.error.injEq, and_iff_right hs]
      exact eq_comm
    · intro body
      simp [hs]

def crowded : Descriptor :=
  { Descriptor.ollama with
    promptField := "model", params := [("stream", .bool false), ("temperature", .int 0)] }

def crowdedOptions : CompletionOptions :=
  { extra := [("max_tokens", .int 5), ("stream", .bool true)] }

theorem crowded_body_is_layered :
    (keys crowded.params).Nodup ∧ (keys crowdedOptions.extra).Nodup ∧
    ∃ fields, requestBody "b" crowded "llama" (.text "hi") crowdedOptions = .ok (.obj fields) ∧
      Layered crowded "llama" (.text "hi") crowdedOptions fields ∧
      get? fields "model" = some (.str "llama") ∧ get? fields "max_tokens" = some (.int 5) ∧
      get? fields "stream" = some (.bool true) ∧ get? fields "temperature" = some (.int 0) ∧
      get? fields "prompt" = none := by
  have hp : (keys crowded.params).Nodup := by decide
  have hx : (keys crowdedOptions.extra).Nodup := by decide
  refine ⟨hp, hx, ?_⟩
  obtain ⟨-, hok⟩ := request_body_is_layered "b" crowded "llama" (.text "hi") crowdedOptions hp hx
  obtain ⟨-, fields, hfields, hlayered⟩ := (hok _).1 (requestBody_eq rfl)
  refine ⟨fields, hfields ▸ requestBody_eq rfl, hlayered, ?_, ?_, ?_, ?_, ?_⟩
  · exact (hlayered.value _ _).2 (.generated (by decide) (by decide) .model)
  · exact (hlayered.value _ _).2 (.call (by simp [crowdedOptions]))
  · exact (hlayered.value _ _).2 (.call (by simp [crowdedOptions]))
  · exact (hlayered.value _ _).2 (.descriptor (by decide) (by simp [crowded]))
  · exact Keyed.get?_eq_none_iff.2 (mt (hlayered.keys _).1 (by decide))

end Anneal.Backend
