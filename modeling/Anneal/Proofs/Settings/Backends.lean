import Anneal.CommandLine.Run
import Anneal.Proofs.Backend.Registrations

/-!
# Backends from settings, environment and command line

Settings describe backends, the environment holds their keys, and a command line may pick a backend
and a model. Main statement: a backend is there just if its own key is, whatever becomes of the
others, and the model that is asked for goes to the backend that was picked and to those that have
none of their own.
-/

namespace Anneal

open Keyed (keys)

def Descriptor.Usable (d : Descriptor) (env : String → Option String) : Prop :=
  (∀ h ∈ d.headers, ¬ keyMark.toList <:+: h.2.toList) ∨
    ∃ var key, d.apiKeyEnv = some var ∧ env var = some key

def Descriptor.Same (d d' : Descriptor) : Prop := { d' with model := d.model } = d

namespace Settings

inductive Describes (s : Settings) (name : String) (d : Descriptor) : Prop
  | configured (h : (name, d) ∈ s.backends)
  | preset (hidden : name ∉ keys s.backends) (h : (name, d) ∈ Descriptor.presets)

variable {s : Settings} {env : String → Option String} {name : String} {d d' : Descriptor}

theorem presets_ordered : Keyed.Ordered Descriptor.presets := by
  simp only [Keyed.Ordered, Descriptor.presets]
  decide

theorem preset_model (h : (name, d) ∈ Descriptor.presets) : d.model = none := by
  simp only [Descriptor.presets, List.mem_cons, Prod.mk.injEq, List.not_mem_nil, or_false] at h
  rcases h with h | h | h <;> rw [h.2] <;> rfl

theorem descriptors_ordered (s : Settings) : s.descriptors.Ordered := presets_ordered.merge _

theorem mem_descriptors (hs : (keys s.backends).Nodup) :
    (name, d) ∈ s.descriptors ↔ s.Describes name d := by
  rw [← Keyed.get?_eq_some_iff s.descriptors_ordered.nodup, descriptors, Keyed.get?_merge hs,
    Option.or_eq_some_iff, Keyed.get?_eq_some_iff hs, Keyed.get?_eq_none_iff,
    Keyed.get?_eq_some_iff presets_ordered.nodup]
  constructor
  · intro h
    rcases h with h | ⟨hidden, h⟩
    · exact .configured h
    · exact .preset hidden h
  · intro h
    cases h with
    | configured h => exact .inl h
    | preset hidden h => exact .inr ⟨hidden, h⟩

def registration (env : String → Option String) (e : String × Descriptor) : Registration :=
  ⟨e.1, e.2, e.2.apiKeyEnv.bind env⟩

theorem registry_eq (s : Settings) (env : String → Option String) : s.registry env =
    (Registry.new s.client.retryPolicy s.client.model).after
      (s.descriptors.map (registration env)) :=
  Registry.registerAll_eq_after env s.descriptors

theorem not_lacking_iff : ¬ (registration env (name, d)).Lacking ↔ d.Usable env := by
  have hkey : (registration env (name, d)).key ≠ none ↔
      ∃ var key, d.apiKeyEnv = some var ∧ env var = some key := by
    rw [Option.ne_none_iff_exists']
    simp [registration, Option.bind_eq_some_iff, exists_comm]
  rw [Registration.Lacking, not_and_or, ← ne_eq, hkey, or_comm, Descriptor.Usable]
  simp [registration]

theorem mem_names_registry (hs : (keys s.backends).Nodup) :
    name ∈ (s.registry env).names ↔ ∃ d, s.Describes name d ∧ d.Usable env := by
  rw [registry_eq, (Registry.keeps_after _ _ _).listed]
  constructor
  · intro ⟨c, hc, hname, hkey⟩
    obtain ⟨⟨k, d⟩, he, hreg⟩ := List.mem_map.1 hc
    subst hreg
    subst hname
    exact ⟨d, (mem_descriptors hs).1 he, not_lacking_iff.1 hkey⟩
  · intro ⟨d, hd, hkey⟩
    have hmem := (mem_descriptors hs).2 hd
    exact ⟨registration env (name, d), List.mem_map_of_mem hmem, rfl, not_lacking_iff.2 hkey⟩

/-- Each name is registered once, so the registration is the last one for it. -/
theorem find_registry (hs : (keys s.backends).Nodup) (hd : s.Describes name d)
    (hkey : d.Usable env) :
    (s.registry env).find name = .ok ((registration env (name, d)).registered s.client.model) := by
  obtain ⟨front, back, hsplit⟩ := List.append_of_mem ((mem_descriptors hs).2 hd)
  have hlatest : Registration.Latest (s.descriptors.map (registration env))
      (registration env (name, d)) := by
    refine ⟨front.map (registration env), back.map (registration env), ?_,
      not_lacking_iff.2 hkey, ?_⟩
    · rw [hsplit, List.map_append, List.map_cons]
    · intro c hc hname
      obtain ⟨e, he, hreg⟩ := List.mem_map.1 hc
      subst hreg
      -- A later entry has a larger key.
      have hordered := hsplit ▸ s.descriptors_ordered
      have hlt : name < e.1 :=
        (Keyed.ordered_cons.1 (List.pairwise_append.1 hordered).2.1).1 e he
      exact absurd hname (ne_of_gt hlt)
  rw [registry_eq]
  exact (Registry.keeps_after _ _ _).latest hlatest

section Choices

variable (s) (backend model : Option String)

/-- The backend that requests go to. -/
def selected : String := backend.getD s.client.backend

inductive ModelOf (name : String) (d : Descriptor) : String → Prop
  | asked {m : String} (hmodel : model = some m) (hname : name = s.selected backend) :
      ModelOf name d m
  | own {m : String} (hmodel : d.model = some m)
      (hother : model = none ∨ name ≠ s.selected backend) : ModelOf name d m
  | fallback (hmodel : d.model = none) : ModelOf name d (model.getD s.client.model)

def adjusted (name : String) (d : Descriptor) : Descriptor :=
  match model with
  | none => d
  | some m => if name = s.selected backend then { d with model := some m } else d

theorem choosing_client_backend :
    (s.choosing backend model).client.backend = s.selected backend := by
  cases backend <;> cases model <;> rfl

theorem choosing_client_model :
    (s.choosing backend model).client.model = model.getD s.client.model := by
  cases backend <;> cases model <;> rfl

theorem choosing_backends : (s.choosing backend model).backends =
    s.backends.map fun e => (e.1, s.adjusted backend model e.1 e.2) := by
  cases model with
  | none => cases backend <;> exact (List.map_id _).symm
  | some m =>
    have hbackend : (s.withBackend backend).client.backend = s.selected backend := by
      cases backend <;> rfl
    have hbackends : (s.withBackend backend).backends = s.backends := by cases backend <;> rfl
    simp only [choosing, withModel, hbackend, hbackends]
    apply List.map_congr_left
    intro e _
    by_cases hname : e.1 = s.selected backend
    · simp only [adjusted, if_pos hname]
    · simp only [adjusted, if_neg hname]

theorem keys_choosing : keys (s.choosing backend model).backends = keys s.backends := by
  rw [choosing_backends, keys, List.map_map]
  rfl

variable {s}

theorem same_adjusted (name : String) (d : Descriptor) :
    d.Same (s.adjusted backend model name d) := by
  cases model with
  | none => rfl
  | some m =>
    unfold adjusted
    dsimp only
    split <;> rfl

theorem modelOf_adjusted (name : String) (d : Descriptor) :
    s.ModelOf backend model name d
      ((s.adjusted backend model name d).model.getD (model.getD s.client.model)) := by
  cases model with
  | none =>
    change s.ModelOf backend none name d (d.model.getD s.client.model)
    cases hmodel : d.model with
    | none => exact .fallback hmodel
    | some own => exact .own hmodel (.inl rfl)
  | some m =>
    unfold adjusted
    dsimp only
    by_cases hname : name = s.selected backend
    · rw [if_pos hname]
      exact .asked rfl hname
    · rw [if_neg hname]
      cases hmodel : d.model with
      | none => exact .fallback hmodel
      | some own => exact .own hmodel (.inr hname)

theorem Describes.choosing (h : s.Describes name d) :
    ∃ d', (s.choosing backend model).Describes name d' ∧ d.Same d' ∧
      s.ModelOf backend model name d (d'.model.getD (s.choosing backend model).client.model) := by
  rw [choosing_client_model]
  cases h with
  | configured h =>
    refine ⟨s.adjusted backend model name d, .configured ?_, same_adjusted _ _ _ _,
      modelOf_adjusted _ _ _ _⟩
    rw [choosing_backends]
    exact List.mem_map_of_mem h
  | preset hidden h =>
    -- A preset has no model of its own, so it goes by the one of the client.
    have hmodel := preset_model h
    refine ⟨d, .preset ?_ h, rfl, ?_⟩
    · rwa [keys_choosing]
    · rw [hmodel]
      exact .fallback hmodel

variable {backend model}

theorem ModelOf.unique {m m' : String} (h : s.ModelOf backend model name d m)
    (h' : s.ModelOf backend model name d m') : m = m' := by
  cases h <;> cases h' <;> simp_all

theorem Describes.of_choosing (h : (s.choosing backend model).Describes name d') :
    ∃ d, s.Describes name d ∧ d.Same d' := by
  cases h with
  | configured h =>
    rw [choosing_backends] at h
    obtain ⟨⟨k, d⟩, he, heq⟩ := List.mem_map.1 h
    cases heq
    exact ⟨d, .configured he, same_adjusted _ _ _ _⟩
  | preset hidden h =>
    rw [keys_choosing] at hidden
    exact ⟨d', .preset hidden h, rfl⟩

theorem usable_same (h : d.Same d') : d'.Usable env ↔ d.Usable env := by
  rw [← h]
  rfl

/-- The backends that settings, choices and an environment come to. Whether one is there does not
depend on the others. -/
structure Offers (s : Settings) (backend model : Option String) (env : String → Option String)
    (r : Registry) : Prop where
  sorted : r.names.Pairwise (· < ·)
  names (name : String) : name ∈ r.names ↔ ∃ d, s.Describes name d ∧ d.Usable env
  absent (name : String) (h : name ∉ r.names) : r.find name = .error (.unknownBackend name)
  found (name : String) (d : Descriptor) (hd : s.Describes name d) (hkey : d.Usable env) :
    ∃ b, r.find name = .ok b ∧ s.ModelOf backend model name d b.model ∧ d.Same b.descriptor ∧
      List.Forall₂ (Registration.Filled ((d.apiKeyEnv.bind env).getD "")) d.headers b.headers

theorem offers_registry (hs : (keys s.backends).Nodup) :
    s.Offers backend model env ((s.choosing backend model).registry env) where
  sorted := by
    rw [registry_eq]
    exact (Registry.keeps_after _ _ _).ordered.keys_pairwise
  names name := by
    rw [mem_names_registry (by rwa [keys_choosing])]
    constructor
    · intro ⟨d', hd', hkey⟩
      obtain ⟨d, hd, hsame⟩ := hd'.of_choosing
      exact ⟨d, hd, (usable_same hsame).1 hkey⟩
    · intro ⟨d, hd, hkey⟩
      obtain ⟨d', hd', hsame, -⟩ := hd.choosing backend model
      exact ⟨d', hd', (usable_same hsame).2 hkey⟩
  absent name h := Registry.find_eq_error h
  found name d hd hkey := by
    obtain ⟨d', hd', hsame, hmodel⟩ := hd.choosing backend model
    have hfind := find_registry (by rwa [keys_choosing]) hd' ((usable_same hsame).2 hkey)
    refine ⟨_, hfind, hmodel, hsame, ?_⟩
    have hserves := Registration.serves_registered (s.choosing backend model).client.model
      (registration env (name, d'))
    rw [← hsame]
    exact hserves.headers

theorem start_eq_ok {σ : Type} {surroundings : CommandLine.Surroundings σ}
    {options : CommandLine.Options} {w w' : World σ} {a : CommandLine.Assistant σ}
    (h : CommandLine.Assistant.start surroundings options w = (.ok a, w'))
    (hload : (w.onDisk fun d => load d (options.config.getD defaultPath)).1 = .ok s) :
    a.settings = s.choosing options.backend options.model ∧
      a.client = ((s.choosing options.backend options.model).registry surroundings.env).client
        surroundings.connection := by
  unfold CommandLine.Assistant.start at h
  generalize w.onDisk (fun d => load d (options.config.getD defaultPath)) = r at hload h
  obtain ⟨loaded, after⟩ := r
  subst hload
  dsimp only at h
  split at h
  · cases h
  · cases h
    exact ⟨rfl, rfl⟩

/-- The backends of settings follow the environment and the choices of a command line, and these are
the backends that a command works with. -/
theorem backends_follow_choices (s : Settings) (backend model : Option String)
    (env : String → Option String) (hs : (keys s.backends).Nodup) :
    s.Offers backend model env ((s.choosing backend model).registry env) ∧
    ∀ (σ : Type) (surroundings : CommandLine.Surroundings σ) (config : Option String)
      (w w' : World σ) (a : CommandLine.Assistant σ), surroundings.env = env →
      (w.onDisk fun d => load d (config.getD defaultPath)).1 = .ok s →
      CommandLine.Assistant.start surroundings ⟨config, backend, model⟩ w = (.ok a, w') →
      a.settings.client.backend = s.selected backend ∧
        ∃ r : Registry, a.client = r.client surroundings.connection ∧
          s.Offers backend model env r := by
  constructor
  · exact offers_registry hs
  · intro σ surroundings config w w' a henv hload hstart
    obtain ⟨hsettings, hclient⟩ := start_eq_ok hstart hload
    subst henv
    constructor
    · rw [hsettings, choosing_client_backend]
    · exact ⟨_, hclient, offers_registry hs⟩

end Choices

def mixed : Settings :=
  { backends :=
      [("local", { Descriptor.ollama with model := some "own" }),
       ("openai", { Descriptor.openai with headers := [], model := some "kept" }),
       ("remote", Descriptor.chatCompletions "http://remote" "REMOTE_KEY")] }

def mixedEnv (var : String) : Option String :=
  if var = "DEEPSEEK_API_KEY" then some "" else none

theorem mixed_backends_follow_choices :
    (keys mixed.backends).Nodup ∧
    let r := (mixed.choosing (some "openai") (some "asked")).registry mixedEnv
    (mixed.Offers (some "openai") (some "asked") mixedEnv r) ∧
      (∃ b, r.find "openai" = .ok b ∧ b.model = "asked") ∧
      (∃ b, r.find "local" = .ok b ∧ b.model = "own") ∧
      (∃ b, r.find "deepseek" = .ok b ∧ b.model = "asked") ∧
      r.find "remote" = .error (.unknownBackend "remote") := by
  have hs : (keys mixed.backends).Nodup := by decide
  obtain ⟨hoffers, -⟩ := backends_follow_choices mixed (some "openai") (some "asked") mixedEnv hs
  refine ⟨hs, hoffers, ?_, ?_, ?_, ?_⟩
  · obtain ⟨b, hb, hmodel, -⟩ := hoffers.found "openai" _
      (.configured (List.mem_of_getElem? (i := 1) rfl)) (.inl (List.forall_mem_nil _))
    exact ⟨b, hb, hmodel.unique (.asked rfl rfl)⟩
  · obtain ⟨b, hb, hmodel, -⟩ := hoffers.found "local" _
      (.configured (List.mem_of_getElem? (i := 0) rfl)) (.inl (by decide))
    exact ⟨b, hb, hmodel.unique (.own rfl (.inr (by decide)))⟩
  · obtain ⟨b, hb, hmodel, -⟩ := hoffers.found "deepseek" _
      (.preset (by decide) (List.mem_of_getElem? (i := 0) rfl)) (.inr ⟨_, _, rfl, rfl⟩)
    exact ⟨b, hb, hmodel.unique (.fallback rfl)⟩
  · exact hoffers.absent "remote" (by decide)

end Settings
end Anneal
