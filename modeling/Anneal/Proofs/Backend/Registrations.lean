import Anneal.Proofs.Backend.Sending
import Anneal.Proofs.Text.Search

/-!
# Registering backends one after another

Registrations may repeat a name, and one that lacks its key fails. Main statement: after any of
them, a registry has under each name what the last successful registration put there.
-/

namespace Anneal

/-- What is asked of a registry when a backend is registered. -/
structure Registration where
  name : String
  descriptor : Descriptor
  key : Option String

namespace Registration

def Lacking (c : Registration) : Prop :=
  c.key = none ∧ ∃ h ∈ c.descriptor.headers, Descriptor.keyMark.toList <:+: h.2.toList

def Latest (calls : List Registration) (c : Registration) : Prop :=
  ∃ before after, calls = before ++ c :: after ∧ ¬ c.Lacking ∧
    ∀ d ∈ after, d.name = c.name → d.Lacking

def Known (calls : List Registration) (name : String) : Prop :=
  ∃ c ∈ calls, c.name = name ∧ ¬ c.Lacking

def registered (c : Registration) (fallback : String) : Registered :=
  ⟨c.descriptor, c.descriptor.model.getD fallback, c.descriptor.filledHeaders c.key⟩

def Filled (key : String) (template header : String × String) : Prop :=
  header.1 = template.1 ∧ ∃ pieces, Text.Replaced Descriptor.keyMark.toList key.toList
    template.2.toList header.2.toList pieces

structure Serves (fallback : String) (c : Registration) (b : Registered) : Prop where
  descriptor : b.descriptor = c.descriptor
  model : b.model = c.descriptor.model.getD fallback
  headers : List.Forall₂ (Filled (c.key.getD "")) c.descriptor.headers b.headers

variable {calls : List Registration} {c d : Registration} {name fallback : String}

theorem filled_replace (key : String) (template : String × String) :
    Filled key template (template.1, Text.replace Descriptor.keyMark key template.2) := by
  refine ⟨rfl, ?_⟩
  rw [Text.replace, String.toList_ofList]
  exact Text.replaceChars_replaced (by decide) _ _

theorem serves_registered (fallback : String) (c : Registration) :
    c.Serves fallback (c.registered fallback) where
  descriptor := rfl
  model := rfl
  headers := List.forall₂_map_right_iff.2 (List.forall₂_same.2 fun h _ => filled_replace _ h)

theorem needsKey_iff {d : Descriptor} :
    d.needsKey = true ↔ ∃ h ∈ d.headers, Descriptor.keyMark.toList <:+: h.2.toList := by
  simp only [Descriptor.needsKey, List.any_eq_true, Text.contains, Text.containsChars,
    Option.isSome_iff_ne_none, ne_eq, Text.breakOn_eq_none_iff, not_not]

theorem lacking_iff : c.Lacking ↔ (c.descriptor.needsKey && c.key.isNone) = true := by
  rw [Bool.and_eq_true, needsKey_iff, Option.isNone_iff_eq_none, and_comm, Lacking]

theorem Latest.last (h : ¬ c.Lacking) : Latest (calls ++ [c]) c :=
  ⟨calls, [], rfl, h, by simp⟩

theorem latest_append : Latest (calls ++ [d]) c ↔
    c = d ∧ ¬ d.Lacking ∨ Latest calls c ∧ (d.name = c.name → d.Lacking) := by
  constructor
  · rintro ⟨before, after, heq, hc, hafter⟩
    rcases List.eq_nil_or_concat after with rfl | ⟨after, e, rfl⟩
    · obtain ⟨-, rfl⟩ := List.append_singleton_inj.1 heq
      exact .inl ⟨rfl, hc⟩
    · rw [List.concat_eq_append, ← List.cons_append, ← List.append_assoc] at heq
      obtain ⟨rfl, rfl⟩ := List.append_singleton_inj.1 heq
      refine .inr ⟨⟨before, after, rfl, hc, fun e he => hafter e ?_⟩, hafter d ?_⟩ <;> simp_all
  · rintro (⟨rfl, hd⟩ | ⟨⟨before, after, rfl, hc, hafter⟩, hd⟩)
    · exact .last hd
    · refine ⟨before, after ++ [d], by simp, hc, fun e he => ?_⟩
      rcases List.mem_append.1 he with he | he
      · exact hafter e he
      · exact List.mem_singleton.1 he ▸ hd

theorem known_append :
    Known (calls ++ [c]) name ↔ Known calls name ∨ c.name = name ∧ ¬ c.Lacking := by
  simp [Known, or_and_right, exists_or]

theorem known_iff_latest : Known calls name ↔ ∃ c, c.name = name ∧ Latest calls c := by
  constructor
  · intro h
    induction calls using List.reverseRecOn with
    | nil => simp [Known] at h
    | append_singleton calls d ih =>
      by_cases hd : d.name = name ∧ ¬ d.Lacking
      · exact ⟨d, hd.1, .last hd.2⟩
      · obtain ⟨c, rfl, hc⟩ := ih ((known_append.1 h).resolve_right hd)
        exact ⟨c, rfl, latest_append.2 (.inr ⟨hc, fun hn => not_not.1 fun hl => hd ⟨hn, hl⟩⟩)⟩
  · rintro ⟨c, rfl, before, after, rfl, hc, -⟩
    exact ⟨c, by simp, rfl, hc⟩

end Registration

namespace Registry

open Registration

variable {r : Registry} {c : Registration} {calls : List Registration} {name : String}

def take (r : Registry) (c : Registration) : Registry :=
  match r.register c.name c.descriptor c.key with
  | .ok r => r
  | .error _ => r

def after (r : Registry) (calls : List Registration) : Registry := calls.foldl take r

theorem registerAll_eq_after (env : String → Option String) (descriptors : Keyed Descriptor) :
    r.registerAll env descriptors =
      r.after (descriptors.map fun e => ⟨e.1, e.2, e.2.apiKeyEnv.bind env⟩) := by
  rw [after, List.foldl_map]
  rfl

theorem register_lacking (h : c.Lacking) : r.register c.name c.descriptor c.key =
    .error (.configuration c.name (missingKeyReason c.descriptor)) :=
  if_pos (lacking_iff.1 h)

theorem register_of_not_lacking (h : ¬ c.Lacking) : r.register c.name c.descriptor c.key =
    .ok { r with backends := r.backends.put c.name (c.registered r.defaultModel) } :=
  if_neg (mt lacking_iff.2 h)

theorem take_lacking (h : c.Lacking) : r.take c = r := by
  rw [take, register_lacking h]

theorem take_of_not_lacking (h : ¬ c.Lacking) : r.take c =
    { r with backends := r.backends.put c.name (c.registered r.defaultModel) } := by
  rw [take, register_of_not_lacking h]

theorem defaultModel_take : (r.take c).defaultModel = r.defaultModel := by
  by_cases h : c.Lacking
  · rw [take_lacking h]
  · rw [take_of_not_lacking h]

theorem retry_take : (r.take c).retry = r.retry := by
  by_cases h : c.Lacking
  · rw [take_lacking h]
  · rw [take_of_not_lacking h]

theorem find_take_self (h : ¬ c.Lacking) :
    (r.take c).find c.name = .ok (c.registered r.defaultModel) := by
  rw [take_of_not_lacking h, find, Keyed.get?_put, if_pos rfl]

theorem find_take_of_ne (h : c.name ≠ name) : (r.take c).find name = r.find name := by
  by_cases hc : c.Lacking
  · rw [take_lacking hc]
  · rw [take_of_not_lacking hc, find, Keyed.get?_put, if_neg h.symm, find]

theorem mem_names_take :
    name ∈ (r.take c).names ↔ name ∈ r.names ∨ c.name = name ∧ ¬ c.Lacking := by
  by_cases hc : c.Lacking
  · simp [take_lacking hc, hc]
  · rw [take_of_not_lacking hc, names, Keyed.mem_keys_put, or_comm, and_iff_left hc, eq_comm]
    rfl

theorem ordered_take (h : r.backends.Ordered) : (r.take c).backends.Ordered := by
  by_cases hc : c.Lacking
  · rwa [take_lacking hc]
  · rw [take_of_not_lacking hc]
    exact h.put _ _

theorem after_append (r : Registry) (calls : List Registration) (c : Registration) :
    r.after (calls ++ [c]) = (r.after calls).take c :=
  List.foldl_append

variable {retry : RetryPolicy} {fallback : String}

structure Keeps (retry : RetryPolicy) (fallback : String) (calls : List Registration)
    (r : Registry) : Prop where
  retry : r.retry = retry
  defaultModel : r.defaultModel = fallback
  ordered : r.backends.Ordered
  listed (name : String) : name ∈ r.names ↔ Known calls name
  latest {c : Registration} (h : Latest calls c) : r.find c.name = .ok (c.registered fallback)

theorem keeps_new (retry : RetryPolicy) (fallback : String) :
    Keeps retry fallback [] (new retry fallback) where
  retry := rfl
  defaultModel := rfl
  ordered := .nil
  listed name := by simp [Known, new, names, Keyed.keys]
  latest h := by
    obtain ⟨before, after, heq, -⟩ := h
    exact absurd heq (by simp)

theorem Keeps.take (h : Keeps retry fallback calls r) (c : Registration) :
    Keeps retry fallback (calls ++ [c]) (r.take c) where
  retry := retry_take.trans h.retry
  defaultModel := defaultModel_take.trans h.defaultModel
  ordered := ordered_take h.ordered
  listed name := by rw [mem_names_take, h.listed, known_append]
  latest {d} hlatest := by
    -- The new call is the last for its name unless it fails.
    obtain ⟨rfl, hc⟩ | ⟨hlatest, hc⟩ := latest_append.1 hlatest
    · rw [find_take_self hc, h.defaultModel]
    · by_cases hname : c.name = d.name
      · rw [take_lacking (hc hname), h.latest hlatest]
      · rw [find_take_of_ne hname, h.latest hlatest]

theorem keeps_after (retry : RetryPolicy) (fallback : String) (calls : List Registration) :
    Keeps retry fallback calls ((new retry fallback).after calls) := by
  induction calls using List.reverseRecOn with
  | nil => exact keeps_new retry fallback
  | append_singleton calls c ih =>
    rw [after_append]
    exact ih.take c

variable {σ : Type} {connection : Http.Connection σ} {prompt : Prompt}
  {options : CompletionOptions} {w : World σ}

theorem outcome_ne_unknown {d : Descriptor} {answer : Http.Answer} {other : String} :
    Http.outcome name d answer ≠ .error (.unknownBackend other) := by
  have h := Http.outcome_means name d answer
  intro he
  generalize Http.outcome name d answer = result at h he
  cases h with
  | unreached => cases he
  | refused => cases he
  | answered => cases Http.responseText_unusable he

theorem complete_ne_unknown (h : name ∈ r.names) :
    (r.complete connection name prompt options w).1 ≠ .error (.unknownBackend name) := by
  obtain ⟨b, hb⟩ := find_eq_ok h
  by_cases hs : prompt.shape = b.descriptor.shape
  · have hbody : Backend.requestBody name b.descriptor b.model prompt options = .ok _ :=
      if_neg (not_not.2 hs)
    obtain ⟨k, -, hk⟩ := complete_sends connection w hb hbody rfl
    rw [hk]
    exact outcome_ne_unknown
  · rw [complete_misfit hb hs]
    nofun

def single (name : String) (b : Registered) (retry : RetryPolicy) (fallback : String) : Registry :=
  ⟨[(name, b)], retry, fallback⟩

theorem complete_eq_single {b : Registered} (hb : r.find name = .ok b) :
    r.complete connection name prompt options w =
      (single name b r.retry r.defaultModel).complete connection name prompt options w := by
  have hsingle : (single name b r.retry r.defaultModel).find name = .ok b := by
    rw [find, single, Keyed.get?_cons, if_pos rfl]
  rw [complete, complete, hb, hsingle]
  rfl

/-- A registry in which each name stands for the last successful call for it. -/
structure Follows (retry : RetryPolicy) (fallback : String) (calls : List Registration)
    (r : Registry) : Prop where
  fails (c : Registration) (h : c.Lacking) : r.take c = r ∧
    r.register c.name c.descriptor c.key =
      .error (.configuration c.name (missingKeyReason c.descriptor))
  succeeds (c : Registration) (h : ¬ c.Lacking) :
    ∃ r', r.register c.name c.descriptor c.key = .ok r'
  sorted : r.names.Pairwise (· < ·)
  listed (name : String) : name ∈ r.names ↔ Known calls name
  settled (name : String) : Known calls name ↔ ∃ c, c.name = name ∧ Latest calls c
  shaped (name : String) : (∃ s, r.shape name = .ok s) ↔ Known calls name
  callable (σ : Type) (connection : Http.Connection σ) (name : String) (prompt : Prompt)
    (options : CompletionOptions) (w : World σ) :
    (r.complete connection name prompt options w).1 ≠ .error (.unknownBackend name) ↔
      Known calls name
  latest (c : Registration) (h : Latest calls c) : ∃ b, c.Serves fallback b ∧
    r.find c.name = .ok b ∧ r.shape c.name = .ok c.descriptor.shape ∧
    ∀ (σ : Type) (connection : Http.Connection σ) (prompt : Prompt) (options : CompletionOptions)
      (w : World σ), r.complete connection c.name prompt options w =
        (single c.name b retry fallback).complete connection c.name prompt options w

theorem Keeps.shaped (h : Keeps retry fallback calls r) (name : String) :
    (∃ s, r.shape name = .ok s) ↔ Known calls name := by
  rw [← h.listed]
  constructor
  · rintro ⟨s, hs⟩
    by_contra hn
    rw [shape, find_eq_error hn] at hs
    cases hs
  · intro hn
    obtain ⟨b, hb⟩ := find_eq_ok hn
    exact ⟨b.descriptor.shape, by rw [shape, hb]; rfl⟩

theorem Keeps.callable (h : Keeps retry fallback calls r) (name : String) :
    (r.complete connection name prompt options w).1 ≠ .error (.unknownBackend name) ↔
      Known calls name := by
  rw [← h.listed]
  refine ⟨fun hw => ?_, complete_ne_unknown⟩
  by_contra hn
  exact hw (by rw [complete_unknown hn])

theorem last_registration_serves (retry : RetryPolicy) (fallback : String)
    (calls : List Registration) :
    Follows retry fallback calls ((new retry fallback).after calls) :=
  have h := keeps_after retry fallback calls
  { fails := fun c hc => ⟨take_lacking hc, register_lacking hc⟩
    succeeds := fun c hc => ⟨_, register_of_not_lacking hc⟩
    sorted := h.ordered.keys_pairwise
    listed := h.listed
    settled := fun name => known_iff_latest
    shaped := h.shaped
    callable := fun σ connection name prompt options w => h.callable name
    latest := fun c hc => by
      have hfind := h.latest hc
      refine ⟨c.registered fallback, serves_registered fallback c, hfind, ?_, ?_⟩
      · rw [shape, hfind]
        rfl
      · intro σ connection prompt options w
        rw [complete_eq_single hfind, h.retry, h.defaultModel] }

end Registry
end Anneal
