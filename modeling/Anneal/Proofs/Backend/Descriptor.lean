import Anneal.Backend.Descriptor
import Anneal.Proofs.Verification

/-! Descriptors are read back from what is written of them, whether or not the fields that are null
are written. -/

namespace Anneal.Descriptor

open Anneal.Json Anneal.Json.Decode

/-- What a further field of a request may hold: there is no null in it, its numbers are finite and
fit into 64 bits with a sign, and each of its objects has its keys in order. -/
inductive Parameter : Json → Prop
  | bool (b : Bool) : Parameter (.bool b)
  | int {n : Int} (low : -(Word.bound 63 : Int) ≤ n) (high : n < Word.bound 63) : Parameter (.int n)
  | float {x : Float} (h : x.isFinite = true) : Parameter (.float x)
  | str (s : String) : Parameter (.str s)
  | arr {items : List Json} (h : ∀ j ∈ items, Parameter j) : Parameter (.arr items)
  | obj {fields : Keyed Json} (ho : fields.Ordered) (h : ∀ e ∈ fields, Parameter e.2) :
      Parameter (.obj fields)

namespace Parameter

variable {j : Json} {items : List Json} {fields : Keyed Json}

theorem normal_eq (h : Parameter j) : normal j = j := by
  induction h with
  | @arr items _ ih =>
    rw [normal, normalItems_eq_map, List.map_congr_left ih, List.map_id']
  | @obj fields ho _ ih =>
    rw [normal_of_ordered ho, List.map_congr_left fun e he => by rw [ih e he], List.map_id']
  | _ => rfl

theorem jsonItems_eq (h : ∀ j ∈ items, json j = .ok j) : jsonItems items = .ok items := by
  induction items with
  | nil => rfl
  | cons j items ih =>
    obtain ⟨hj, hitems⟩ := List.forall_mem_cons.1 h
    rw [jsonItems, hj, ih hitems]
    rfl

theorem jsonFields_eq (h : ∀ e ∈ fields, json e.2 = .ok e.2) : jsonFields fields = .ok fields := by
  induction fields with
  | nil => rfl
  | cons e fields ih =>
    obtain ⟨he, hfields⟩ := List.forall_mem_cons.1 h
    rw [jsonFields, he, ih hfields]
    rfl

theorem json_eq (h : Parameter j) : json j = .ok j := by
  induction h with
  | bool | str => rfl
  | int low high =>
    have hbound : Word.bound 63 ≤ Word.bound 64 := by decide
    rw [json, if_pos ⟨low, by omega⟩]
  | float h => rw [json, if_pos h]
  | arr _ ih =>
    rw [json, jsonItems_eq ih]
    rfl
  | obj _ _ ih =>
    rw [json, jsonFields_eq ih]
    rfl

end Parameter

/-- A descriptor as a program holds it: its tables have their keys in order, and its path was read
from a text. -/
structure Fits (d : Descriptor) : Prop where
  headers : d.headers.Ordered
  responseField : FieldPath.parse d.responseField.raw = .ok d.responseField
  params : d.params.Ordered
  parameter : ∀ e ∈ d.params, Parameter e.2

variable {d : Descriptor} {es : List (String × Json)}

def fields (d : Descriptor) : List (String × Json) :=
  [("base_url", .str d.baseUrl), ("endpoint", .str d.endpoint),
    ("headers", .obj (d.headers.map fun h => (h.1, .str h.2))),
    ("prompt_field", .str d.promptField), ("response_field", .str d.responseField.raw),
    ("shape", .str d.shape.tag), ("framing", .str d.framing.tag), ("params", .obj d.params),
    ("api_key_env", ofOptionText d.apiKeyEnv), ("model", ofOptionText d.model)]

theorem toJson_eq (d : Descriptor) : d.toJson = .obj d.fields := by
  obtain ⟨_, _, _, _, _, _, _, _, apiKeyEnv, model⟩ := d
  cases apiKeyEnv <;> cases model <;> rfl

theorem nodup_fields (d : Descriptor) : (Keyed.keys d.fields).Nodup := by
  simp [Keyed.keys, fields]

structure Written (d : Descriptor) (es : List (String × Json)) : Prop where
  nodup : (Keyed.keys es).Nodup
  sound : ∀ e ∈ es, e ∈ d.fields
  kept : ∀ e ∈ d.fields, e.2 = .null ∨ e ∈ es

theorem written_fields (d : Descriptor) : Written d d.fields where
  nodup := d.nodup_fields
  sound _ he := he
  kept _ he := .inr he

theorem ofJson_shape (s : PromptShape) : PromptShape.ofJson (.str s.tag) = .ok s := by
  cases s <;> rfl

theorem ofJson_framing (f : Framing) : Framing.ofJson (.str f.tag) = .ok f := by
  cases f <;> rfl

namespace Written

variable {α : Type} {key : String} {j : Json} {item : Decoder α} {v : α} {o : Option String}

theorem found (h : Written d es) (he : (key, j) ∈ d.fields) (hj : j ≠ .null)
    (hi : item (normal j) = .ok v) : Found (Keyed.ofList (normalFields es)) key item v :=
  found_normal h.nodup ((h.kept _ he).resolve_left hj) hi

theorem gives (h : Written d es) (he : (key, ofOptionText o) ∈ d.fields) :
    Gives (Keyed.ofList (normalFields es)) key (optional string) o := by
  intro j' hj'
  obtain ⟨j, hj, rfl⟩ := of_mem_normal hj'
  obtain rfl := Keyed.value_unique d.nodup_fields (h.sound _ hj) he
  exact takes_ofOptionText o _ (extends_ofOptionText o)

theorem absent (h : Written d es) (he : (key, ofOptionText o) ∈ d.fields)
    (ha : key ∉ Keyed.keys (Keyed.ofList (normalFields es))) : none = o := by
  rcases h.kept _ he with hnull | hmem
  · cases o with
    | none => rfl
    | some s => cases hnull
  · exact absurd (mem_keys_normal.2 (List.mem_map_of_mem (f := Prod.fst) hmem)) ha

end Written

theorem Fits.table_params (h : d.Fits) : table json (normal (.obj d.params)) = .ok d.params := by
  have hread (e : String × Json) (he : e ∈ d.params) : json (normal (id e.2)) = .ok e.2 := by
    rw [id, (h.parameter e he).normal_eq, (h.parameter e he).json_eq]
  simpa using table_normal h.params hread

theorem Fits.ofJson_normal (h : d.Fits) (hw : Written d es) :
    Descriptor.ofJson (normal (.obj es)) = .ok d := by
  have hpath : pathOfJson (normal (.str d.responseField.raw)) = .ok d.responseField := by
    rw [normal, pathOfJson, h.responseField]
  have hheaders : table string (normal (.obj (d.headers.map fun h => (h.1, .str h.2)))) =
      .ok d.headers := table_normal h.headers fun _ _ => rfl
  have baseUrl : Found _ "base_url" string d.baseUrl :=
    hw.found (List.mem_of_getElem? (i := 0) rfl) (by simp) rfl
  have endpoint : Found _ "endpoint" string d.endpoint :=
    hw.found (List.mem_of_getElem? (i := 1) rfl) (by simp) rfl
  have headers : Found _ "headers" (table string) d.headers :=
    hw.found (List.mem_of_getElem? (i := 2) rfl) (by simp) hheaders
  have promptField : Found _ "prompt_field" string d.promptField :=
    hw.found (List.mem_of_getElem? (i := 3) rfl) (by simp) rfl
  have responseField : Found _ "response_field" pathOfJson d.responseField :=
    hw.found (List.mem_of_getElem? (i := 4) rfl) (by simp) hpath
  have shape : Found _ "shape" PromptShape.ofJson d.shape :=
    hw.found (List.mem_of_getElem? (i := 5) rfl) (by simp) (ofJson_shape d.shape)
  have framing : Found _ "framing" Framing.ofJson d.framing :=
    hw.found (List.mem_of_getElem? (i := 6) rfl) (by simp) (ofJson_framing d.framing)
  have params : Found _ "params" (table json) d.params :=
    hw.found (List.mem_of_getElem? (i := 7) rfl) (by simp) h.table_params
  have hkey : ("api_key_env", ofOptionText d.apiKeyEnv) ∈ d.fields := by simp [fields]
  have hmodel : ("model", ofOptionText d.model) ∈ d.fields := by simp [fields]
  rw [normal]
  apply record_obj
  · simp only [known, List.forall_mem_cons]
    exact ⟨baseUrl.check, endpoint.check, headers.check, promptField.check, responseField.check,
      shape.check, framing.check, params.check, (hw.gives hkey).check, (hw.gives hmodel).check,
      List.forall_mem_nil _⟩
  · rw [baseUrl.required, endpoint.required, headers.withDefault, promptField.required,
      responseField.required, shape.required, framing.withDefault, params.withDefault,
      (hw.gives hkey).withDefault (hw.absent hkey),
      (hw.gives hmodel).withDefault (hw.absent hmodel)]
    rfl

end Anneal.Descriptor
