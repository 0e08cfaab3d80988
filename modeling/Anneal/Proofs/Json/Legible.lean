import Anneal.Json.FieldPath
import Anneal.Proofs.Json.Compact
import Anneal.Proofs.Json.Doubles

/-! Values with doubles among them. What is written of them in the compact form is read back, it
stands on one line, and a path leads to the same texts in what was read. -/

namespace Anneal.Json

/-- Doubles are read back from their digits, whole numbers are read as such, the keys of an object
are distinct, and `depth` containers at most stand inside one another. -/
inductive Legible : Nat → Json → Prop
  | null (depth : Nat) : Legible depth .null
  | bool (depth : Nat) (b : Bool) : Legible depth (.bool b)
  | int (depth : Nat) {n : Int} (h : InRange n) : Legible depth (.int n)
  | float (depth : Nat) {x : Float} (h : parse? (floatText x) = some (.float x)) :
      Legible depth (.float x)
  | str (depth : Nat) (s : String) : Legible depth (.str s)
  | arr {depth : Nat} {items : List Json} (h : ∀ j ∈ items, Legible depth j) :
      Legible (depth + 1) (.arr items)
  | obj {depth : Nat} {fields : List (String × Json)} (distinct : (Keyed.keys fields).Nodup)
      (h : ∀ e ∈ fields, Legible depth e.2) : Legible (depth + 1) (.obj fields)

variable {depth : Nat} {j : Json}

theorem Legible.reads (h : Legible depth j) : Reads depth (compactChars j) (normal j) := by
  induction h with
  | null depth => exact reads_null depth
  | bool depth b =>
    cases b with
    | true => exact reads_true depth
    | false => exact reads_false depth
  | int depth h => exact reads_int depth h
  | float depth h => exact reads_float depth h
  | str depth s => exact reads_str depth s
  | arr _ ih => exact reads_arr ih
  | obj _ _ ih => exact reads_obj ih

theorem Legible.printable (h : Legible depth j) : Printable (compactChars j) := by
  induction h with
  | null => decide
  | bool depth b => cases b <;> decide
  | @int depth n h => exact printable_int n
  | @float depth x h => exact (visible_floatText x).printable
  | str depth s => exact printable_quoted s
  | arr _ ih => exact printable_arr ih
  | obj _ _ ih => exact printable_obj ih

section Paths

open FieldPath (follow)

theorem member?_normal (h : Legible depth j) (key : String) :
    (normal j).member? key = (j.member? key).map normal := by
  cases h with
  | @obj _ fields distinct _ =>
    cases hfound : Keyed.get? fields key with
    | none =>
      rw [member?_normal_of_not_mem (Keyed.get?_eq_none_iff.1 hfound), member?, hfound]
      rfl
    | some v =>
      rw [member?_normal_of_mem distinct (Keyed.mem_of_get? hfound), member?, hfound]
      rfl
  | _ => rfl

theorem element?_normal (j : Json) (i : Nat) : (normal j).element? i = (j.element? i).map normal := by
  cases j with
  | arr items => rw [normal, normalItems_eq_map, element?, element?, List.getElem?_map]
  | _ => rfl

theorem Legible.follow? {step : FieldPath.Step} {next : Json} (h : Legible depth j)
    (hnext : step.follow? j = some next) : ∃ depth, Legible depth next := by
  cases step with
  | key name =>
    cases h with
    | obj _ hfields => exact ⟨_, hfields _ (Keyed.mem_of_get? hnext)⟩
    | _ => cases hnext
  | index i =>
    cases h with
    | arr hitems => exact ⟨_, hitems _ (List.mem_of_getElem? hnext)⟩
    | _ => cases hnext

theorem follow?_normal (h : Legible depth j) (step : FieldPath.Step) :
    step.follow? (normal j) = (step.follow? j).map normal := by
  cases step with
  | key name => exact member?_normal h name
  | index i => exact element?_normal j i

theorem follow_normal (h : Legible depth j) (raw : String) (done steps : List FieldPath.Step) :
    follow raw done (normal j) steps = (follow raw done j steps).map normal := by
  induction steps generalizing depth done j with
  | nil => rfl
  | cons step steps ih =>
    rw [follow, follow, follow?_normal h]
    cases hnext : step.follow? j with
    | none => rfl
    | some next =>
      obtain ⟨_, hlegible⟩ := h.follow? hnext
      exact ih hlegible _

theorem asStr?_normal (j : Json) : (normal j).asStr? = j.asStr? := by cases j <;> rfl

theorem lookupText_normal (h : Legible depth j) (path : FieldPath) :
    path.lookupText (normal j) = path.lookupText j := by
  rw [FieldPath.lookupText, FieldPath.lookupText, FieldPath.lookup, FieldPath.lookup,
    follow_normal h]
  cases follow path.raw [] j path.steps with
  | error e => rfl
  | ok found =>
    dsimp only [Except.map]
    rw [asStr?_normal]

end Paths

end Anneal.Json
