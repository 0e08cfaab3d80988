import Anneal.Json.Decode
import Anneal.Proofs.Json.Compact
import Mathlib.Data.List.Forall2

/-! A value goes on to mean the same when further fields are put beside those of its objects and
when fields change places. Decoders of records see to that, field by field. -/

namespace Anneal.Json

/-- The second value has what the first has. Its objects may have further fields, and their fields
stand in any order. -/
inductive Extends : Json → Json → Prop
  | null : Extends .null .null
  | bool (b : Bool) : Extends (.bool b) (.bool b)
  | int (n : Int) : Extends (.int n) (.int n)
  | float (x : Float) : Extends (.float x) (.float x)
  | str (s : String) : Extends (.str s) (.str s)
  | arr {items items' : List Json} (h : List.Forall₂ Extends items items') :
      Extends (.arr items) (.arr items')
  | obj {fields fields' : List (String × Json)}
      (keys : ∀ e ∈ fields, e.1 ∈ Keyed.keys fields')
      (values : ∀ e ∈ fields, ∀ j, (e.1, j) ∈ fields' → Extends e.2 j) :
      Extends (.obj fields) (.obj fields')

namespace Extends

variable {items : List Json} {fields fields' : List (String × Json)} {j : Json}

theorem of_arr (h : Extends (.arr items) j) :
    ∃ items', j = .arr items' ∧ List.Forall₂ Extends items items' := by
  cases h with
  | arr h => exact ⟨_, rfl, h⟩

theorem of_obj (h : Extends (.obj fields) j) :
    ∃ fields', j = .obj fields' ∧ Extends (.obj fields) (.obj fields') := by
  cases h with
  | obj keys values => exact ⟨_, rfl, .obj keys values⟩

theorem obj_normal (hn : (Keyed.keys fields).Nodup)
    (h : ∀ e ∈ fields, Extends e.2 (normal e.2)) :
    Extends (.obj fields) (normal (.obj fields)) := by
  refine .obj (fun e he => ?_) fun e he j hj => ?_
  · exact mem_keys_normal.2 (List.mem_map_of_mem he)
  · obtain ⟨j', hj', rfl⟩ := of_mem_normal hj
    exact Keyed.value_unique hn he hj' ▸ h e he

theorem arr_normal (h : ∀ j ∈ items, Extends j (normal j)) :
    Extends (.arr items) (normal (.arr items)) := by
  rw [normal, normalItems_eq_map]
  exact .arr (List.forall₂_map_right_iff.2 (List.forall₂_same.2 h))

end Extends
end Anneal.Json
