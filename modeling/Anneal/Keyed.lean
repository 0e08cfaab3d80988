/-!
# Keyed lists

Association lists in increasing key order. `put` keeps the order and replaces the value of a key
that is there, so each key has one value.
-/

namespace Anneal

abbrev Keyed (α : Type) := List (String × α)

namespace Keyed

variable {α : Type}

def get? (fields : Keyed α) (key : String) : Option α := fields.lookup key

def put (key : String) (value : α) : Keyed α → Keyed α
  | [] => [(key, value)]
  | (k, v) :: rest =>
    if key < k then (key, value) :: (k, v) :: rest
    else if key = k then (key, value) :: rest
    else (k, v) :: put key value rest

def merge (fields extra : Keyed α) : Keyed α :=
  extra.foldl (fun acc e => put e.1 e.2 acc) fields

def ofList (entries : List (String × α)) : Keyed α := merge [] entries

def keys (fields : Keyed α) : List String := fields.map (·.1)

def Ordered (fields : Keyed α) : Prop := fields.Pairwise fun a b => a.1 < b.1

@[simp] theorem get?_nil (key : String) : get? ([] : Keyed α) key = none := rfl

theorem get?_cons (k : String) (v : α) (rest : Keyed α) (key : String) :
    get? ((k, v) :: rest) key = if key = k then some v else get? rest key := by
  by_cases h : key = k
  · simp [get?, h]
  · simp only [get?, List.lookup_cons, beq_eq_false_iff_ne.2 h, if_neg h]

/-- After `put`, the key has the new value and every other key the value it had. -/
theorem get?_put (key : String) (value : α) (fields : Keyed α) (k : String) :
    get? (put key value fields) k = if k = key then some value else get? fields k := by
  induction fields with
  | nil => simp [put, get?_cons]
  | cons e rest ih =>
    obtain ⟨k', v'⟩ := e
    simp only [put]
    split
    · simp [get?_cons]
    · split
      · next h =>
        subst h
        simp only [get?_cons]
        split <;> rfl
      · next h =>
        simp only [get?_cons, ih]
        by_cases hk : k = k'
        · subst hk
          simp [Ne.symm h]
        · simp [hk]

end Keyed
end Anneal
