import Anneal.Proofs.Json.Extension
import Anneal.Proofs.Json.Indented

/-! A record is read field by field: it does not matter where its fields stand and what else stands
beside them. -/

namespace Anneal.Json

variable {α : Type}

/-- A text from which a value is read back. -/
def Records (decode : Decoder α) (text : String) (v : α) : Prop :=
  ∃ j, parse? text = some j ∧ decode j = .ok v

theorem Records.unique {decode : Decoder α} {text : String} {v v' : α}
    (h : Records decode text v) (h' : Records decode text v') : v = v' := by
  obtain ⟨j, hj, hv⟩ := h
  obtain ⟨j', hj', hv'⟩ := h'
  obtain rfl := Option.some.inj (hj.symm.trans hj')
  exact Except.ok.inj (hv.symm.trans hv')

namespace Decode

variable {fields : Keyed Json} {es : List (String × Json)} {key : String} {j : Json} {v : α}
  {item : Decoder α}

theorem checkFields_eq_ok {known : List Field}
    (h : ∀ f ∈ known, ∀ j, (f.key, j) ∈ fields → f.check j = .ok ()) :
    checkFields known fields = .ok () := by
  induction fields with
  | nil => rfl
  | cons e fields ih =>
    obtain ⟨key, j⟩ := e
    have hrest := ih fun f hf j hj => h f hf j (List.mem_cons_of_mem _ hj)
    rw [checkFields]
    split
    · exact hrest
    next f hf =>
      have hkey : f.key = key := by simpa using List.find?_some hf
      rw [h f (List.mem_of_find?_eq_some hf) j (hkey ▸ List.mem_cons_self)]
      exact hrest

theorem record_obj {name : String} {known : List Field} {build : Keyed Json → Except Mismatch α}
    (hknown : ∀ f ∈ known, ∀ j, (f.key, j) ∈ fields → f.check j = .ok ())
    (hbuild : build fields = .ok v) : record name known build (.obj fields) = .ok v := by
  rw [record, checkFields_eq_ok hknown]
  exact hbuild

def Gives (fields : Keyed Json) (key : String) (item : Decoder α) (v : α) : Prop :=
  ∀ j, (key, j) ∈ fields → item j = .ok v

theorem Gives.check (h : Gives fields key item v) :
    ∀ j, (key, j) ∈ fields → (item j).map (fun _ => ()) = .ok () := fun j hj => by
  rw [h j hj]
  rfl

theorem Gives.withDefault {default : α} (h : Gives fields key item v)
    (ha : key ∉ Keyed.keys fields → default = v) :
    Decode.withDefault fields key default item = .ok v := by
  unfold Decode.withDefault
  split
  next hj => exact h _ (Keyed.mem_of_get? hj)
  next hj => rw [ha (Keyed.get?_eq_none_iff.1 hj)]

structure Found (fields : Keyed Json) (key : String) (item : Decoder α) (v : α) : Prop where
  present : key ∈ Keyed.keys fields
  gives : Gives fields key item v

theorem Found.check (h : Found fields key item v) :
    ∀ j, (key, j) ∈ fields → (item j).map (fun _ => ()) = .ok () := h.gives.check

theorem Found.withDefault {default : α} (h : Found fields key item v) :
    Decode.withDefault fields key default item = .ok v :=
  h.gives.withDefault fun ha => absurd h.present ha

theorem Found.required (h : Found fields key item v) :
    Decode.required fields key item = .ok v := by
  unfold Decode.required
  split
  next hj => exact h.gives _ (Keyed.mem_of_get? hj)
  next hj => exact absurd h.present (Keyed.get?_eq_none_iff.1 hj)

theorem found_normal (hn : (Keyed.keys es).Nodup) (h : (key, j) ∈ es)
    (hi : item (normal j) = .ok v) : Found (Keyed.ofList (normalFields es)) key item v where
  present := mem_keys_normal.2 (List.mem_map_of_mem (f := Prod.fst) h)
  gives j' hj' := by
    obtain ⟨j', he, rfl⟩ := of_mem_normal hj'
    obtain rfl := Keyed.value_unique hn h he
    exact hi

theorem table_normal {write : α → Json} {vs : Keyed α} (ho : vs.Ordered)
    (h : ∀ e ∈ vs, item (normal (write e.2)) = .ok e.2) :
    table item (normal (.obj (vs.map fun e => (e.1, write e.2)))) = .ok vs := by
  rw [normal_of_ordered (ho.mapValues write), List.map_map, table]
  clear ho
  induction vs with
  | nil => rfl
  | cons e vs ih =>
    obtain ⟨he, hvs⟩ := List.forall_mem_cons.1 h
    rw [List.map_cons, List.mapM_cons, Function.comp_apply, he, ih hvs]
    rfl

def Takes (decode : Decoder α) (j : Json) (v : α) : Prop :=
  ∀ j', Extends j j' → decode j' = .ok v

theorem takes_str {s : String} (h : item (.str s) = .ok v) : Takes item (.str s) v := by
  rintro _ ⟨⟩
  exact h

theorem takes_bool (b : Bool) : Takes bool (.bool b) b := by
  rintro _ ⟨⟩
  rfl

theorem takes_word {bits n : Nat} {name : String} (h : n < Word.bound bits) :
    Takes (word bits name) (.int n) n := by
  rintro _ ⟨⟩
  rw [word, if_pos ⟨Int.natCast_nonneg n, Int.ofNat_lt.2 h⟩]
  rfl

theorem takes_list {write : α → Json} {vs : List α} (h : ∀ v ∈ vs, Takes item (write v) v) :
    Takes (list item) (.arr (vs.map write)) vs := by
  intro j hj
  obtain ⟨items, rfl, hitems⟩ := hj.of_arr
  rw [list]
  clear hj
  induction vs generalizing items with
  | nil =>
    cases hitems
    rfl
  | cons v vs ih =>
    cases hitems with
    | cons hitem hitems =>
      obtain ⟨hv, hvs⟩ := List.forall_mem_cons.1 h
      rw [List.mapM_cons, hv _ hitem, ih hvs _ hitems]
      rfl

theorem Takes.found (ht : Takes item j v) (h : Extends (.obj es) (.obj fields))
    (he : (key, j) ∈ es) : Found fields key item v := by
  cases h with
  | obj keys values => exact ⟨keys _ he, fun j' hj' => ht j' (values _ he j' hj')⟩

end Decode

theorem inRange_natCast {n : Nat} (h : n < Word.bound 64) : InRange (n : Int) := by
  have hbound : 0 < Word.bound 63 := Word.bound_pos 63
  constructor
  · omega
  · exact Int.ofNat_lt.2 h

end Anneal.Json
