import Anneal.Keyed
import Mathlib.Data.List.Nodup
import Mathlib.Data.String.Basic

/-! Entries that are put one after another can be looked up as long as their keys are distinct, and
they stand in the order of their keys. A list that is in order already stays as it is. -/

namespace Anneal.Keyed

variable {α : Type} {acc : Keyed α} {es : List (String × α)} {key : String} {v : α}

theorem merge_cons (acc : Keyed α) (e : String × α) (es : List (String × α)) :
    merge acc (e :: es) = merge (put e.1 e.2 acc) es := rfl

theorem value_unique {w : α} (hn : (keys es).Nodup) (h : (key, v) ∈ es) (h' : (key, w) ∈ es) :
    v = w :=
  congrArg Prod.snd (List.inj_on_of_nodup_map hn h h' rfl)

theorem get?_merge_of_not_mem (h : key ∉ keys es) : get? (merge acc es) key = get? acc key := by
  induction es generalizing acc with
  | nil => rfl
  | cons e es ih =>
    obtain ⟨he, hes⟩ := not_or.1 (List.mem_cons.not.1 h)
    rw [merge_cons, ih hes, get?_put, if_neg he]

theorem get?_merge_of_mem (hn : (keys es).Nodup) (h : (key, v) ∈ es) :
    get? (merge acc es) key = some v := by
  induction es generalizing acc with
  | nil => cases h
  | cons e es ih =>
    obtain ⟨hnot, hn⟩ := List.nodup_cons.1 hn
    rw [merge_cons]
    rcases List.mem_cons.1 h with rfl | h
    · rw [get?_merge_of_not_mem hnot, get?_put, if_pos rfl]
    · exact ih hn h

theorem mem_put {e : String × α} (h : e ∈ put key v acc) : e = (key, v) ∨ e ∈ acc := by
  induction acc with
  | nil => exact .inl (List.mem_singleton.1 h)
  | cons f acc ih =>
    obtain ⟨k, w⟩ := f
    rw [put] at h
    split at h
    · exact List.mem_cons.1 h
    · split at h
      · exact (List.mem_cons.1 h).imp id (List.mem_cons_of_mem _)
      · rcases List.mem_cons.1 h with rfl | h
        · exact .inr List.mem_cons_self
        · exact (ih h).imp id (List.mem_cons_of_mem _)

theorem mem_merge {e : String × α} (h : e ∈ merge acc es) : e ∈ acc ∨ e ∈ es := by
  induction es generalizing acc with
  | nil => exact .inl h
  | cons f es ih =>
    rcases ih h with h | h
    · rcases mem_put h with rfl | h
      · exact .inr List.mem_cons_self
      · exact .inl h
    · exact .inr (List.mem_cons_of_mem _ h)

theorem get?_eq_none_iff : get? acc key = none ↔ key ∉ keys acc := by
  induction acc with
  | nil => simp [keys]
  | cons e acc ih =>
    obtain ⟨k, w⟩ := e
    rw [get?_cons, keys, List.map_cons, List.mem_cons, not_or]
    split
    next h => simp [h]
    next h => rw [ih, keys, and_iff_right h]

theorem mem_of_get? (h : get? acc key = some v) : (key, v) ∈ acc := by
  obtain ⟨front, back, rfl, -⟩ := List.lookup_eq_some_iff.1 h
  simp

theorem get?_eq_some_iff (hn : (keys acc).Nodup) : get? acc key = some v ↔ (key, v) ∈ acc := by
  constructor
  · exact mem_of_get?
  · intro h
    cases hg : get? acc key with
    | none => exact absurd (List.mem_map_of_mem (f := Prod.fst) h) (get?_eq_none_iff.1 hg)
    | some w => rw [value_unique hn (mem_of_get? hg) h]

theorem get?_merge (hn : (keys es).Nodup) (key : String) :
    get? (merge acc es) key = (get? es key).or (get? acc key) := by
  cases hg : get? es key with
  | none => rw [get?_merge_of_not_mem (get?_eq_none_iff.1 hg), Option.none_or]
  | some v => rw [get?_merge_of_mem hn (mem_of_get? hg), Option.some_or]

theorem mem_keys_put {k : String} : k ∈ keys (put key v acc) ↔ k = key ∨ k ∈ keys acc := by
  rw [← not_iff_not, not_or, ← get?_eq_none_iff, ← get?_eq_none_iff, get?_put]
  split
  next h => simp [h]
  next h => rw [and_iff_right h]

theorem mem_keys_merge {k : String} : k ∈ keys (merge acc es) ↔ k ∈ keys acc ∨ k ∈ keys es := by
  induction es generalizing acc with
  | nil => simp [merge, keys]
  | cons e es ih =>
    rw [merge_cons, ih, mem_keys_put]
    simp only [keys, List.map_cons, List.mem_cons]
    tauto

theorem mem_keys_ofList {k : String} : k ∈ keys (ofList es) ↔ k ∈ keys es :=
  mem_keys_merge.trans (or_iff_right List.not_mem_nil)

theorem ordered_cons {e : String × α} :
    Ordered (e :: acc) ↔ (∀ f ∈ acc, e.1 < f.1) ∧ Ordered acc := List.pairwise_cons

theorem Ordered.put (h : Ordered acc) (key : String) (v : α) : Ordered (put key v acc) := by
  induction acc with
  | nil => exact List.pairwise_singleton _ _
  | cons e acc ih =>
    obtain ⟨k, w⟩ := e
    obtain ⟨hk, hacc⟩ := ordered_cons.1 h
    rw [Keyed.put]
    split
    next hlt =>
      refine ordered_cons.2 ⟨List.forall_mem_cons.2 ⟨hlt, fun f hf => ?_⟩, h⟩
      exact lt_trans hlt (hk f hf)
    next hnlt =>
      split
      next heq => exact ordered_cons.2 ⟨fun f hf => heq ▸ hk f hf, hacc⟩
      next hne =>
        refine ordered_cons.2 ⟨fun f hf => ?_, ih hacc⟩
        obtain rfl | hf := mem_put hf
        · exact lt_of_le_of_ne (not_lt.1 hnlt) (Ne.symm hne)
        · exact hk f hf

theorem Ordered.merge (h : Ordered acc) (es : List (String × α)) : Ordered (merge acc es) := by
  induction es generalizing acc with
  | nil => exact h
  | cons e es ih => exact ih (h.put _ _)

theorem Ordered.nodup (h : Ordered acc) : (keys acc).Nodup :=
  List.pairwise_map.2 (h.imp fun hlt => ne_of_lt hlt)

theorem Ordered.keys_pairwise (h : Ordered acc) : (keys acc).Pairwise (· < ·) :=
  List.pairwise_map.2 h

theorem Ordered.ext {bs : Keyed α} (h : Ordered acc) (h' : Ordered bs)
    (hget : ∀ key, get? acc key = get? bs key) : acc = bs := by
  have hmem (e : String × α) : e ∈ acc ↔ e ∈ bs := by
    rw [← get?_eq_some_iff h.nodup, ← get?_eq_some_iff h'.nodup, hget]
  have hperm : acc.Perm bs :=
    (List.perm_ext_iff_of_nodup h.nodup.of_map h'.nodup.of_map).2 hmem
  refine List.Perm.eq_of_pairwise (fun e f _ _ hlt hgt => ?_) h h' hperm
  exact absurd hlt (lt_asymm hgt)

theorem Ordered.mapValues {β : Type} (h : Ordered acc) (f : α → β) :
    Ordered (acc.map fun e => (e.1, f e.2)) :=
  List.pairwise_map.2 h

theorem put_of_forall_lt (h : ∀ e ∈ acc, e.1 < key) : put key v acc = acc ++ [(key, v)] := by
  induction acc with
  | nil => rfl
  | cons e acc ih =>
    obtain ⟨k, w⟩ := e
    obtain ⟨hk, hacc⟩ := List.forall_mem_cons.1 h
    rw [Keyed.put, if_neg (lt_asymm hk), if_neg (ne_of_gt hk), ih hacc, List.cons_append]

theorem merge_of_ordered (acc : Keyed α) (h : Ordered (acc ++ es)) :
    merge acc es = acc ++ es := by
  induction es generalizing acc with
  | nil => simp [merge]
  | cons e es ih =>
    have hput : Keyed.put e.1 e.2 acc = acc ++ [e] :=
      put_of_forall_lt fun f hf => (List.pairwise_append.1 h).2.2 f hf e List.mem_cons_self
    rw [List.append_cons] at h ⊢
    rw [merge_cons, hput, ih _ h]

theorem Ordered.ofList (h : Ordered acc) : ofList acc = acc :=
  merge_of_ordered [] h

end Anneal.Keyed
