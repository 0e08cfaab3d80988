import Anneal.Json.Decode

/-!
# What a decoder that succeeds has read

The members of an object, or of a list that stands for a record, are looked up in the same way.
-/

namespace Anneal.Json

variable {α β : Type} {j : Json} {fields : Keyed Json} {key : String}

abbrev Member := List String × String

def field? (member : Member) : Json → Option Json
  | .obj fields => Keyed.get? fields member.2
  | .arr items => Keyed.get? (member.1.zip items) member.2
  | _ => none

namespace Decode

theorem bind_eq_ok {x : Except Mismatch α} {f : α → Except Mismatch β} {b : β}
    (h : (x >>= f) = .ok b) : ∃ a, x = .ok a ∧ f a = .ok b := by
  cases x with
  | error e => cases h
  | ok a => exact ⟨a, rfl, h⟩

/-- What a record reads its fields from. -/
theorem record_eq_ok {name : String} {known : List Field}
    {build : Keyed Json → Except Mismatch α} {v : α} (h : record name known build j = .ok v) :
    ∃ fields, build fields = .ok v ∧
      ∀ key, field? (known.map (·.key), key) j = Keyed.get? fields key := by
  cases j with
  | obj fields =>
    simp only [record] at h
    split at h
    · cases h
    · exact ⟨fields, h, fun _ => rfl⟩
  | arr items =>
    simp only [record] at h
    split at h
    · cases h
    · split at h
      · cases h
      · split at h
        · cases h
        · exact ⟨_, h, fun _ => rfl⟩
  | _ => cases h

structure Taken (entry : Option Json) (default : α) (item : Decoder α) (v : α) : Prop where
  read : ∀ {j}, entry = some j → item j = .ok v
  absent : entry = none → v = default

theorem withDefault_eq_ok {entry : Option Json} {default v : α} {item : Decoder α}
    (found : entry = Keyed.get? fields key) (h : withDefault fields key default item = .ok v) :
    Taken entry default item v := by
  subst found
  unfold withDefault at h
  cases found : Keyed.get? fields key with
  | none =>
    rw [found] at h
    exact ⟨fun e => (by cases e), fun _ => (Except.ok.inj h).symm⟩
  | some j =>
    rw [found] at h
    exact ⟨fun e => Option.some.inj e ▸ h, fun e => (by cases e)⟩

theorem string_eq_ok {s : String} (h : string j = .ok s) : j = .str s := by
  cases j <;> cases h
  rfl

theorem path_eq_ok {s : String} (h : path j = .ok s) : j = .str s := by
  cases j <;> cases h
  rfl

theorem word_eq_ok {bits n : Nat} {name : String} (h : word bits name j = .ok n) :
    j = .int n := by
  cases j with
  | int i =>
    simp only [word] at h
    split at h
    · next bounds =>
      rw [← Except.ok.inj h, Int.toNat_of_nonneg bounds.1]
    · cases h
  | _ => cases h

theorem strings_eq_ok {ss : List String} (h : list string j = .ok ss) :
    j = .arr (ss.map Json.str) := by
  cases j with
  | arr items =>
    congr 1
    change items.mapM string = .ok ss at h
    induction items generalizing ss with
    | nil =>
      cases h
      rfl
    | cons item items ih =>
      rw [List.mapM_cons] at h
      obtain ⟨s, head, h⟩ := bind_eq_ok h
      obtain ⟨rest, tail, h⟩ := bind_eq_ok h
      cases h
      rw [List.map_cons, string_eq_ok head, ih tail]
  | _ => cases h

end Decode
end Anneal.Json
