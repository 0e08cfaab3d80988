import Anneal.Toml.Printer

/-! A record can be written as a document as long as nothing in it is null. -/

namespace Anneal.Toml

inductive Solid : Json → Prop
  | bool (b : Bool) : Solid (.bool b)
  | int (n : Int) : Solid (.int n)
  | float (x : Float) : Solid (.float x)
  | str (s : String) : Solid (.str s)
  | arr {items : List Json} (h : ∀ j ∈ items, Solid j) : Solid (.arr items)
  | obj {fields : List (String × Json)} (h : ∀ e ∈ fields, Solid e.2) : Solid (.obj fields)

variable {items : List Json} {fields : List (String × Json)} {j : Json}

theorem itemsAfter_isSome (frame : Frame) (h : ∀ j ∈ items, (valueText j).isSome) :
    (itemsAfter frame items).isSome := by
  induction items with
  | nil => rfl
  | cons item items ih =>
    obtain ⟨hitem, hitems⟩ := List.forall_mem_cons.1 h
    obtain ⟨v, hv⟩ := Option.isSome_iff_exists.1 hitem
    obtain ⟨rest, hrest⟩ := Option.isSome_iff_exists.1 (ih hitems)
    rw [itemsAfter, hv, hrest]
    rfl

theorem fieldsAfter_isSome (h : ∀ e ∈ fields, (valueText e.2).isSome) :
    (fieldsAfter fields).isSome := by
  induction fields with
  | nil => rfl
  | cons e fields ih =>
    obtain ⟨he, hfields⟩ := List.forall_mem_cons.1 h
    obtain ⟨v, hv⟩ := Option.isSome_iff_exists.1 he
    obtain ⟨rest, hrest⟩ := Option.isSome_iff_exists.1 (ih hfields)
    rw [fieldsAfter, hv, hrest]
    rfl

theorem Solid.valueText (h : Solid j) : (valueText j).isSome := by
  induction h with
  | @arr items _ ih =>
    cases items with
    | nil => rfl
    | cons item items =>
      obtain ⟨hitem, hitems⟩ := List.forall_mem_cons.1 ih
      obtain ⟨v, hv⟩ := Option.isSome_iff_exists.1 hitem
      obtain ⟨rest, hrest⟩ := Option.isSome_iff_exists.1
        (itemsAfter_isSome (Frame.ofLength (items.length + 1)) hitems)
      rw [Toml.valueText, hv, hrest]
      rfl
  | @obj fields _ ih =>
    cases fields with
    | nil => rfl
    | cons e fields =>
      obtain ⟨he, hfields⟩ := List.forall_mem_cons.1 ih
      obtain ⟨v, hv⟩ := Option.isSome_iff_exists.1 he
      obtain ⟨rest, hrest⟩ := Option.isSome_iff_exists.1 (fieldsAfter_isSome hfields)
      rw [Toml.valueText, hv, hrest]
      rfl
  | _ => rfl

theorem body_isSome (h : ∀ e ∈ fields, (valueText e.2).isSome) : (body fields).isSome := by
  induction fields with
  | nil => rfl
  | cons e fields ih =>
    obtain ⟨he, hfields⟩ := List.forall_mem_cons.1 h
    obtain ⟨v, hv⟩ := Option.isSome_iff_exists.1 he
    obtain ⟨rest, hrest⟩ := Option.isSome_iff_exists.1 (ih hfields)
    rw [body]
    split
    · rw [hv, hrest]
      rfl
    · exact ih hfields

structure Parted (j : Json) : Prop where
  sections : ∀ path element, (sections path element j).isSome
  elements : ∀ items, j = .arr items → ∀ path, (elements path items).isSome

theorem elements_isSome (path : List String) (h : ∀ j ∈ items, Parted j) :
    (elements path items).isSome := by
  induction items with
  | nil => rfl
  | cons item items ih =>
    obtain ⟨hitem, hitems⟩ := List.forall_mem_cons.1 h
    obtain ⟨own, hown⟩ := Option.isSome_iff_exists.1 (hitem.sections path true)
    obtain ⟨rest, hrest⟩ := Option.isSome_iff_exists.1 (ih hitems)
    rw [elements, hown, hrest]
    rfl

def own (path : List String) (name : String) (item : Json) : Option (List Section) :=
  match Form.of item with
  | .line => some []
  | .table => sections (path ++ [name]) false item
  | .elements => match item with
    | .arr items => elements (path ++ [name]) items
    | _ => some []

theorem parts_cons (path : List String) (name : String) (item : Json)
    (fields : List (String × Json)) : parts path ((name, item) :: fields) =
      match own path name item, parts path fields with
      | some own, some rest => some (own ++ rest)
      | _, _ => none := by
  cases item <;> rfl

theorem Parted.own (h : Parted j) (path : List String) (name : String) :
    (own path name j).isSome := by
  unfold Toml.own
  split
  · rfl
  · exact h.sections _ _
  · split
    · exact h.elements _ rfl _
    · rfl

theorem parts_isSome (path : List String) (h : ∀ e ∈ fields, Parted e.2) :
    (parts path fields).isSome := by
  induction fields with
  | nil => rfl
  | cons e fields ih =>
    obtain ⟨he, hfields⟩ := List.forall_mem_cons.1 h
    obtain ⟨own, hown⟩ := Option.isSome_iff_exists.1 (he.own path e.1)
    obtain ⟨rest, hrest⟩ := Option.isSome_iff_exists.1 (ih hfields)
    rw [parts_cons, hown, hrest]
    rfl

theorem Solid.parted (h : Solid j) : Parted j := by
  induction h with
  | @arr items _ ih =>
    refine ⟨fun _ _ => rfl, fun items' heq path => ?_⟩
    cases heq
    exact elements_isSome path ih
  | @obj fields hfields ih =>
    refine ⟨fun path element => ?_, fun _ heq => nomatch heq⟩
    obtain ⟨lines, hlines⟩ := Option.isSome_iff_exists.1
      (body_isSome fun e he => (hfields e he).valueText)
    obtain ⟨rest, hrest⟩ := Option.isSome_iff_exists.1 (parts_isSome path ih)
    rw [Toml.sections, hlines, hrest]
    rfl
  | _ => exact ⟨fun _ _ => rfl, fun _ heq => nomatch heq⟩

theorem Solid.render? (h : Solid j) : ∃ text, render? j = some text := by
  obtain ⟨all, hall⟩ := Option.isSome_iff_exists.1 (h.parted.sections [] false)
  exact ⟨_, by rw [Toml.render?, hall, Option.map_some]⟩

end Anneal.Toml
