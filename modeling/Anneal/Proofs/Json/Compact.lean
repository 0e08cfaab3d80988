import Anneal.Proofs.Json.Reading
import Anneal.Proofs.Keyed

/-! What is written in the compact form is read back, and it stands on one line. Doubles are left
out: their digits are settled by arithmetic that is not opened here. The reader brings the fields
of an object into the order of their keys. -/

namespace Anneal.Json

/-- There are no doubles in the value, its whole numbers are read as such, and `depth` containers
at most stand inside one another. -/
inductive Plain : Nat → Json → Prop
  | null (depth : Nat) : Plain depth .null
  | bool (depth : Nat) (b : Bool) : Plain depth (.bool b)
  | int (depth : Nat) {n : Int} (h : InRange n) : Plain depth (.int n)
  | str (depth : Nat) (s : String) : Plain depth (.str s)
  | arr {depth : Nat} {items : List Json} (h : ∀ j ∈ items, Plain depth j) :
      Plain (depth + 1) (.arr items)
  | obj {depth : Nat} {fields : List (String × Json)} (h : ∀ e ∈ fields, Plain depth e.2) :
      Plain (depth + 1) (.obj fields)

mutual

def normal : Json → Json
  | .arr items => .arr (normalItems items)
  | .obj fields => .obj (Keyed.ofList (normalFields fields))
  | .null => .null
  | .bool b => .bool b
  | .int n => .int n
  | .float x => .float x
  | .str s => .str s

def normalItems : List Json → List Json
  | [] => []
  | j :: js => normal j :: normalItems js

def normalFields : List (String × Json) → List (String × Json)
  | [] => []
  | (key, j) :: es => (key, normal j) :: normalFields es

end

theorem normalItems_eq_map (js : List Json) : normalItems js = js.map normal := by
  induction js with
  | nil => rfl
  | cons j js ih => rw [normalItems, ih, List.map_cons]

theorem normalFields_eq_map (es : List (String × Json)) :
    normalFields es = es.map fun e => (e.1, normal e.2) := by
  induction es with
  | nil => rfl
  | cons e es ih => rw [normalFields, ih, List.map_cons]

theorem keys_normalFields (es : List (String × Json)) :
    Keyed.keys (normalFields es) = Keyed.keys es := by
  rw [normalFields_eq_map, Keyed.keys, List.map_map]
  rfl

theorem mem_keys_normal {es : List (String × Json)} {key : String} :
    key ∈ Keyed.keys (Keyed.ofList (normalFields es)) ↔ key ∈ Keyed.keys es := by
  rw [Keyed.mem_keys_ofList, keys_normalFields]

theorem of_mem_normal {es : List (String × Json)} {key : String} {j : Json}
    (h : (key, j) ∈ Keyed.ofList (normalFields es)) : ∃ j', (key, j') ∈ es ∧ j = normal j' := by
  have hmem := (Keyed.mem_merge h).resolve_left List.not_mem_nil
  rw [normalFields_eq_map] at hmem
  obtain ⟨⟨k, j'⟩, he, heq⟩ := List.mem_map.1 hmem
  obtain ⟨rfl, rfl⟩ := Prod.mk.inj heq
  exact ⟨j', he, rfl⟩

theorem member?_normal_of_mem {es : List (String × Json)} (hn : (Keyed.keys es).Nodup)
    {key : String} {j : Json} (h : (key, j) ∈ es) :
    (normal (.obj es)).member? key = some (normal j) := by
  rw [← keys_normalFields] at hn
  refine Keyed.get?_merge_of_mem hn ?_
  rw [normalFields_eq_map]
  exact List.mem_map.2 ⟨(key, j), h, rfl⟩

theorem member?_normal_of_not_mem {es : List (String × Json)} {key : String}
    (h : key ∉ Keyed.keys es) : (normal (.obj es)).member? key = none := by
  rw [← keys_normalFields] at h
  exact Keyed.get?_merge_of_not_mem h

theorem normal_of_ordered {es : Keyed Json} (h : es.Ordered) :
    normal (.obj es) = .obj (es.map fun e => (e.1, normal e.2)) := by
  rw [normal, normalFields_eq_map, (h.mapValues normal).ofList]

variable {depth : Nat}

theorem readsItems_compactItems {js : List Json}
    (h : ∀ j ∈ js, Reads depth (compactChars j) (normal j)) :
    ReadsItems depth (compactItems js) (normalItems js) := by
  induction js with
  | nil => exact readsItems_nil depth
  | cons j js ih =>
    obtain ⟨hj, hjs⟩ := List.forall_mem_cons.1 h
    exact readsItems_cons hj (ih hjs)

theorem readsFields_compactFields {es : List (String × Json)}
    (h : ∀ e ∈ es, Reads depth (compactChars e.2) (normal e.2)) :
    ReadsFields depth (compactFields es) (normalFields es) := by
  induction es with
  | nil => exact readsFields_nil depth
  | cons e es ih =>
    obtain ⟨key, j⟩ := e
    obtain ⟨hj, hes⟩ := List.forall_mem_cons.1 h
    have htext : compactFields ((key, j) :: es) =
        ',' :: [] ++ '"' :: memberText key (compactChars j) ++ compactFields es := by
      rw [compactFields, ← quoted_member]
      simp
    rw [htext]
    exact readsFields_cons (List.forall_mem_nil _) hj (ih hes)

theorem reads_arr {items : List Json} (h : ∀ j ∈ items, Reads depth (compactChars j) (normal j)) :
    Reads (depth + 1) (compactChars (.arr items)) (normal (.arr items)) := by
  cases items with
  | nil => exact reads_arr_nil depth
  | cons j js =>
    obtain ⟨hj, hjs⟩ := List.forall_mem_cons.1 h
    exact reads_arr_cons hj (readsItems_compactItems hjs)

theorem reads_obj {fields : List (String × Json)}
    (h : ∀ e ∈ fields, Reads depth (compactChars e.2) (normal e.2)) :
    Reads (depth + 1) (compactChars (.obj fields)) (normal (.obj fields)) := by
  cases fields with
  | nil => exact reads_obj_nil depth
  | cons e es =>
    obtain ⟨key, j⟩ := e
    obtain ⟨hj, hes⟩ := List.forall_mem_cons.1 h
    have htext : compactChars (.obj ((key, j) :: es)) =
        '\x7b' :: [] ++ '"' :: memberText key (compactChars j) ++ compactFields es := by
      rw [compactChars, ← quoted_member]
      simp
    rw [htext]
    exact reads_obj_cons (List.forall_mem_nil _) hj (readsFields_compactFields hes)

theorem Plain.reads {j : Json} (h : Plain depth j) : Reads depth (compactChars j) (normal j) := by
  induction h with
  | null depth => exact reads_null depth
  | bool depth b =>
    cases b with
    | true => exact reads_true depth
    | false => exact reads_false depth
  | int depth h => exact reads_int depth h
  | str depth s => exact reads_str depth s
  | arr _ ih => exact reads_arr ih
  | obj _ ih => exact reads_obj ih

theorem parse?_compact {j : Json} (h : Plain (depthLimit - 1) j) :
    parse? j.compact = some j.normal := parse?_of_reads h.reads

theorem printable_compactItems {js : List Json} (h : ∀ j ∈ js, Printable (compactChars j)) :
    Printable (compactItems js) := by
  induction js with
  | nil => decide
  | cons j js ih =>
    obtain ⟨hj, hjs⟩ := List.forall_mem_cons.1 h
    exact printable_append.2 ⟨printable_cons.2 ⟨by decide, hj⟩, ih hjs⟩

theorem printable_compactFields {es : List (String × Json)}
    (h : ∀ e ∈ es, Printable (compactChars e.2)) : Printable (compactFields es) := by
  induction es with
  | nil => decide
  | cons e es ih =>
    obtain ⟨key, j⟩ := e
    obtain ⟨hj, hes⟩ := List.forall_mem_cons.1 h
    have hkey : Printable (',' :: quoted key) := printable_cons.2 ⟨by decide, printable_quoted key⟩
    exact printable_append.2 ⟨printable_append.2 ⟨hkey, printable_cons.2 ⟨by decide, hj⟩⟩, ih hes⟩

theorem printable_int (n : Int) : Printable (toString n).toList := by
  have hdigits (k : Nat) : Printable (Nat.toDigits 10 k) := fun c hc => by
    have hd := isDigit_of_mem_toDigits hc
    rw [isDigit_eq, Char.isDigit_iff_toNat] at hd
    exact Nat.le_trans (by decide) hd.1
  rw [toList_toString_int]
  split
  · exact hdigits _
  · exact printable_cons.2 ⟨by decide, hdigits _⟩

theorem printable_arr {items : List Json} (h : ∀ j ∈ items, Printable (compactChars j)) :
    Printable (compactChars (.arr items)) := by
  cases items with
  | nil => decide
  | cons j js =>
    obtain ⟨hj, hjs⟩ := List.forall_mem_cons.1 h
    exact printable_append.2 ⟨printable_cons.2 ⟨by decide, hj⟩, printable_compactItems hjs⟩

theorem printable_obj {fields : List (String × Json)}
    (h : ∀ e ∈ fields, Printable (compactChars e.2)) : Printable (compactChars (.obj fields)) := by
  cases fields with
  | nil => decide
  | cons e es =>
    obtain ⟨key, j⟩ := e
    obtain ⟨hj, hes⟩ := List.forall_mem_cons.1 h
    have hkey : Printable ('\x7b' :: quoted key) :=
      printable_cons.2 ⟨by decide, printable_quoted key⟩
    exact printable_append.2
      ⟨printable_append.2 ⟨hkey, printable_cons.2 ⟨by decide, hj⟩⟩, printable_compactFields hes⟩

theorem Plain.printable {j : Json} (h : Plain depth j) : Printable (compactChars j) := by
  induction h with
  | null => decide
  | bool depth b => cases b <;> decide
  | @int depth n h => exact printable_int n
  | str depth s => exact printable_quoted s
  | arr _ ih => exact printable_arr ih
  | obj _ ih => exact printable_obj ih

theorem compactFields_ends (es : List (String × Json)) :
    ∃ front, compactFields es = front ++ ['\x7d'] := by
  induction es with
  | nil => exact ⟨[], rfl⟩
  | cons e es ih =>
    obtain ⟨front, hfront⟩ := ih
    refine ⟨',' :: quoted e.1 ++ ':' :: compactChars e.2 ++ front, ?_⟩
    rw [compactFields, hfront]
    simp

theorem compactChars_obj (fields : List (String × Json)) :
    ∃ inner, compactChars (.obj fields) = '\x7b' :: inner ++ ['\x7d'] := by
  cases fields with
  | nil => exact ⟨[], rfl⟩
  | cons e es =>
    obtain ⟨front, hfront⟩ := compactFields_ends es
    refine ⟨quoted e.1 ++ ':' :: compactChars e.2 ++ front, ?_⟩
    rw [compactChars, hfront]
    simp

end Anneal.Json
