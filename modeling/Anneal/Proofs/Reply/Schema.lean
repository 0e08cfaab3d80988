import Anneal.Proofs.Reply.Structured
import Anneal.Proofs.Text.Lines

/-! Three descriptions of a payload that say the same: the schema of structured completions, the
rules whose violations are reported, and the forms that a reader of the code meets. A payload that
is accepted has one of these forms, so the reader drops no line and takes nothing for empty. -/

namespace Anneal.Reply

open Anneal.Text

inductive Kind where
  | null | boolean | number | string | array | object
  deriving DecidableEq, Repr

def kindOf : Json → Kind
  | .null => .null
  | .bool _ => .boolean
  | .int _ | .float _ => .number
  | .str _ => .string
  | .arr _ => .array
  | .obj _ => .object

abbrev Schema := Json → Bool

namespace Schema

def ofKind (kind : Kind) : Schema := fun j => kindOf j == kind

def minLength (n : Nat) : Schema
  | .str s => n ≤ s.length
  | _ => true

def minItems (n : Nat) : Schema
  | .arr items => n ≤ items.length
  | _ => true

def items (schema : Schema) : Schema
  | .arr items => items.all schema
  | _ => true

def required (name : String) : Schema
  | .obj fields => (Keyed.get? fields name).isSome
  | _ => true

def property (name : String) (schema : Schema) : Schema
  | .obj fields => (Keyed.get? fields name).all schema
  | _ => true

def allOf (schemas : List Schema) : Schema := fun j => schemas.all fun schema => schema j

def oneOf (schemas : List Schema) : Schema := fun j => schemas.countP (fun schema => schema j) == 1

def nonEmptyText : Schema := allOf [ofKind .string, minLength 1]

def content : Schema :=
  oneOf [nonEmptyText, allOf [ofKind .array, items (ofKind .string), minItems 1]]

def code : Schema :=
  oneOf [nonEmptyText, allOf [ofKind .object, required "content",
    property "type" (ofKind .string), property "content" content]]

/-- The schema of structured completions. -/
def completion : Schema :=
  allOf [ofKind .object, required "code", property "code" code,
    property "manifest" (ofKind .string), property "explanation" (ofKind .string)]

section Keywords

variable {fields : Keyed Json} {name : String} {schema : Schema} {j : Json}

theorem allOf_iff {schemas : List Schema} :
    allOf schemas j = true ↔ ∀ schema ∈ schemas, schema j = true := List.all_eq_true

theorem required_iff :
    required name (.obj fields) = true ↔ ∃ member, Keyed.get? fields name = some member :=
  Option.isSome_iff_exists

theorem property_iff : property name schema (.obj fields) = true ↔
    ∀ member, Keyed.get? fields name = some member → schema member = true :=
  Option.all_eq_true _ _

theorem oneOf_pair (first second : Schema) (j : Json) :
    oneOf [first, second] j = (first j != second j) := by
  cases hf : first j <;> cases hs : second j <;> simp [oneOf, hf, hs]

end Keywords

end Schema

/-- What the content of a code block stands for: a text, or its lines one under the other. -/
inductive ContentOf : Json → String → Prop where
  | whole {text : String} (nonempty : text ≠ "") : ContentOf (.str text) text
  | lines {texts : List String} (nonempty : texts ≠ []) :
      ContentOf (.arr (texts.map .str)) ("\n".intercalate texts)

inductive CodeOf : Json → String → Prop where
  | whole {text : String} (nonempty : text ≠ "") : CodeOf (.str text) text
  | block {fields : Keyed Json} {content : Json} {text : String}
      (typed : ∀ j, Keyed.get? fields "type" = some j → ∃ s, j = .str s)
      (found : Keyed.get? fields "content" = some content) (reads : ContentOf content text) :
      CodeOf (.obj fields) text

/-- An object whose code stands for the text; its manifest and explanation, if it has them, are
texts. -/
structure PayloadOf (j : Json) (text : String) : Prop where
  object : ∃ fields, j = .obj fields
  code : ∃ code, j.member? "code" = some code ∧ CodeOf code text
  manifest : ∀ found, j.member? "manifest" = some found → ∃ s, found = .str s
  explanation : ∀ found, j.member? "explanation" = some found → ∃ s, found = .str s

/-- What a manifest gives as the second artifact. -/
inductive ManifestOf : Option Json → Option String → Prop where
  | absent : ManifestOf none none
  | blank {s : String} (blank : isBlankText s = true) : ManifestOf (some (.str s)) none
  | text {s : String} (visible : isBlankText s = false) :
      ManifestOf (some (.str s)) (some (trim s))

theorem isText_iff {j : Json} : isText j = true ↔ ∃ s, j = .str s := by
  cases j <;> simp [isText]

theorem holdsIfPresent_isText_iff {member : Option Json} :
    holdsIfPresent isText member = true ↔ ∀ j, member = some j → ∃ s, j = .str s := by
  cases member with
  | none => simp [holdsIfPresent]
  | some j => simp [holdsIfPresent, isText_iff]

theorem texts_of_all {items : List Json} (h : ∀ j ∈ items, isText j = true) :
    ∃ texts : List String, items = texts.map .str := by
  induction items with
  | nil => exact ⟨[], rfl⟩
  | cons j items ih =>
    obtain ⟨hj, hitems⟩ := List.forall_mem_cons.1 h
    obtain ⟨s, rfl⟩ := isText_iff.1 hj
    obtain ⟨texts, rfl⟩ := ih hitems
    exact ⟨s :: texts, rfl⟩

theorem isContent_iff {j : Json} : isContent j = true ↔ ∃ text, ContentOf j text := by
  constructor
  · intro h
    cases j with
    | str s => exact ⟨s, .whole (by simpa [isContent, isNonEmptyText] using h)⟩
    | arr items =>
      rw [isContent, Bool.and_eq_true, Bool.not_eq_true', List.isEmpty_eq_false_iff,
        List.all_eq_true] at h
      obtain ⟨texts, rfl⟩ := texts_of_all h.2
      exact ⟨_, .lines (by simpa using h.1)⟩
    | _ => cases h
  · rintro ⟨text, h⟩
    cases h with
    | whole nonempty => simpa [isContent, isNonEmptyText] using nonempty
    | lines nonempty => simp [isContent, nonempty, isText]

theorem isCode_iff {j : Json} : isCode j = true ↔ ∃ text, CodeOf j text := by
  constructor
  · intro h
    cases j with
    | str s => exact ⟨s, .whole (by simpa [isCode, isNonEmptyText] using h)⟩
    | obj fields =>
      rw [isCode, Bool.and_eq_true, holdsIfPresent_isText_iff] at h
      obtain ⟨typed, hcontent⟩ := h
      split at hcontent
      next content found =>
        obtain ⟨text, reads⟩ := isContent_iff.1 hcontent
        exact ⟨text, .block typed found reads⟩
      next => cases hcontent
    | _ => cases h
  · rintro ⟨text, h⟩
    cases h with
    | whole nonempty => simpa [isCode, isNonEmptyText] using nonempty
    | block typed found reads =>
      rw [isCode, Bool.and_eq_true, holdsIfPresent_isText_iff, found]
      exact ⟨typed, isContent_iff.2 ⟨text, reads⟩⟩

theorem textViolations_eq_nil_iff {fields : Keyed Json} {name : String} :
    textViolations fields name = [] ↔ ∀ j, Keyed.get? fields name = some j → ∃ s, j = .str s := by
  rw [← holdsIfPresent_isText_iff]
  unfold textViolations
  cases Keyed.get? fields name with
  | none => simp [holdsIfPresent]
  | some j => cases h : isText j <;> simp [holdsIfPresent, h]

theorem violations_eq_nil_iff {j : Json} : violations j = [] ↔ ∃ text, PayloadOf j text := by
  constructor
  · intro h
    cases j with
    | obj fields =>
      simp only [violations, List.append_eq_nil_iff, textViolations_eq_nil_iff] at h
      obtain ⟨⟨⟨hcode, hexplanation⟩, hmanifest⟩, hrequired⟩ := h
      cases found : Keyed.get? fields "code" with
      | none => simp [found] at hrequired
      | some code =>
        have hform : isCode code = true := by simpa [found] using hcode
        obtain ⟨text, reads⟩ := isCode_iff.1 hform
        exact ⟨text, ⟨fields, rfl⟩, ⟨code, found, reads⟩, hmanifest, hexplanation⟩
    | _ => cases h
  · rintro ⟨text, ⟨fields, rfl⟩, ⟨code, found, reads⟩, hmanifest, hexplanation⟩
    have hcode : Keyed.get? fields "code" = some code := found
    simp only [violations, List.append_eq_nil_iff, textViolations_eq_nil_iff, hcode]
    exact ⟨⟨⟨if_pos (isCode_iff.2 ⟨text, reads⟩), hexplanation⟩, hmanifest⟩, rfl⟩

namespace Schema

theorem ofKind_string : ofKind .string = isText := by
  funext j
  cases j <;> rfl

theorem nonEmptyText_eq : nonEmptyText = isNonEmptyText := by
  funext j
  cases j with
  | str s =>
    change (true && (decide (1 ≤ s.length) && true)) = !s.isEmpty
    rw [Bool.eq_iff_iff]
    simp [Nat.one_le_iff_ne_zero]
  | _ => rfl

-- No value is of both alternatives, so that just one of them holds is that either does.
theorem content_eq : content = isContent := by
  funext j
  rw [content, oneOf_pair, nonEmptyText_eq, ofKind_string]
  cases j with
  | arr lines =>
    change (false != (true && (lines.all isText && (decide (1 ≤ lines.length) && true)))) =
      (!lines.isEmpty && lines.all isText)
    cases lines <;> simp
  | str s => exact Bool.bne_false _
  | _ => rfl

theorem code_eq : code = isCode := by
  funext j
  rw [code, oneOf_pair, nonEmptyText_eq, ofKind_string, content_eq]
  cases j with
  | obj fields =>
    change (false != (true && ((Keyed.get? fields "content").isSome &&
      ((Keyed.get? fields "type").all isText &&
        ((Keyed.get? fields "content").all isContent && true))))) =
      (holdsIfPresent isText (Keyed.get? fields "type") && _)
    cases Keyed.get? fields "type" <;> cases Keyed.get? fields "content" <;>
      simp [holdsIfPresent]
  | str s => exact Bool.bne_false _
  | _ => rfl

theorem completion_iff {j : Json} : completion j = true ↔ ∃ text, PayloadOf j text := by
  rw [completion, allOf_iff, code_eq, ofKind_string]
  simp only [List.forall_mem_cons, List.not_mem_nil, false_implies, implies_true, and_true]
  constructor
  · rintro ⟨hobject, hrequired, hcode, hmanifest, hexplanation⟩
    cases j with
    | obj fields =>
      obtain ⟨code, found⟩ := required_iff.1 hrequired
      obtain ⟨text, reads⟩ := isCode_iff.1 (property_iff.1 hcode code found)
      exact ⟨text, ⟨fields, rfl⟩, ⟨code, found, reads⟩,
        fun found h => isText_iff.1 (property_iff.1 hmanifest found h),
        fun found h => isText_iff.1 (property_iff.1 hexplanation found h)⟩
    | _ => cases hobject
  · rintro ⟨text, ⟨fields, rfl⟩, ⟨code, found, reads⟩, hmanifest, hexplanation⟩
    refine ⟨rfl, required_iff.2 ⟨code, found⟩, property_iff.2 fun code' found' => ?_,
      property_iff.2 fun j h => isText_iff.2 (hmanifest j h),
      property_iff.2 fun j h => isText_iff.2 (hexplanation j h)⟩
    obtain rfl := Option.some.inj (found.symm.trans found')
    exact isCode_iff.2 ⟨text, reads⟩

end Schema

/-- A request for the fields that the schema speaks of. -/
def BuiltIn (request : Request) : Prop := request = .repair ∨ request = .conversion

section Accepted

variable {j : Json} {text : String} {request : Request}

theorem PayloadOf.codeText_eq (h : PayloadOf j text) (hrequest : BuiltIn request) :
    codeText request.code.field j = trim text := by
  have hfield : request.code.field = "code" := by rcases hrequest with rfl | rfl <;> rfl
  obtain ⟨code, found, reads⟩ := h.code
  rw [hfield, codeText, found]
  cases reads with
  | whole => rfl
  | block typed content reads =>
    dsimp only
    rw [content]
    cases reads with
    | whole => rfl
    | lines =>
      dsimp only
      rw [filterMap_asStr?, join_eq_intercalate]

theorem PayloadOf.manifestOf (h : PayloadOf j text) :
    ManifestOf (j.member? "manifest") (payloadText? j manifestSlot) := by
  cases found : j.member? "manifest" with
  | none =>
    have hnone : payloadText? j manifestSlot = none := payloadText?_of_absent found
    rw [hnone]
    exact .absent
  | some member =>
    obtain ⟨s, rfl⟩ := h.manifest member found
    cases blank : isBlankText s with
    | true =>
      have hnone : payloadText? j manifestSlot = none := payloadText?_of_blank found blank
      rw [hnone]
      exact .blank blank
    | false =>
      have hsome : payloadText? j manifestSlot = some (trim s) :=
        payloadText?_of_member found blank
      rw [hsome]
      exact .text blank

theorem PayloadOf.missing (h : PayloadOf j text) (hrequest : BuiltIn request)
    (hblank : isBlankText text = true) :
    ofPayload j request = .error (.missingCode request.code.marker request.code.fence) := by
  rw [ofPayload, violations_eq_nil_iff.2 ⟨text, h⟩]
  dsimp only
  rw [h.codeText_eq hrequest, isEmpty_trim_eq, if_pos hblank]

theorem PayloadOf.read (h : PayloadOf j text) (hrequest : BuiltIn request)
    (hvisible : isBlankText text = false) :
    ∃ x, ofPayload j request = .ok x ∧ x.code = trim text ∧
      ∀ slot, request.auxiliary = some slot → ManifestOf (j.member? "manifest") x.auxiliary := by
  refine ⟨_, ofPayload_accepted (violations_eq_nil_iff.2 ⟨text, h⟩) (h.codeText_eq hrequest)
    hvisible, rfl, fun slot hslot => ?_⟩
  rcases hrequest with rfl | rfl
  · cases hslot
  · dsimp only
    rw [auxiliary_found]
    exact h.manifestOf

theorem PayloadOf.not_invalid (h : PayloadOf j text) (hrequest : BuiltIn request)
    (errors : List String) : ofPayload j request ≠ .error (.invalidPayload errors) := by
  intro herrors
  cases hblank : isBlankText text with
  | true =>
    rw [h.missing hrequest hblank] at herrors
    cases herrors
  | false =>
    obtain ⟨x, hx, -⟩ := h.read hrequest hblank
    rw [hx] at herrors
    cases herrors

end Accepted

/-- A payload is refused as invalid just if the schema refuses it, which is if it has none of the
forms. One that has a form is read as the text its code stands for, all of it, and lacks code just
if that text is blank. -/
theorem schema_and_reader_agree (j : Json) (request : Request) (hrequest : BuiltIn request) :
    ((∃ errors, ofPayload j request = .error (.invalidPayload errors)) ↔
      ¬ ∃ text, PayloadOf j text) ∧
    (Schema.completion j = true ↔ ∃ text, PayloadOf j text) ∧
    (∀ text, PayloadOf j text →
      codeText request.code.field j = trim text ∧
      (ofPayload j request = .error (.missingCode request.code.marker request.code.fence) ↔
        isBlankText text = true) ∧
      (isBlankText text = false → ∃ x, ofPayload j request = .ok x ∧ x.code = trim text ∧
        ∀ slot, request.auxiliary = some slot →
          ManifestOf (j.member? "manifest") x.auxiliary)) ∧
    ∀ completion, markerBlock? completion request.code = none → payload? completion = some j →
      extract completion request = ofPayload j request := by
  refine ⟨?_, Schema.completion_iff, fun text h => ?_, fun completion hmarker hpayload => ?_⟩
  · constructor
    · rintro ⟨errors, herrors⟩ ⟨text, h⟩
      exact h.not_invalid hrequest errors herrors
    · intro hnone
      rw [← violations_eq_nil_iff] at hnone
      obtain ⟨v, vs, hv⟩ := List.exists_cons_of_ne_nil hnone
      exact ⟨_, by rw [ofPayload, hv]⟩
  · refine ⟨h.codeText_eq hrequest, ⟨fun herror => ?_, h.missing hrequest⟩, h.read hrequest⟩
    by_contra hvisible
    obtain ⟨x, hx, -⟩ := h.read hrequest (Bool.not_eq_true _ ▸ hvisible)
    rw [hx] at herror
    cases herror
  · rw [extract, hmarker]
    dsimp only
    rw [hpayload]

def linedPayload : Json :=
  .obj [("code", .obj [("content", .arr (["use a;", " ", "use b;\n"].map .str)),
    ("type", .str "rust")]), ("manifest", .str " \n")]

def mixedPayload : Json :=
  .obj [("code", .obj [("content", .arr [.str "use a;", .int 1, .str "use b;"])])]

theorem linedPayload_form : PayloadOf linedPayload "use a;\n \nuse b;\n" where
  object := ⟨_, rfl⟩
  code := by
    have htexts : ["use a;", " ", "use b;\n"] ≠ [] := by decide
    refine ⟨_, rfl, .block (fun j hj => ?_) rfl (.lines htexts)⟩
    exact ⟨"rust", (Option.some.inj hj).symm⟩
  manifest found hfound := ⟨" \n", (Option.some.inj hfound).symm⟩
  explanation found hfound := nomatch hfound

theorem linedPayload_plain : Json.Plain (Json.depthLimit - 1) linedPayload := by
  refine .obj (List.forall_mem_cons.2 ⟨.obj ?_, List.forall_mem_singleton.2 (.str _ _)⟩)
  refine List.forall_mem_cons.2 ⟨.arr fun j hj => ?_, List.forall_mem_singleton.2 (.str _ _)⟩
  obtain ⟨line, -, rfl⟩ := List.mem_map.1 hj
  exact .str _ _

/-- A blank line is a line of the code, a blank manifest is none, and a number is no line. -/
theorem lined_and_mixed_payloads :
    PayloadOf linedPayload "use a;\n \nuse b;\n" ∧
    codeText "code" linedPayload = "use a;\n \nuse b;" ∧
    (∃ x, extract (" " ++ linedPayload.compact ++ "\n") .conversion = .ok x ∧ x.code = "use a;\n \nuse b;" ∧
      ManifestOf (some (.str " \n")) x.auxiliary) ∧
    ∃ errors, ofPayload mixedPayload .conversion = .error (.invalidPayload errors) := by
  obtain ⟨-, -, hread, hextract⟩ := schema_and_reader_agree linedPayload .conversion (.inr rfl)
  obtain ⟨hcode, -, hvisible⟩ := hread _ linedPayload_form
  obtain ⟨x, hx, hxcode, hmanifest⟩ := hvisible (by decide)
  have hmarker : markerBlock? (" " ++ linedPayload.compact ++ "\n") Request.conversion.code =
      none := markerBlock?_object linedPayload_plain (by decide) (by decide) _
  have hpayload : payload? (" " ++ linedPayload.compact ++ "\n") = some linedPayload :=
    payload?_object linedPayload_plain (by decide) (by decide)
  obtain ⟨hinvalid, hschema, -⟩ := schema_and_reader_agree mixedPayload .conversion (.inr rfl)
  have hmixed : ¬ Schema.completion mixedPayload = true := by decide
  rw [hschema] at hmixed
  have htrim : trim "use a;\n \nuse b;\n" = "use a;\n \nuse b;" := by decide
  rw [htrim] at hcode hxcode
  exact ⟨linedPayload_form, hcode,
    ⟨x, (hextract _ hmarker hpayload).trans hx, hxcode, hmanifest manifestSlot rfl⟩,
    hinvalid.2 hmixed⟩

end Anneal.Reply
