import Anneal.Backend.Exchange
import Anneal.Proofs.Json.Legible
import Anneal.Proofs.Text.Lines
import Mathlib.Data.List.ReduceOption

/-! A response that comes in lines. The texts that the lines hold are put together, whatever stands
between them; a response that is one document is the same in either framing, and two documents
never pass as one. -/

namespace Anneal.Backend

open Json Text

section Lines

variable {path : FieldPath} {lines : List (List Char)} {line : List Char}

def lineText? (path : FieldPath) (line : List Char) : Option String :=
  (Json.parse? (String.ofList line)).bind fun j => (path.lookupText j).toOption

def lineError? (path : FieldPath) (line : List Char) : Option FieldPathError :=
  (Json.parse? (String.ofList line)).bind fun j =>
    match path.lookupText j with
    | .ok _ => none
    | .error e => some e

theorem parse?_empty : Json.parse? (String.ofList []) = none := by
  rw [Json.parse?, Json.parse, String.toList_ofList, document, value]
  rfl

@[simp] theorem lineText?_nil (path : FieldPath) : lineText? path [] = none := by
  rw [lineText?, parse?_empty]
  rfl

@[simp] theorem lineError?_nil (path : FieldPath) : lineError? path [] = none := by
  rw [lineError?, parse?_empty]
  rfl

theorem add_eq (f : Fragments) (line : List Char) : f.add path line =
    ⟨f.text ++ String.join (lineText? path line).toList,
      f.count + (lineText? path line).toList.length,
      f.firstError.or (lineError? path line)⟩ := by
  rw [Fragments.add, lineText?, lineError?]
  cases Json.parse? (String.ofList line) with
  | none => simp
  | some j =>
    cases hl : path.lookupText j with
    | ok text => simp [hl, Except.toOption]
    | error e => cases f.firstError <;> simp [hl, Except.toOption]

theorem foldl_add (f : Fragments) (lines : List (List Char)) : lines.foldl (Fragments.add path) f =
    ⟨f.text ++ String.join (lines.filterMap (lineText? path)),
      f.count + (lines.filterMap (lineText? path)).length,
      f.firstError.or (lines.findSome? (lineError? path))⟩ := by
  induction lines generalizing f with
  | nil => simp
  | cons line lines ih =>
    rw [List.foldl_cons, ih, add_eq]
    cases ht : lineText? path line <;> cases he : lineError? path line <;>
      simp [ht, he, String.append_assoc, Nat.add_assoc, Nat.add_comm 1]

theorem responseLines_filterMap {α : Type} {g : List Char → Option α} (hg : g [] = none)
    (body : String) : (responseLines body).filterMap g = (trimmedLines body.toList).filterMap g := by
  rw [← filterMap_lines hg, responseLines, List.filterMap_filter]
  refine List.filterMap_congr fun line _ => ?_
  cases line with
  | nil => simp [hg]
  | cons c cs => rfl

def joined (name : String) (path : FieldPath) (lines : List (List Char)) :
    Except ClientError String :=
  if lines.filterMap (lineText? path) = [] then
    match lines.findSome? (lineError? path) with
    | some e => .error (.missingField name e)
    | none => .error (.malformed name "no JSON fragments in response")
  else .ok (String.join (lines.filterMap (lineText? path)))

theorem ofLines_eq (name : String) (d : Descriptor) (body : String) :
    ofLines name d body = joined name d.responseField (trimmedLines body.toList) := by
  rw [ofLines, foldl_add, joined, ← List.head?_filterMap, ← List.head?_filterMap,
    responseLines_filterMap (lineText?_nil _), responseLines_filterMap (lineError?_nil _)]
  cases (trimmedLines body.toList).filterMap (lineText? d.responseField) with
  | nil =>
    dsimp only
    rw [if_neg (by simp), if_pos rfl]
    cases (List.filterMap (lineError? d.responseField) (trimmedLines body.toList)).head? <;> rfl
  | cons text texts => simp

end Lines

section Objects

variable {path : FieldPath} {cs ds : List Char} {texts more : List String} {fuel depth : Nat}
  {j : Json} {r : List Char}

/-- Blanks and objects in the compact form, and the texts that stand at the path in these. -/
inductive Objects (path : FieldPath) : List Char → List String → Prop
  | nil : Objects path [] []
  | blank {c : Char} {cs : List Char} {texts : List String} (hc : isBlank c = true)
      (rest : Objects path cs texts) : Objects path (c :: cs) texts
  | object {fields : List (String × Json)} {cs : List Char} {texts : List String}
      (hj : Legible (depthLimit - 1) (.obj fields)) (rest : Objects path cs texts) :
      Objects path (compactChars (.obj fields) ++ cs)
        ((path.lookupText (.obj fields)).toOption.toList ++ texts)

theorem Objects.append (h : Objects path cs texts) (hmore : Objects path ds more) :
    Objects path (cs ++ ds) (texts ++ more) := by
  induction h with
  | nil => exact hmore
  | blank hc _ ih => exact .blank hc ih
  | object hj _ ih =>
    rw [List.append_assoc, List.append_assoc]
    exact .object hj ih

theorem objects_blanks (h : ∀ c ∈ cs, isBlank c = true) : Objects path cs [] := by
  induction cs with
  | nil => exact .nil
  | cons c cs ih =>
    obtain ⟨hc, hcs⟩ := List.forall_mem_cons.1 h
    exact .blank hc (ih hcs)

theorem isBlank_ne {c d : Char} (hc : isBlank c = true) (hd : isBlank d = false) : c ≠ d := by
  rintro rfl
  rw [hc] at hd
  cases hd

theorem isDigit_of_isBlank {c : Char} (hc : isBlank c = true) : Decimal.isDigit c = false := by
  refine Bool.eq_false_iff.2 fun hdigit => ?_
  rw [isDigit_eq, Char.isDigit_iff_toNat] at hdigit
  have hle := le_space_of_isBlank hc (Nat.lt_of_le_of_lt hdigit.2 (by decide))
  exact absurd (Nat.le_trans hdigit.1 hle) (by decide)

theorem Objects.ends (h : Objects path cs texts) : Ends cs := by
  cases h with
  | nil => exact ends_nil
  | blank hc _ =>
    exact ends_cons ⟨isDigit_of_isBlank hc, isBlank_ne hc (by decide), isBlank_ne hc (by decide),
      isBlank_ne hc (by decide)⟩
  | @object fields _ _ _ _ =>
    obtain ⟨inner, hinner⟩ := compactChars_obj fields
    rw [hinner]
    exact ends_cons (by decide)

theorem Objects.no_texts (h : Objects path cs texts) (hcs : skipSpace cs = []) : texts = [] := by
  induction h with
  | nil => rfl
  | blank _ _ ih =>
    refine ih (List.dropWhile_eq_nil_iff.2 fun c hc => ?_)
    exact List.dropWhile_eq_nil_iff.1 hcs c (List.mem_cons_of_mem _ hc)
  | @object fields _ _ _ _ _ =>
    obtain ⟨inner, hinner⟩ := compactChars_obj fields
    rw [hinner, List.cons_append, List.cons_append, skipSpace_cons (by decide)] at hcs
    cases hcs

theorem value_blank {c : Char} (hc : isBlank c = true) (hspace : isSpace c = false)
    (cs : List Char) : ∃ e, value (fuel + 1) depth (c :: cs) = .error e := by
  rw [value, skipSpace_cons hspace]
  dsimp only
  rw [if_neg (isBlank_ne hc (by decide)), if_neg (isBlank_ne hc (by decide)),
    if_neg (isBlank_ne hc (by decide)), if_neg (isBlank_ne hc (by decide)),
    if_neg (isBlank_ne hc (by decide)), if_neg (isBlank_ne hc (by decide)),
    if_neg (isBlank_ne hc (by decide)), isDigit_of_isBlank hc, if_neg Bool.false_ne_true]
  exact ⟨_, rfl⟩

/-- What is one document holds one object, and the text of that is all the text there is. -/
theorem Objects.of_document (h : Objects path cs texts) (hfuel : 2 * cs.length ≤ fuel)
    (hv : value (fuel + 1) (depthLimit - 1) cs = .ok (j, r)) (hr : skipSpace r = []) :
    texts = (path.lookupText j).toOption.toList := by
  induction h with
  | nil =>
    rw [value] at hv
    cases hv
  | @blank c cs texts hc _ ih =>
    rw [List.length_cons] at hfuel
    cases hspace : isSpace c with
    | true =>
      refine ih (by omega) ?_
      rw [← hv, ← value_skipSpace cs, ← value_skipSpace (c :: cs)]
      exact congrArg _ (List.dropWhile_cons_of_pos hspace).symm
    | false =>
      obtain ⟨e, he⟩ : ∃ e, value (fuel + 1) (depthLimit - 1) (c :: cs) = .error e :=
        value_blank hc hspace cs
      rw [he] at hv
      cases hv
  | @object fields cs texts hj hrest ih =>
    rw [List.length_append] at hfuel
    rw [hj.reads (fuel + 1) _ cs (by omega) (Nat.le_refl _) hrest.ends] at hv
    cases hv
    rw [hrest.no_texts hr, List.append_nil, lookupText_normal hj]

end Objects

section Streams

variable {path : FieldPath} {line : List Char} {lines : List (List Char)} {text : Option String}
  {found : List (Option String)}

def Margin (cs : List Char) : Prop := ∀ c ∈ cs, isBlank c = true ∧ c ≠ '\n'

/-- A line is blank, or it holds an object in the compact form, which may have a text at the
path. -/
inductive Carries (path : FieldPath) : List Char → Option String → Prop
  | blank {line : List Char} (h : Margin line) : Carries path line none
  | object {before after : List Char} {fields : List (String × Json)} (hbefore : Margin before)
      (hafter : Margin after) (hj : Legible (depthLimit - 1) (.obj fields)) :
      Carries path (before ++ compactChars (.obj fields) ++ after)
        (path.lookupText (.obj fields)).toOption

theorem Margin.isBlank {cs : List Char} (h : Margin cs) : ∀ c ∈ cs, Text.isBlank c = true :=
  fun c hc => (h c hc).1

theorem Carries.objects (h : Carries path line text) : Objects path line text.toList := by
  cases h with
  | blank h => exact objects_blanks h.isBlank
  | object hbefore hafter hj =>
    have hstart : Objects path _ [] := objects_blanks hbefore.isBlank
    have hend : Objects path _ [] := objects_blanks hafter.isBlank
    have hobject := hstart.append (.object hj hend)
    rwa [List.append_nil, List.nil_append, ← List.append_assoc] at hobject

theorem Carries.one_line (h : Carries path line text) : '\n' ∉ line := by
  cases h with
  | blank h => exact fun hc => (h _ hc).2 rfl
  | object hbefore hafter hj =>
    intro hc
    rcases List.mem_append.1 hc with hc | hc
    · rcases List.mem_append.1 hc with hc | hc
      · exact (hbefore _ hc).2 rfl
      · exact absurd (hj.printable _ hc) (by decide)
    · exact (hafter _ hc).2 rfl

theorem Carries.lineText? (h : Carries path line text) :
    Backend.lineText? path (trimChars line) = text := by
  cases h with
  | blank h => rw [trimChars_eq_nil_iff.2 h.isBlank, lineText?_nil]
  | @object before after fields hbefore hafter hj =>
    have htrim : trimChars (compactChars (.obj fields)) = compactChars (.obj fields) := by
      obtain ⟨inner, hinner⟩ := compactChars_obj fields
      rw [hinner]
      exact trimChars_enclosed (by decide) (by decide) inner
    rw [trimChars_between hbefore.isBlank hafter.isBlank, htrim, Backend.lineText?,
      parse?_of_reads hj.reads, Option.bind_some, lookupText_normal hj]

theorem objects_lines (h : List.Forall₂ (Carries path) lines found) :
    Objects path (['\n'].intercalate lines) found.reduceOption := by
  induction h with
  | nil => exact .nil
  | @cons line text lines found hline hlines ih =>
    have hfound : (text :: found).reduceOption = text.toList ++ found.reduceOption := by
      cases text <;> rfl
    rw [hfound]
    cases hlines with
    | nil =>
      rw [List.reduceOption_nil, List.append_nil, List.intercalate_singleton]
      exact hline.objects
    | cons _ _ =>
      rw [List.intercalate_cons_cons, List.append_assoc]
      exact hline.objects.append (.blank (by decide) ih)

theorem filterMap_lineText? (h : List.Forall₂ (Carries path) lines found) :
    (lines.map trimChars).filterMap (lineText? path) = found.reduceOption := by
  induction h with
  | nil => rfl
  | @cons line text lines found hline _ ih =>
    rw [List.map_cons, List.filterMap_cons, hline.lineText?, ih]
    cases text <;> rfl

/-- The texts are found by lines as well, whether or not the lines are one document. -/
theorem ofDocument_lines (name : String) {d : Descriptor}
    (h : List.Forall₂ (Carries d.responseField) lines found) (hsome : found.reduceOption ≠ [])
    {j : Json} (hj : Json.parse (String.ofList (['\n'].intercalate lines)) = .ok j) :
    ofDocument name d j = .ok (String.join found.reduceOption) := by
  have hdocument := document_of_parse hj
  rw [String.toList_ofList] at hdocument
  obtain ⟨r, hv, hr⟩ := value_of_document hdocument
  have hone := (objects_lines h).of_document (Nat.le_succ _) hv hr
  rw [ofDocument]
  cases hl : d.responseField.lookupText j with
  | error e =>
    rw [hl] at hone
    exact absurd hone hsome
  | ok text =>
    rw [hone, hl]
    simp [Except.toOption]

/-- The answer in a body that is not one document, by the trimmed lines of the body. -/
structure FromLines (name : String) (path : FieldPath) (lines : List (List Char))
    (answer : Except ClientError String) : Prop where
  ok_iff : (∃ text, answer = .ok text) ↔ ∃ line ∈ lines, ∃ text, lineText? path line = some text
  concatenated : ∀ text, answer = .ok text →
    text = String.join (lines.filterMap (lineText? path))
  first_json : (∀ line ∈ lines, lineText? path line = none) → ∀ front line back e,
    lines = front ++ line :: back → (∀ l ∈ front, Json.parse? (String.ofList l) = none) →
      lineError? path line = some e → answer = .error (.missingField name e)
  no_json : (∀ line ∈ lines, Json.parse? (String.ofList line) = none) →
    answer = .error (.malformed name "no JSON fragments in response")

theorem lineText?_of_no_json (h : Json.parse? (String.ofList line) = none) :
    lineText? path line = none := by rw [lineText?, h, Option.bind_none]

theorem lineError?_of_no_json (h : Json.parse? (String.ofList line) = none) :
    lineError? path line = none := by rw [lineError?, h, Option.bind_none]

theorem fromLines_joined (name : String) (path : FieldPath) (lines : List (List Char)) :
    FromLines name path lines (joined name path lines) := by
  have hnone (h : ∀ line ∈ lines, lineText? path line = none) : joined name path lines =
      match lines.findSome? (lineError? path) with
      | some e => .error (.missingField name e)
      | none => .error (.malformed name "no JSON fragments in response") :=
    if_pos (List.filterMap_eq_nil_iff.2 h)
  have hfailed (h : ∀ line ∈ lines, lineText? path line = none) (text : String) :
      joined name path lines ≠ .ok text := by
    rw [hnone h]
    cases lines.findSome? (lineError? path) <;> exact fun h => by cases h
  constructor
  case ok_iff =>
    constructor
    · rintro ⟨text, htext⟩
      by_contra hall
      refine hfailed (fun line hline => ?_) text htext
      exact Option.eq_none_iff_forall_ne_some.2 fun t ht => hall ⟨line, hline, t, ht⟩
    · rintro ⟨line, hline, text, htext⟩
      refine ⟨_, if_neg fun hnil => ?_⟩
      rw [List.filterMap_eq_nil_iff.1 hnil line hline] at htext
      cases htext
  case concatenated =>
    intro text htext
    rw [joined] at htext
    split at htext
    · cases hfirst : lines.findSome? (lineError? path) <;> rw [hfirst] at htext <;> cases htext
    · cases htext
      rfl
  case first_json =>
    rintro h front line back e rfl hfront hline
    have hbefore : front.findSome? (lineError? path) = none :=
      List.findSome?_eq_none_iff.2 fun l hl => lineError?_of_no_json (hfront l hl)
    rw [hnone h, List.findSome?_append, hbefore, Option.none_or, List.findSome?_cons, hline]
  case no_json =>
    intro h
    have hfirst : lines.findSome? (lineError? path) = none :=
      List.findSome?_eq_none_iff.2 fun l hl => lineError?_of_no_json (h l hl)
    rw [hnone fun l hl => lineText?_of_no_json (h l hl), hfirst]

/-- Streams of fragments are put together without loss. -/
theorem responseText_ndjson (name : String) {d : Descriptor} (hd : d.framing = .ndjson) :
    (∀ lines found, List.Forall₂ (Carries d.responseField) lines found →
      found.reduceOption ≠ [] →
        responseText name d (String.ofList (['\n'].intercalate lines)) =
          .ok (String.join found.reduceOption)) ∧
    (∀ body j, Json.parse body = .ok j →
      responseText name { d with framing := .json } body = responseText name d body) ∧
    ∀ body e, Json.parse body = .error e →
      FromLines name d.responseField (trimmedLines body.toList) (responseText name d body) := by
  have hlines {body : String} {e : String} (he : Json.parse body = .error e) :
      responseText name d body = joined name d.responseField (trimmedLines body.toList) := by
    rw [responseText, he, hd]
    exact ofLines_eq name d body
  have hdocument (d : Descriptor) {body : String} {j : Json} (hj : Json.parse body = .ok j) :
      responseText name d body = ofDocument name d j := by rw [responseText, hj]
  refine ⟨fun lines found h hsome => ?_, fun body j hj => ?_, fun body e he => ?_⟩
  · cases hparse : Json.parse (String.ofList (['\n'].intercalate lines)) with
    | ok j =>
      rw [hdocument d hparse]
      exact ofDocument_lines name h hsome hparse
    | error e =>
      have hne : lines ≠ [] := by
        rintro rfl
        cases h
        exact hsome rfl
      have hone : ∀ line ∈ lines, '\n' ∉ line := by
        intro line hline
        obtain ⟨i, hi, rfl⟩ := List.getElem_of_mem hline
        exact (List.forall₂_iff_get.1 h |>.2 i hi (h.length_eq ▸ hi)).one_line
      rw [hlines hparse, trimmedLines, String.toList_ofList, splitWhere_intercalate hne hone,
        joined, filterMap_lineText? h, if_neg hsome]
  · rw [hdocument d hj, hdocument _ hj]
    rfl
  · rw [hlines he]
    exact fromLines_joined name d.responseField _

theorem responseText_ndjson_ollama :
    Descriptor.ollama.framing = .ndjson ∧
      responseText "ollama" Descriptor.ollama
        "\x7b\"response\":\"a\\nb\"\x7d\r\n\n\x7b\"done\":false\x7d\n\x7b\"response\":\"c\"\x7d\n" =
          .ok "a\nbc" ∧
      responseText "ollama" Descriptor.ollama "x" =
        .error (.malformed "ollama" "no JSON fragments in response") := by
  have hndjson := responseText_ndjson "ollama" (rfl : Descriptor.ollama.framing = .ndjson)
  refine ⟨rfl, ?_, ?_⟩
  · have hobject (key : String) {j : Json} (hj : Legible 126 j) :
        Legible (depthLimit - 1) (.obj [(key, j)]) :=
      .obj (List.nodup_singleton key) (List.forall_mem_singleton.2 hj)
    have hnone : Margin [] := List.forall_mem_nil _
    have hreturn : Margin ['\r'] := List.forall_mem_singleton.2 (by decide)
    have hfirst : Carries Descriptor.ollama.responseField _ _ :=
      .object hnone hreturn (hobject "response" (.str _ "a\nb"))
    have hlines := List.Forall₂.cons hfirst
      (.cons (.blank hnone) (.cons (.object hnone hnone (hobject "done" (.bool _ false)))
        (.cons (.object hnone hnone (hobject "response" (.str _ "c")))
          (.cons (.blank hnone) .nil))))
    refine Eq.trans (congrArg _ ?_) (hndjson.1 _ _ hlines (by decide))
    exact String.toList_inj.1 ((by decide : _ = _).trans String.toList_ofList.symm)
  · have hx : document "x".toList = .error ⟨.expectedValue, ['x'], 1⟩ := by
      rw [document, value]
      rfl
    have herror : Json.parse "x" = .error (Stop.message ⟨.expectedValue, ['x'], 1⟩ "x".toList) := by
      rw [Json.parse, hx]
    refine (hndjson.2.2 "x" _ herror).no_json fun line hline => ?_
    obtain rfl : line = "x".toList := List.mem_singleton.1 hline
    rw [String.ofList_toList, Json.parse?, herror]
    rfl

end Streams
end Anneal.Backend
