import Anneal.Proofs.Keyed
import Anneal.Proofs.Text.Blank
import Anneal.Proofs.Text.Search
import Anneal.Tool.Choice

/-!
# Reading tool choices

A reply is searched for the section of the choice, for the place in it that names a tool first, and
for the action. Main statement: every reply has one verdict, its tool and action or the first of
the parts that is missing, and a reply in the usual layout gives the tool of its label and its
action, whatever text the action is.
-/

namespace Anneal

open Anneal.Text

namespace Tool

/-- The words that stand for a tool. -/
def labels : Tool → List String
  | .converter => ["convert", "converter"]
  | .modifier => ["repair", "modifier", "fix"]
  | .explainer => ["explain", "explainer"]

theorem mem_aliases {key : String} {t : Tool} : (key, t) ∈ aliases ↔ key ∈ t.labels := by
  cases t <;> simp [aliases, labels]

theorem lookup_aliases_eq_some_iff {key : String} {t : Tool} :
    aliases.lookup key = some t ↔ key ∈ t.labels := by
  have hn : (Keyed.keys aliases).Nodup := by decide
  exact (Keyed.get?_eq_some_iff hn).trans mem_aliases

theorem lookup_aliases_eq_none_iff {key : String} :
    aliases.lookup key = none ↔ ∀ t : Tool, key ∉ t.labels := by
  simp only [← lookup_aliases_eq_some_iff, Option.eq_none_iff_forall_ne_some, ne_eq]

theorem labels_lower {t : Tool} {key : String} (h : key ∈ t.labels) :
    key ≠ "" ∧ ∀ c ∈ key.toList, 'a' ≤ c ∧ c ≤ 'z' := by
  have hall : t.labels.all (fun key => key ≠ "" && key.toList.all fun c => 'a' ≤ c && c ≤ 'z') := by
    cases t <;> rfl
  have hkey := List.all_eq_true.1 hall key h
  simpa only [Bool.and_eq_true, decide_eq_true_eq, List.all_eq_true] using hkey

end Tool

namespace ToolChoice

variable {cs label inner : List Char} {c : Char}

def LabelChar (c : Char) : Prop :=
  'A' ≤ c ∧ c ≤ 'Z' ∨ 'a' ≤ c ∧ c ≤ 'z' ∨ c ∈ ['\u017F', '\u212A', '_', '-']

theorem isLabelChar_iff : isLabelChar c = true ↔ LabelChar c := by
  have halpha : c.isAlpha = (decide ('A' ≤ c ∧ c ≤ 'Z') || ('a' ≤ c && c ≤ 'z')) := rfl
  simp only [isLabelChar, LabelChar, halpha, Bool.or_eq_true, Bool.and_eq_true, decide_eq_true_eq,
    List.mem_cons, List.not_mem_nil]
  tauto

instance : DecidablePred LabelChar := fun _ => decidable_of_iff _ isLabelChar_iff

theorem not_blank_between {a b : Char} (ha : 0x20 < a.toNat) (hb : b.toNat < 0x80)
    (h : a ≤ c ∧ c ≤ b) : isBlank c = false := by
  have hlow : a.toNat ≤ c.toNat := UInt32.le_iff_toNat_le.1 h.1
  have hhigh : c.toNat ≤ b.toNat := UInt32.le_iff_toNat_le.1 h.2
  rw [Bool.eq_false_iff]
  intro hblank
  have hspace := le_space_of_isBlank hblank (by omega)
  omega

theorem LabelChar.not_blank (h : LabelChar c) : isBlank c = false := by
  obtain h | h | h := h
  · exact not_blank_between (by decide) (by decide) h
  · exact not_blank_between (by decide) (by decide) h
  · simp only [List.mem_cons, List.not_mem_nil, or_false] at h
    rcases h with h | h | h | h <;> subst h <;> decide

theorem labelChar_of_toLower (h : 'a' ≤ c.toLower ∧ c.toLower ≤ 'z') : LabelChar c := by
  unfold Char.toLower at h
  split at h
  next hupper => exact .inl hupper
  next => exact .inr (.inl h)

structure Naming where
  word : List Char
  gap : List Char
  gap' : List Char
  label : List Char
  back : List Char
  word_lower : lowerChars word = "tool".toList
  gap_blank : ∀ c ∈ gap, isBlank c = true
  gap_blank' : ∀ c ∈ gap', isBlank c = true
  label_ne_nil : label ≠ []
  label_chars : ∀ c ∈ label, LabelChar c
  label_over : ∀ c ∈ back.head?, ¬ LabelChar c

namespace Naming

def text (n : Naming) : List Char := n.word ++ (n.gap ++ ':' :: (n.gap' ++ (n.label ++ n.back)))

theorem label_read (n : Naming) : (n.label ++ n.back).takeWhile isLabelChar = n.label := by
  have hback : n.back.takeWhile isLabelChar = [] := by
    have hover := n.label_over
    cases hb : n.back with
    | nil => rfl
    | cons b back =>
      rw [hb] at hover
      exact List.takeWhile_cons_of_neg fun hlabel => hover b rfl (isLabelChar_iff.1 hlabel)
  rw [List.takeWhile_append_of_pos fun c hc => isLabelChar_iff.2 (n.label_chars c hc), hback,
    List.append_nil]

theorem label_trimmed (n : Naming) :
    trimStartChars (n.label ++ n.back) = n.label ++ n.back := by
  obtain ⟨c, rest, hlabel⟩ := List.exists_cons_of_ne_nil n.label_ne_nil
  have hc : isBlank c = false := (n.label_chars c (by simp [hlabel])).not_blank
  rw [hlabel]
  exact List.dropWhile_cons_of_neg (by simp [hc])

theorem read (n : Naming) : labelHere? n.text = some n.label := by
  have hlength : n.word.length = 4 := by
    have h := congrArg List.length n.word_lower
    rwa [lowerChars, List.length_map] at h
  have hcolon (rest : List Char) : trimStartChars (':' :: rest) = ':' :: rest :=
    List.dropWhile_cons_of_neg (by decide)
  rw [labelHere?, text, List.take_left' hlength, List.drop_left' hlength, if_pos n.word_lower,
    trimStartChars_append n.gap_blank, hcolon]
  simp only [trimStartChars_append n.gap_blank', n.label_trimmed, n.label_read,
    List.isEmpty_iff, n.label_ne_nil, if_false]

end Naming

theorem naming_of_labelHere? (h : labelHere? cs = some label) :
    ∃ n : Naming, n.text = cs ∧ n.label = label := by
  unfold labelHere? at h
  split at h
  next hword =>
    split at h
    next rest hrest =>
      dsimp only at h
      split at h
      next => cases h
      next hne =>
        cases h
        obtain ⟨gap, hgap, hcs⟩ := trimStartChars_spec (cs.drop 4)
        obtain ⟨gap', hgap', hrest'⟩ := trimStartChars_spec rest
        refine ⟨⟨cs.take 4, gap, gap', _, (trimStartChars rest).dropWhile isLabelChar, hword,
          hgap, hgap', by simpa using hne, ?_, ?_⟩, ?_, rfl⟩
        · intro c hc
          exact isLabelChar_iff.1 (List.mem_takeWhile_imp hc)
        · intro c hc hlabel
          have hover := List.head?_dropWhile_not isLabelChar (trimStartChars rest)
          rw [Option.mem_def.1 hc] at hover
          exact Bool.false_ne_true (hover.symm.trans (isLabelChar_iff.2 hlabel))
        · rw [Naming.text, List.takeWhile_append_dropWhile, ← hrest', ← hrest, ← hcs,
            List.take_append_drop]
    next => cases h
  next => cases h

def FirstLabel (text label : List Char) : Prop :=
  ∃ (front : List Char) (n : Naming), text = front ++ n.text ∧ n.label = label ∧
    ∀ (front' : List Char) (n' : Naming), text = front' ++ n'.text → front.length ≤ front'.length

theorem firstLabel_text_iff (n : Naming) : FirstLabel n.text label ↔ n.label = label := by
  constructor
  · intro ⟨front, n', htext, hlabel, hfirst⟩
    have hfront : front = [] := by simpa using hfirst [] n rfl
    subst hfront
    have hread := n.read
    rw [htext, List.nil_append, n'.read] at hread
    exact (Option.some.inj hread).symm.trans hlabel
  · intro hlabel
    exact ⟨[], n, rfl, hlabel, fun _ _ _ => Nat.zero_le _⟩

theorem eq_append_text_iff (h : labelHere? (c :: cs) = none) {front : List Char} {n : Naming} :
    c :: cs = front ++ n.text ↔ ∃ rest, front = c :: rest ∧ cs = rest ++ n.text := by
  rw [List.cons_eq_append_iff, or_iff_right]
  intro ⟨_, htext⟩
  rw [← htext, n.read] at h
  cases h

theorem firstLabel_cons_iff (h : labelHere? (c :: cs) = none) :
    FirstLabel (c :: cs) label ↔ FirstLabel cs label := by
  constructor
  · intro ⟨front, n, htext, hlabel, hfirst⟩
    obtain ⟨rest, rfl, hcs⟩ := (eq_append_text_iff h).1 htext
    refine ⟨rest, n, hcs, hlabel, fun front' n' htext' => ?_⟩
    have hle := hfirst (c :: front') n' (by rw [htext', List.cons_append])
    simpa using hle
  · intro ⟨front, n, htext, hlabel, hfirst⟩
    refine ⟨c :: front, n, by rw [htext, List.cons_append], hlabel, fun front' n' htext' => ?_⟩
    obtain ⟨rest, rfl, hcs⟩ := (eq_append_text_iff h).1 htext'
    simpa using hfirst rest n' hcs

theorem label?_eq_some_iff : label? cs = some label ↔ FirstLabel cs label := by
  induction cs with
  | nil => simp [label?, FirstLabel, Naming.text]
  | cons c cs ih =>
    rw [label?]
    cases hhere : labelHere? (c :: cs) with
    | none => rw [firstLabel_cons_iff hhere, ← ih, Option.orElse_none]
    | some here =>
      -- Nothing begins before a naming that the text begins with.
      obtain ⟨n, htext, hlabel⟩ := naming_of_labelHere? hhere
      rw [← htext, firstLabel_text_iff, hlabel, Option.orElse_some, Option.some_inj]

theorem label?_eq_none_iff :
    label? cs = none ↔ ∀ (front : List Char) (n : Naming), cs ≠ front ++ n.text := by
  induction cs with
  | nil => simp [label?, Naming.text]
  | cons c cs ih =>
    rw [label?]
    cases hhere : labelHere? (c :: cs) with
    | none =>
      rw [Option.orElse_none, ih]
      simp only [ne_eq, eq_append_text_iff hhere, not_exists, not_and]
      constructor
      · intro h front n rest _
        exact h rest n
      · intro h rest n
        exact h (c :: rest) n rest rfl
    | some here =>
      obtain ⟨n, htext, -⟩ := naming_of_labelHere? hhere
      simp only [Option.orElse_some, reduceCtorEq, false_iff, not_forall, not_not, ne_eq]
      exact ⟨[], n, htext.symm⟩

theorem FirstLabel.trim (h : FirstLabel cs label) :
    trim (String.ofList label) = String.ofList label := by
  obtain ⟨-, n, -, rfl, -⟩ := h
  rw [Text.trim, String.toList_ofList,
    trimChars_eq_self fun c hc => (n.label_chars c hc).not_blank]

theorem FirstLabel.toolOfLabel_eq_ok {t : Tool} (h : FirstLabel cs label)
    (htool : lowerAscii (String.ofList label) ∈ t.labels) :
    toolOfLabel (String.ofList label) = .ok t := by
  simp only [toolOfLabel, h.trim, Tool.lookup_aliases_eq_some_iff.2 htool]

theorem FirstLabel.toolOfLabel_eq_error (h : FirstLabel cs label)
    (htool : ∀ t : Tool, lowerAscii (String.ofList label) ∉ t.labels) :
    toolOfLabel (String.ofList label) =
      .error (.unknownLabel (lowerAscii (String.ofList label))) := by
  simp only [toolOfLabel, h.trim, Tool.lookup_aliases_eq_none_iff.2 htool]

inductive ChoiceSection (reply : List Char) : List Char → Prop
  | closed {front behind inner rest : List Char}
      (hchoice : FirstPlace choiceMark reply front behind)
      (haction : FirstPlace actionMark behind inner rest) : ChoiceSection reply inner
  | unclosed {front behind : List Char} (hchoice : FirstPlace choiceMark reply front behind)
      (haction : ¬ actionMark <:+: behind) : ChoiceSection reply behind

theorem choiceSection?_eq_some_iff {reply : List Char} :
    choiceSection? reply = some inner ↔ ChoiceSection reply inner := by
  rw [choiceSection?, Option.map_eq_some_iff]
  constructor
  · intro ⟨⟨front, behind⟩, hbreak, hinner⟩
    have hchoice := breakOn_eq_some_iff_firstPlace.1 hbreak
    dsimp only at hinner
    split at hinner
    next haction =>
      subst hinner
      exact .closed hchoice (breakOn_eq_some_iff_firstPlace.1 haction)
    next haction =>
      subst hinner
      exact .unclosed hchoice (breakOn_eq_none_iff.1 haction)
  · intro h
    cases h with
    | closed hchoice haction =>
      refine ⟨_, breakOn_eq_some_iff_firstPlace.2 hchoice, ?_⟩
      simp only [breakOn_eq_some_iff_firstPlace.2 haction]
    | unclosed hchoice haction =>
      refine ⟨_, breakOn_eq_some_iff_firstPlace.2 hchoice, ?_⟩
      simp only [breakOn_eq_none_iff.2 haction]

theorem choiceSection?_eq_none_iff {reply : List Char} :
    choiceSection? reply = none ↔ ¬ choiceMark <:+: reply := by
  rw [choiceSection?, Option.map_eq_none_iff, breakOn_eq_none_iff]

/-- What a reply comes to: the first part that is missing or wrong, or a tool and its action. The
action is sought in the whole reply. -/
inductive Verdict (reply : String) : Except RoutingError ToolChoice → Prop
  | noSection (hsection : ¬ choiceMark <:+: reply.toList) :
      Verdict reply (.error (.missingSection "TOOL_CHOICE"))
  | noLabel {inner : List Char} (hsection : ChoiceSection reply.toList inner)
      (hlabel : ∀ (front : List Char) (n : Naming), inner ≠ front ++ n.text) :
      Verdict reply (.error .missingLabel)
  | unknown {inner label : List Char} (hsection : ChoiceSection reply.toList inner)
      (hlabel : FirstLabel inner label)
      (htool : ∀ t : Tool, lowerAscii (String.ofList label) ∉ t.labels) :
      Verdict reply (.error (.unknownLabel (lowerAscii (String.ofList label))))
  | noAction {inner label : List Char} {t : Tool} (hsection : ChoiceSection reply.toList inner)
      (hlabel : FirstLabel inner label) (htool : lowerAscii (String.ofList label) ∈ t.labels)
      (haction : ¬ actionMark <:+: reply.toList) :
      Verdict reply (.error (.missingSection "ACTION"))
  | chosen {inner label front action : List Char} {t : Tool}
      (hsection : ChoiceSection reply.toList inner) (hlabel : FirstLabel inner label)
      (htool : lowerAscii (String.ofList label) ∈ t.labels)
      (haction : FirstPlace actionMark reply.toList front action) :
      Verdict reply (.ok ⟨t, trim (String.ofList action)⟩)

theorem verdict_parse (reply : String) : Verdict reply (parse reply) := by
  unfold parse
  split
  next hsection => exact .noSection (choiceSection?_eq_none_iff.1 hsection)
  next inner hsection =>
    have hsection := choiceSection?_eq_some_iff.1 hsection
    split
    next hlabel => exact .noLabel hsection (label?_eq_none_iff.1 hlabel)
    next label hlabel =>
      have hlabel := label?_eq_some_iff.1 hlabel
      by_cases htool : ∃ t : Tool, lowerAscii (String.ofList label) ∈ t.labels
      · obtain ⟨t, htool⟩ := htool
        rw [hlabel.toolOfLabel_eq_ok htool]
        dsimp only
        split
        next haction => exact .noAction hsection hlabel htool (breakOn_eq_none_iff.1 haction)
        next front action haction =>
          have hchosen := Verdict.chosen hsection hlabel htool
            (breakOn_eq_some_iff_firstPlace.1 haction)
          rwa [trim, String.toList_ofList] at hchosen
      · have htool := not_exists.1 htool
        rw [hlabel.toolOfLabel_eq_error htool]
        exact .unknown hsection hlabel htool

theorem Verdict.parse_eq {reply : String} {r : Except RoutingError ToolChoice}
    (h : Verdict reply r) : parse reply = r := by
  unfold parse
  cases h with
  | noSection hsection => simp only [choiceSection?_eq_none_iff.2 hsection]
  | noLabel hsection hlabel =>
    simp only [choiceSection?_eq_some_iff.2 hsection, label?_eq_none_iff.2 hlabel]
  | unknown hsection hlabel htool =>
    simp only [choiceSection?_eq_some_iff.2 hsection, label?_eq_some_iff.2 hlabel,
      hlabel.toolOfLabel_eq_error htool]
  | noAction hsection hlabel htool haction =>
    simp only [choiceSection?_eq_some_iff.2 hsection, label?_eq_some_iff.2 hlabel,
      hlabel.toolOfLabel_eq_ok htool, breakOn_eq_none_iff.2 haction]
  | chosen hsection hlabel htool haction =>
    simp only [choiceSection?_eq_some_iff.2 hsection, label?_eq_some_iff.2 hlabel,
      hlabel.toolOfLabel_eq_ok htool, breakOn_eq_some_iff_firstPlace.2 haction, trim,
      String.toList_ofList]

theorem parse_eq_iff {reply : String} {r : Except RoutingError ToolChoice} :
    parse reply = r ↔ Verdict reply r := by
  constructor
  · intro h
    rw [← h]
    exact verdict_parse reply
  · exact Verdict.parse_eq

section Layout

/-- The layout that a router is asked for, behind a preface. -/
def layout (preface label action : String) : String :=
  preface ++ "[TOOL_CHOICE]\ntool: " ++ label ++ "\n\n[ACTION]\n" ++ action ++ "\n"

def choiceLines (label : String) : List Char :=
  '\n' :: ("tool: ".toList ++ (label.toList ++ ['\n', '\n']))

variable {preface label action : String} {t : Tool}

theorem label_chars (h : lowerAscii label ∈ t.labels) : ∀ c ∈ label.toList, LabelChar c := by
  intro c hc
  refine labelChar_of_toLower ((Tool.labels_lower h).2 c.toLower ?_)
  rw [lowerAscii, String.toList_ofList, lowerChars]
  exact List.mem_map_of_mem hc

theorem label_ne_nil (h : lowerAscii label ∈ t.labels) : label.toList ≠ [] := by
  intro hnil
  refine (Tool.labels_lower h).1 ?_
  rw [lowerAscii, hnil]
  rfl

theorem toList_layout (preface label action : String) :
    (layout preface label action).toList = preface.toList ++ choiceMark ++
      (choiceLines label ++ actionMark ++ ('\n' :: action.toList ++ ['\n'])) := by
  have hchoice : "[TOOL_CHOICE]\ntool: ".toList = choiceMark ++ '\n' :: "tool: ".toList := rfl
  have haction : "\n\n[ACTION]\n".toList = '\n' :: '\n' :: (actionMark ++ ['\n']) := rfl
  have hend : "\n".toList = ['\n'] := rfl
  rw [layout, choiceLines]
  simp only [String.toList_append, hchoice, haction, hend, List.append_assoc,
    List.cons_append, List.nil_append]

theorem bracket_notMem_choiceLines (h : lowerAscii label ∈ t.labels) :
    '[' ∉ choiceLines label := by
  have hlabel : '[' ∉ label.toList := fun hmem => absurd (label_chars h _ hmem) (by decide)
  simp [choiceLines, hlabel]

theorem firstLabel_choiceLines (h : lowerAscii label ∈ t.labels) :
    FirstLabel (choiceLines label) label.toList := by
  have hfirst (rest : List Char) : labelHere? ('\n' :: rest) = none := by
    have hlower : lowerChars (('\n' :: rest).take 4) ≠ "tool".toList := by
      intro he
      exact absurd (List.cons.inj he).1 (by decide)
    rw [labelHere?, if_neg hlower]
  have hspace : ∀ c ∈ [' '], isBlank c = true := List.forall_mem_singleton.2 (by decide)
  have hover : ¬ LabelChar '\n' := by decide
  let n : Naming := ⟨"tool".toList, [], [' '], label.toList, ['\n', '\n'], rfl, by simp,
    hspace, label_ne_nil h, label_chars h, by simpa using hover⟩
  rw [choiceLines, firstLabel_cons_iff (hfirst _)]
  exact (firstLabel_text_iff n).2 rfl

theorem choiceMark_eq : choiceMark = '[' :: 'T' :: "OOL_CHOICE]".toList := rfl

theorem actionMark_eq : actionMark = '[' :: 'A' :: "CTION]".toList := rfl

theorem not_infix_of_notMem (h : '[' ∉ cs) : ¬ actionMark <:+: cs := by
  intro hi
  refine h (hi.subset ?_)
  rw [actionMark_eq]
  exact List.mem_cons_self

theorem firstPlace_mark {mark rest before after : List Char} (hmark : mark = '[' :: rest)
    (hrest : '[' ∉ rest) (h : ¬ mark <:+: before) :
    FirstPlace mark (before ++ mark ++ after) before after := by
  subst hmark
  exact breakOn_eq_some_iff_firstPlace.1 (breakOn_of_head hrest h)

theorem choiceSection_layout (hpreface : ¬ choiceMark <:+: preface.toList)
    (h : lowerAscii label ∈ t.labels) :
    ChoiceSection (layout preface label action).toList (choiceLines label) := by
  rw [toList_layout]
  have hlines := not_infix_of_notMem (bracket_notMem_choiceLines h)
  exact .closed (firstPlace_mark choiceMark_eq (by decide) hpreface)
    (firstPlace_mark actionMark_eq (by decide) hlines)

/-- The action mark cannot begin within the preface, nor with the bracket of the choice mark. -/
theorem not_actionMark_front (hpreface : ¬ actionMark <:+: preface.toList)
    (h : lowerAscii label ∈ t.labels) :
    ¬ actionMark <:+: preface.toList ++ choiceMark ++ choiceLines label := by
  have htail : '[' ∉ actionMark.tail := by decide
  have hrest : '[' ∉ 'T' :: "OOL_CHOICE]".toList := by decide
  rw [choiceMark_eq, List.append_assoc, List.cons_append, infix_append_cons_iff htail,
    List.infix_cons_iff]
  intro hi
  obtain hi | hi | hi := hi
  · exact hpreface hi
  · rw [actionMark_eq, List.cons_prefix_cons, List.cons_append, List.cons_prefix_cons] at hi
    exact absurd hi.2.1 (by decide)
  · refine not_infix_of_notMem ?_ hi
    rw [List.mem_append, not_or]
    exact ⟨hrest, bracket_notMem_choiceLines h⟩

theorem firstPlace_layout (hpreface : ¬ actionMark <:+: preface.toList)
    (h : lowerAscii label ∈ t.labels) :
    FirstPlace actionMark (layout preface label action).toList
      (preface.toList ++ choiceMark ++ choiceLines label)
      ('\n' :: action.toList ++ ['\n']) := by
  have hassoc := List.append_assoc (preface.toList ++ choiceMark)
  rw [toList_layout, ← hassoc, ← hassoc]
  exact firstPlace_mark actionMark_eq (by decide) (not_actionMark_front hpreface h)

theorem verdict_layout (hchoice : ¬ choiceMark <:+: preface.toList)
    (haction : ¬ actionMark <:+: preface.toList) (h : lowerAscii label ∈ t.labels) :
    Verdict (layout preface label action) (.ok ⟨t, trim action⟩) := by
  have htrim : trim (String.ofList ('\n' :: action.toList ++ ['\n'])) = trim action := by
    have hblank : ∀ c ∈ ['\n'], isBlank c = true := List.forall_mem_singleton.2 (by decide)
    rw [trim, String.toList_ofList, trim]
    exact congrArg String.ofList (trimChars_between hblank hblank action.toList)
  rw [← htrim]
  exact .chosen (choiceSection_layout hchoice h) (firstLabel_choiceLines h)
    (by rwa [String.ofList_toList]) (firstPlace_layout haction h)

end Layout

/-- A reply in the usual layout is read, and every reply has the verdict that its parts give. -/
theorem replies_read_or_classified :
    (∀ (preface label action : String) (t : Tool), ¬ choiceMark <:+: preface.toList →
      ¬ actionMark <:+: preface.toList → lowerAscii label ∈ t.labels →
      parse (layout preface label action) = .ok ⟨t, trim action⟩) ∧
    ∀ (reply : String) (r : Except RoutingError ToolChoice), parse reply = r ↔ Verdict reply r := by
  constructor
  · intro preface label action t hchoice haction hlabel
    exact parse_eq_iff.2 (verdict_layout hchoice haction hlabel)
  · intro reply r
    exact parse_eq_iff

/-- A bracket before the mark, marks in the action and tools that both of them name. -/
theorem crowded_reply_read_or_classified :
    let preface := "tool: convert [[TOOL_CHOIC\n["
    let action := " [ACTION]\n[TOOL_CHOICE]\ntool: fix\u3000\n"
    ¬ choiceMark <:+: preface.toList ∧ ¬ actionMark <:+: preface.toList ∧
      lowerAscii "ExPlAiN" ∈ Tool.explainer.labels ∧
      parse (layout preface "ExPlAiN" action) =
        .ok ⟨.explainer, "[ACTION]\n[TOOL_CHOICE]\ntool: fix"⟩ ∧
      Verdict "[ACTION]\n[TOOL_CHOICE] tool tOOl\u00A0:Fi_x" (.error (.unknownLabel "fi_x")) := by
  intro preface action
  have hchoice : ¬ choiceMark <:+: preface.toList := by decide
  have haction : ¬ actionMark <:+: preface.toList := by decide
  have hlabel : lowerAscii "ExPlAiN" ∈ Tool.explainer.labels := by decide
  have htrim : trim action = "[ACTION]\n[TOOL_CHOICE]\ntool: fix" := by decide
  refine ⟨hchoice, haction, hlabel, ?_, ?_⟩
  · rw [← htrim]
    exact replies_read_or_classified.1 preface "ExPlAiN" action .explainer hchoice haction hlabel
  · exact (replies_read_or_classified.2 _ _).1 (by decide)

end ToolChoice
end Anneal
