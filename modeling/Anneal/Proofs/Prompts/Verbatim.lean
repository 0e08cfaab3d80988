import Anneal.Prompts
import Anneal.Proofs.Prompts.Template
import Anneal.Proofs.Text.Blank

/-! Every prompt is its template text with the inputs put in as they are. -/

namespace Anneal.Prompts

open Anneal.Text
open Template (Token Piece Values fill optional render tokens? truth)

def repairText : String := String.join
  ["\x7b% if failure_class == \"compile_error\" %\x7d\n",
    "The Rust program failed to compile. Fix every error reported by the compiler.\n",
    "\x7b% elif failure_class == \"runtime_error\" %\x7d\n",
    "The Rust program compiled but failed at runtime (non-zero exit, crash, timeout or ",
    "missing input). Fix the cause of the failure.\n",
    "\x7b% else %\x7d\n",
    "The Rust program runs, but its output differs from the C++ reference program. Change ",
    "its logic so the output matches exactly.\n",
    "\x7b% endif %\x7d\n\n",
    "## Current Rust code (`\x7b\x7b candidate_path \x7d\x7d`)\n\n```rust\n",
    "\x7b\x7b candidate \x7d\x7d\n```\n\n",
    "## Diagnostic (\x7b\x7b failure_class \x7d\x7d)\n\n```text\n",
    "\x7b\x7b diagnostic \x7d\x7d\n```\n",
    "\x7b% if reference %\x7d\n\n",
    "## C++ reference (`\x7b\x7b reference_path \x7d\x7d`)\n\n```cpp\n",
    "\x7b\x7b reference \x7d\x7d\n```\n",
    "\x7b% endif %\x7d\n\n",
    "## Response format\n\nReply with these sections, in order:\n\n",
    "[ANALYSIS]\nWhat is wrong and why.\n\n[MODIFIED_CODE]\n```rust\n",
    "// complete corrected program\n```\n",
    "\x7b% if instruction %\x7d\n\n",
    "\x7b\x7b instruction \x7d\x7d\n",
    "\x7b% endif %\x7d\n"]

def convertText : String := String.join
  ["Translate the following C++ program into a single-file Rust program.\n\n",
    "## C++ source (`\x7b\x7b reference_path \x7d\x7d`)\n\n```cpp\n",
    "\x7b\x7b reference_source \x7d\x7d\n```\n\n## Requirements\n\n",
    "- Read input from stdin and write output to stdout exactly as the C++ program does.\n",
    "- The program must compile with `rustc` as a single file.\n",
    "- Also provide a minimal `Cargo.toml` for the program.\n",
    "\x7b% if instruction %\x7d\n\n",
    "## Additional requirements\n\n\x7b\x7b instruction \x7d\x7d\n",
    "\x7b% endif %\x7d\n\n",
    "## Response format\n\nReply with these sections, in order:\n\n",
    "[RUST_CODE]\n```rust\n// complete Rust program\n```\n\n[TOML]\n",
    "```toml\n# Cargo.toml\n```\n"]

def explainText : String := String.join
  ["\x7b% if reference %\x7d\n",
    "## C++ source (`\x7b\x7b reference_path \x7d\x7d`)\n\n```cpp\n",
    "\x7b\x7b reference \x7d\x7d\n```\n\n",
    "\x7b% endif %\x7d\n",
    "\x7b% if candidate %\x7d\n",
    "## Rust source (`\x7b\x7b candidate_path \x7d\x7d`)\n\n```rust\n",
    "\x7b\x7b candidate \x7d\x7d\n```\n\n",
    "\x7b% endif %\x7d\n",
    "## Question\n\n\x7b\x7b question \x7d\x7d\n"]

def routeText : String := String.join
  ["Decide which tool should handle this request:\n\n",
    "\x7b\x7b instruction \x7d\x7d\n\nTools:\n",
    "- convert: translate the C++ reference program into Rust\n",
    "- repair: compile and run the Rust translation, then fix it until it matches the ",
    "reference\n- explain: answer a question about the C++ or Rust code\n\n",
    "Reply with exactly these sections:\n\n[TOOL_CHOICE]\n",
    "tool: <convert|repair|explain>\n\n[ACTION]\n",
    "The instruction or question to pass to the chosen tool.\n"]

def sourcePieces (lead title language tail path code : String) : List Piece :=
  [.text (lead ++ "## " ++ title ++ " (`"), .slot path,
    .text ("`)\n\n" ++ "```" ++ language ++ "\n"), .slot code, .text ("\n```\n" ++ tail)]

def openingTokens : List Token :=
  [.tag ["if", "failure_class", "==", "\"compile_error\""],
    .piece (.text (repairOpening .compileError)),
    .tag ["elif", "failure_class", "==", "\"runtime_error\""],
    .piece (.text (repairOpening .runtimeError)),
    .tag ["else"], .piece (.text (repairOpening .outputMismatch)), .tag ["endif"]]

def faultPieces : List Piece :=
  sourcePieces "\n" "Current Rust code" "rust" "\n## Diagnostic (" "candidate_path" "candidate" ++
  [.slot "failure_class", .text (")\n\n" ++ "```" ++ "text" ++ "\n"), .slot "diagnostic",
    .text "\n```\n"]

def repairTokens : List Token :=
  openingTokens ++ (faultPieces.map .piece ++
  (optional "reference"
    (sourcePieces "\n" "C++ reference" "cpp" "" "reference_path" "reference") ++
  ([Piece.text repairFormat].map .piece ++
  (optional "instruction" [.text "\n", .slot "instruction", .text "\n"] ++ []))))

def convertLead : String :=
  "Translate the following C++ program into a single-file Rust program.\n\n"

def convertTokens : List Token :=
  (sourcePieces convertLead "C++ source" "cpp" ("\n" ++ convertRequirements) "reference_path"
    "reference_source").map .piece ++
  (optional "instruction"
    [.text "\n## Additional requirements\n\n", .slot "instruction", .text "\n"] ++
  ([Piece.text convertFormat].map .piece ++ []))

def explainTokens : List Token :=
  optional "reference" (sourcePieces "" "C++ source" "cpp" "\n" "reference_path" "reference") ++
  (optional "candidate" (sourcePieces "" "Rust source" "rust" "\n" "candidate_path" "candidate") ++
  ([Piece.text "## Question\n\n", .slot "question"].map .piece ++ []))

def routeLead : String := "Decide which tool should handle this request:\n\n"

def routeTail : String :=
  "\n\n" ++ "Tools:\n" ++
  "- convert: translate the C++ reference program into Rust\n" ++
  "- repair: compile and run the Rust translation, then fix it until it matches the reference\n" ++
  "- explain: answer a question about the C++ or Rust code\n\n" ++
  "Reply with exactly these sections:\n\n[TOOL_CHOICE]\ntool: <convert|repair|explain>\n\n" ++
  "[ACTION]\nThe instruction or question to pass to the chosen tool."

def routeTokens : List Token :=
  [Piece.text routeLead, .slot "instruction", .text routeTail].map .piece ++ []

-- Reading a text goes as deep as it is long.
set_option maxRecDepth 20000 in
theorem tokens?_repairText : tokens? repairText = some repairTokens := by
  apply Template.tokens?_join
  · repeat constructor
  · rfl

set_option maxRecDepth 20000 in
theorem tokens?_convertText : tokens? convertText = some convertTokens := by
  apply Template.tokens?_join
  · repeat constructor
  · rfl

set_option maxRecDepth 20000 in
theorem tokens?_explainText : tokens? explainText = some explainTokens := by
  apply Template.tokens?_join
  · repeat constructor
  · rfl

set_option maxRecDepth 20000 in
theorem tokens?_routeText : tokens? routeText = some routeTokens := by
  apply Template.tokens?_join
  · repeat constructor
  · rfl

def RepairInput.values (input : RepairInput) : Values
  | "failure_class" => some input.failureClass.tag
  | "candidate_path" => some input.candidate.path
  | "candidate" => some (trimEnd input.candidate.text)
  | "diagnostic" => some input.diagnostic
  | "reference_path" => input.reference.map (·.path)
  | "reference" => input.reference.map fun s => trimEnd s.text
  | "instruction" => nonBlank input.instruction
  | _ => none

def convertValues (reference : Source) (instruction : Option String) : Values
  | "reference_path" => some reference.path
  | "reference_source" => some (trimEnd reference.text)
  | "instruction" => nonBlank instruction
  | _ => none

def explainValues (reference candidate : Option Source) (question : String) : Values
  | "reference_path" => reference.map (·.path)
  | "reference" => reference.map fun s => trimEnd s.text
  | "candidate_path" => candidate.map (·.path)
  | "candidate" => candidate.map fun s => trimEnd s.text
  | "question" => some (trim question)
  | _ => none

def routeValues (instruction : String) : Values
  | "instruction" => some (trim instruction)
  | _ => none

inductive SourcePart (lead title language tail : String) : Option Source → String → Prop
  | absent : SourcePart lead title language tail none ""
  | blank {s : Source} (hblank : isBlankText s.text = true) :
      SourcePart lead title language tail (some s) ""
  | present {s : Source} {code : String} (hblank : isBlankText s.text = false)
      (trimmed : EndTrimmed s.text code) : SourcePart lead title language tail (some s)
        (lead ++ titled title s.path ++ fenced language code ++ tail)

inductive InstructionPart (lead : String) : Option String → String → Prop
  | absent : InstructionPart lead none ""
  | blank {t : String} (hblank : isBlankText t = true) : InstructionPart lead (some t) ""
  | present {t : String} (hblank : isBlankText t = false) :
      InstructionPart lead (some t) (lead ++ t ++ "\n")

def placed (lead title language tail : String) (source : Option Source) : String :=
  sectionOf source fun s => sectionOf s.shown? fun code =>
    lead ++ titled title s.path ++ fenced language code ++ tail

theorem Source.shown?_of_blank {s : Source} (h : isBlankText s.text = true) : s.shown? = none := by
  rw [Source.shown?, isEmpty_trimEnd_eq, if_pos h]

theorem Source.shown?_of_text {s : Source} (h : isBlankText s.text = false) :
    s.shown? = some (trimEnd s.text) := by
  rw [Source.shown?, isEmpty_trimEnd_eq, h, if_neg Bool.false_ne_true]

theorem nonBlank_of_blank {t : String} (h : isBlankText t = true) : nonBlank (some t) = none := by
  simp [nonBlank, h]

theorem nonBlank_of_text {t : String} (h : isBlankText t = false) :
    nonBlank (some t) = some t := by
  simp [nonBlank, h]

theorem truth_trimEnd (s : String) : truth (some (trimEnd s)) = !isBlankText s := by
  rw [← isEmpty_trimEnd_eq]
  rfl

section Parts

variable {values : Values} {lead title language tail path code p c prompt : String}
variable {source : Option Source} {given : Option String} {ts : List Token}

theorem referenceSection_eq : sectionOf source referenceSection =
    placed "\n" "C++ reference" "cpp" "" source := by
  cases source with
  | none => rfl
  | some s =>
    simp only [placed, sectionOf, referenceSection, String.append_empty, String.append_assoc]

theorem sourceSection_eq : sectionOf source (sourceSection title language) =
    placed "" title language "\n" source := by
  cases source with
  | none => rfl
  | some s => simp only [placed, sectionOf, sourceSection, String.empty_append]

theorem sourcePart_iff {part : String} : SourcePart lead title language tail source part ↔
    part = placed lead title language tail source := by
  constructor
  · intro h
    cases h with
    | absent => rfl
    | blank hblank => rw [placed, sectionOf, Source.shown?_of_blank hblank, sectionOf]
    | present hblank htrimmed =>
      rw [placed, sectionOf, Source.shown?_of_text hblank, sectionOf, endTrimmed_iff.1 htrimmed]
  · rintro rfl
    cases source with
    | none => exact .absent
    | some s =>
      rw [placed, sectionOf]
      by_cases hblank : isBlankText s.text = true
      · rw [Source.shown?_of_blank hblank]
        exact .blank hblank
      · rw [Bool.not_eq_true] at hblank
        rw [Source.shown?_of_text hblank]
        exact .present hblank (endTrimmed_iff.2 rfl)

theorem instructionPart_iff {part : String} : InstructionPart lead given part ↔
    part = sectionOf (nonBlank given) fun t => lead ++ t ++ "\n" := by
  constructor
  · intro h
    cases h with
    | absent => rfl
    | blank hblank => rw [nonBlank_of_blank hblank, sectionOf]
    | present hblank => rw [nonBlank_of_text hblank, sectionOf]
  · rintro rfl
    cases given with
    | none => exact .absent
    | some t =>
      by_cases hblank : isBlankText t = true
      · rw [nonBlank_of_blank hblank]
        exact .blank hblank
      · rw [Bool.not_eq_true] at hblank
        rw [nonBlank_of_text hblank]
        exact .present hblank

theorem fill_sourcePieces (hpath : values path = some p) (hcode : values code = some c) :
    fill values (sourcePieces lead title language tail path code) =
      some (lead ++ titled title p ++ fenced language c ++ tail) := by
  simp only [sourcePieces, fill, hpath, hcode, titled, fenced, Option.bind_some, Option.map_some,
    String.append_assoc, String.append_empty]

theorem fill_text (values : Values) (s : String) : fill values [.text s] = some s := by
  simp [fill]

theorem shown_placed (hpath : values path = source.map (·.path))
    (hcode : values code = source.map fun s => trimEnd s.text)
    (ht : Template.shown values ts = some prompt) :
    Template.shown values (optional code (sourcePieces lead title language tail path code) ++ ts) =
      some (placed lead title language tail source ++ prompt) := by
  apply Template.shown_optional _ _ ht
  · intro htrue
    cases source with
    | none => simp [hcode, truth] at htrue
    | some s =>
      have hblank : isBlankText s.text = false := by simpa [hcode, truth_trimEnd] using htrue
      rw [fill_sourcePieces hpath hcode, placed, sectionOf, Source.shown?_of_text hblank, sectionOf]
  · intro hfalse
    cases source with
    | none => rfl
    | some s =>
      have hblank : isBlankText s.text = true := by simpa [hcode, truth_trimEnd] using hfalse
      rw [placed, sectionOf, Source.shown?_of_blank hblank, sectionOf]

theorem shown_instruction (hgiven : values "instruction" = nonBlank given)
    (ht : Template.shown values ts = some prompt) :
    Template.shown values
        (optional "instruction" [.text lead, .slot "instruction", .text "\n"] ++ ts) =
      some ((sectionOf (nonBlank given) fun t => lead ++ t ++ "\n") ++ prompt) := by
  apply Template.shown_optional _ _ ht
  · intro htrue
    cases hkept : nonBlank given with
    | none => simp [hgiven, hkept, truth] at htrue
    | some t =>
      simp only [fill, hgiven, hkept, sectionOf, Option.bind_some, Option.map_some,
        String.append_empty, String.append_assoc]
  · intro hfalse
    cases hkept : nonBlank given with
    | none => rfl
    | some t =>
      have hblank : isBlankText t = false := by simpa using (Option.filter_eq_some_iff.1 hkept).2
      simp [hgiven, hkept, truth, isEmpty_of_not_blank hblank] at hfalse

end Parts

theorem render_eq {values : Values} {source prompt : String} {ts : List Token}
    (hts : tokens? source = some ts) (h : Template.shown values ts = some prompt) :
    render source values = some prompt := by
  rw [render, hts, Option.bind_some, h]

theorem select_opening (input : RepairInput) (ts : List Token) :
    Template.select input.values [] (openingTokens ++ ts) =
      (Template.select input.values [] ts).map
        ([.text (repairOpening input.failureClass)] ++ ·) := by
  cases hclass : input.failureClass <;>
    simp [openingTokens, Template.select, Template.turn, Template.holds, RepairInput.values, hclass,
      FailureClass.tag, Function.comp_def]

theorem fill_faultPieces (input : RepairInput) :
    fill input.values faultPieces =
      some ("\n" ++ titled "Current Rust code" input.candidate.path ++
        fenced "rust" (trimEnd input.candidate.text) ++ "\n## Diagnostic (" ++
        input.failureClass.tag ++ ")\n\n" ++ fenced "text" input.diagnostic) := by
  have hpath : input.values "candidate_path" = some input.candidate.path := by
    simp [RepairInput.values]
  have hcode : input.values "candidate" = some (trimEnd input.candidate.text) := by
    simp [RepairInput.values]
  have hclass : input.values "failure_class" = some input.failureClass.tag := by
    simp [RepairInput.values]
  have hdiagnostic : input.values "diagnostic" = some input.diagnostic := by
    simp [RepairInput.values]
  rw [faultPieces, Template.fill_append, fill_sourcePieces hpath hcode]
  simp only [fill, fenced, hclass, hdiagnostic, Option.bind_some, Option.map_some,
    String.append_assoc, String.append_empty]

theorem render_repairText (input : RepairInput) :
    render repairText input.values = some (repair input) := by
  have hparts : repair input =
      repairOpening input.failureClass ++
      ("\n" ++ titled "Current Rust code" input.candidate.path ++
        fenced "rust" (trimEnd input.candidate.text) ++ "\n## Diagnostic (" ++
        input.failureClass.tag ++ ")\n\n" ++ fenced "text" input.diagnostic ++
      (placed "\n" "C++ reference" "cpp" "" input.reference ++
      (repairFormat ++
      ((sectionOf (nonBlank input.instruction) fun t => "\n" ++ t ++ "\n") ++ "")))) := by
    rw [repair, referenceSection_eq]
    simp only [String.append_assoc, String.append_empty]
  apply render_eq tokens?_repairText
  rw [hparts, repairTokens, Template.shown, select_opening]
  apply Template.shown_of_select (fill_text _ _)
  apply Template.shown_pieces (fill_faultPieces input)
  apply shown_placed (by simp [RepairInput.values]) (by simp [RepairInput.values])
  apply Template.shown_pieces (fill_text _ _)
  exact shown_instruction (by simp [RepairInput.values]) Template.shown_nil

theorem render_convertText (reference : Source) (instruction : Option String) :
    render convertText (convertValues reference instruction) =
      some (convert reference instruction) := by
  have hparts : convert reference instruction =
      convertLead ++ titled "C++ source" reference.path ++ fenced "cpp" (trimEnd reference.text) ++
        ("\n" ++ convertRequirements) ++
      ((sectionOf (nonBlank instruction) fun t =>
        "\n## Additional requirements\n\n" ++ t ++ "\n") ++ (convertFormat ++ "")) := by
    unfold convert convertLead
    simp only [String.append_assoc, String.append_empty]
  apply render_eq tokens?_convertText
  rw [hparts]
  apply Template.shown_pieces
  · apply fill_sourcePieces <;> simp [convertValues]
  · apply shown_instruction (by simp [convertValues])
    exact Template.shown_pieces (fill_text _ _) Template.shown_nil

theorem render_explainText (reference candidate : Option Source) (question : String) :
    render explainText (explainValues reference candidate question) =
      some (explain reference candidate question) := by
  have hparts : explain reference candidate question =
      placed "" "C++ source" "cpp" "\n" reference ++
      (placed "" "Rust source" "rust" "\n" candidate ++
      ("## Question\n\n" ++ trim question ++ "")) := by
    rw [explain, sourceSection_eq, sourceSection_eq]
    simp only [String.append_assoc, String.append_empty]
  apply render_eq tokens?_explainText
  rw [hparts]
  apply shown_placed (by simp [explainValues]) (by simp [explainValues])
  apply shown_placed (by simp [explainValues]) (by simp [explainValues])
  apply Template.shown_pieces _ Template.shown_nil
  simp [fill, explainValues]

theorem route_eq (instruction : String) :
    route instruction = routeLead ++ trim instruction ++ routeTail := by
  unfold route routeLead routeTail
  simp only [String.append_assoc]

theorem render_routeText (instruction : String) :
    render routeText (routeValues instruction) = some (route instruction) := by
  apply render_eq tokens?_routeText
  rw [route_eq, ← String.append_empty (s := routeLead ++ trim instruction ++ routeTail)]
  apply Template.shown_pieces _ Template.shown_nil
  simp [fill, routeValues, String.append_assoc]

/-- How the inputs stand in a prompt for a repair. -/
def RepairPlaced (input : RepairInput) (prompt : String) : Prop :=
  ∃ candidate reference instruction, EndTrimmed input.candidate.text candidate ∧
    SourcePart "\n" "C++ reference" "cpp" "" input.reference reference ∧
    InstructionPart "\n" input.instruction instruction ∧
    prompt = repairOpening input.failureClass ++ "\n" ++
      titled "Current Rust code" input.candidate.path ++ fenced "rust" candidate ++
      "\n## Diagnostic (" ++ input.failureClass.tag ++ ")\n\n" ++ fenced "text" input.diagnostic ++
      reference ++ repairFormat ++ instruction

def ConvertPlaced (reference : Source) (instruction : Option String) (prompt : String) : Prop :=
  ∃ code extra, EndTrimmed reference.text code ∧
    InstructionPart "\n## Additional requirements\n\n" instruction extra ∧
    prompt = convertLead ++ titled "C++ source" reference.path ++ fenced "cpp" code ++ "\n" ++
      convertRequirements ++ extra ++ convertFormat

def ExplainPlaced (reference candidate : Option Source) (question prompt : String) : Prop :=
  ∃ referencePart candidatePart asked,
    SourcePart "" "C++ source" "cpp" "\n" reference referencePart ∧
    SourcePart "" "Rust source" "rust" "\n" candidate candidatePart ∧
    Trimmed question asked ∧
    prompt = referencePart ++ candidatePart ++ "## Question\n\n" ++ asked

def RoutePlaced (instruction prompt : String) : Prop :=
  ∃ asked, Trimmed instruction asked ∧ prompt = routeLead ++ asked ++ routeTail

theorem repairPlaced_iff (input : RepairInput) (prompt : String) :
    RepairPlaced input prompt ↔ prompt = repair input := by
  constructor
  · rintro ⟨candidate, reference, instruction, hcandidate, hreference, hinstruction, rfl⟩
    rw [repair, referenceSection_eq, endTrimmed_iff.1 hcandidate, sourcePart_iff.1 hreference,
      instructionPart_iff.1 hinstruction]
  · rintro rfl
    refine ⟨_, _, _, endTrimmed_iff.2 rfl, sourcePart_iff.2 rfl, instructionPart_iff.2 rfl, ?_⟩
    rw [repair, referenceSection_eq]

theorem convertPlaced_iff (reference : Source) (instruction : Option String) (prompt : String) :
    ConvertPlaced reference instruction prompt ↔ prompt = convert reference instruction := by
  constructor
  · rintro ⟨code, extra, hcode, hextra, rfl⟩
    rw [endTrimmed_iff.1 hcode, instructionPart_iff.1 hextra]
    rfl
  · rintro rfl
    exact ⟨_, _, endTrimmed_iff.2 rfl, instructionPart_iff.2 rfl, rfl⟩

theorem explainPlaced_iff (reference candidate : Option Source) (question prompt : String) :
    ExplainPlaced reference candidate question prompt ↔
      prompt = explain reference candidate question := by
  constructor
  · rintro ⟨referencePart, candidatePart, asked, hreference, hcandidate, hasked, rfl⟩
    rw [explain, sourceSection_eq, sourceSection_eq, sourcePart_iff.1 hreference,
      sourcePart_iff.1 hcandidate, trimmed_iff.1 hasked]
  · rintro rfl
    refine ⟨_, _, _, sourcePart_iff.2 rfl, sourcePart_iff.2 rfl, trimmed_iff.2 rfl, ?_⟩
    rw [explain, sourceSection_eq, sourceSection_eq]

theorem routePlaced_iff (instruction prompt : String) :
    RoutePlaced instruction prompt ↔ prompt = route instruction := by
  constructor
  · rintro ⟨asked, hasked, rfl⟩
    rw [route_eq, trimmed_iff.1 hasked]
  · rintro rfl
    exact ⟨_, trimmed_iff.2 rfl, route_eq instruction⟩

/-- Whatever the inputs hold, a prompt is its template text rendered with them, and it is the one
text in which each of them stands at its place. -/
theorem prompts_carry_inputs :
    (∀ input : RepairInput, render repairText input.values = some (repair input) ∧
      ∀ prompt, RepairPlaced input prompt ↔ prompt = repair input) ∧
    (∀ (reference : Source) (instruction : Option String),
      render convertText (convertValues reference instruction) =
        some (convert reference instruction) ∧
      ∀ prompt, ConvertPlaced reference instruction prompt ↔
        prompt = convert reference instruction) ∧
    (∀ (reference candidate : Option Source) (question : String),
      render explainText (explainValues reference candidate question) =
        some (explain reference candidate question) ∧
      ∀ prompt, ExplainPlaced reference candidate question prompt ↔
        prompt = explain reference candidate question) ∧
    ∀ instruction : String,
      render routeText (routeValues instruction) = some (route instruction) ∧
      ∀ prompt, RoutePlaced instruction prompt ↔ prompt = route instruction := by
  refine ⟨fun input => ?_, fun reference instruction => ?_, fun reference candidate question => ?_,
    fun instruction => ?_⟩
  · exact ⟨render_repairText input, repairPlaced_iff input⟩
  · exact ⟨render_convertText reference instruction, convertPlaced_iff reference instruction⟩
  · exact ⟨render_explainText reference candidate question,
      explainPlaced_iff reference candidate question⟩
  · exact ⟨render_routeText instruction, routePlaced_iff instruction⟩

end Anneal.Prompts
