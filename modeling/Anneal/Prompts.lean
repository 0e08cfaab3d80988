import Anneal.Text.Search
import Anneal.Verification

/-!
# Prompt texts

The fixed texts of every agent and the prompts built from them. Inputs are inserted as they are;
only trailing blanks of sources, and blanks around questions and requests, are dropped. A section
whose input is absent or blank is left out.
-/

namespace Anneal.Prompts

open Anneal.Text

def converterSystem : String :=
  "You are a senior systems programmer translating C++ programs into idiomatic, safe Rust.\n" ++
  "Preserve the observable behavior of the original program exactly: same stdin handling,\n" ++
  "same stdout text, same exit status. Prefer the standard library; add a crate only when\n" ++
  "the C++ program relies on functionality the standard library lacks.\n"

def repairSystem : String :=
  "You repair Rust programs that were translated from C++. You receive the current Rust\n" ++
  "source and the verbatim output of the compiler, the program, or an output comparison.\n" ++
  "Fix the root cause with the smallest change that makes the program compile, run, and\n" ++
  "print exactly what the reference program prints. Always return the complete program.\n"

def explainerSystem : String :=
  "You explain C++ programs and their Rust translations. Answer the question using the\n" ++
  "sources provided, point at concrete lines, and call out behavioral differences between\n" ++
  "the two programs when you see them.\n"

def routerSystem : String :=
  "You route requests for a C++ to Rust translation assistant. Choose exactly one tool:\n" ++
  "convert (translate the C++ reference into Rust), repair (compile, run and fix the\n" ++
  "current Rust translation), or explain (answer a question about the code).\n"

structure Source where
  path : String
  text : String
  deriving DecidableEq, Repr

def Source.shown? (s : Source) : Option String :=
  if (trimEnd s.text).isEmpty then none else some (trimEnd s.text)

def nonBlank (s : Option String) : Option String := s.filter fun t => !isBlankText t

def fenced (language code : String) : String := "```" ++ language ++ "\n" ++ code ++ "\n```\n"

def titled (title path : String) : String := "## " ++ title ++ " (`" ++ path ++ "`)\n\n"

def sectionOf {α : Type} (input : Option α) (body : α → String) : String :=
  match input with
  | none => ""
  | some a => body a

def convertRequirements : String :=
  "## Requirements\n\n" ++
  "- Read input from stdin and write output to stdout exactly as the C++ program does.\n" ++
  "- The program must compile with `rustc` as a single file.\n" ++
  "- Also provide a minimal `Cargo.toml` for the program.\n"

def convertFormat : String :=
  "\n## Response format\n\nReply with these sections, in order:\n\n[RUST_CODE]\n" ++
  "```rust\n// complete Rust program\n```\n\n[TOML]\n```toml\n# Cargo.toml\n```"

def convert (reference : Source) (instruction : Option String) : String :=
  "Translate the following C++ program into a single-file Rust program.\n\n" ++
  titled "C++ source" reference.path ++ fenced "cpp" (trimEnd reference.text) ++ "\n" ++
  convertRequirements ++
  sectionOf (nonBlank instruction) (fun t => "\n## Additional requirements\n\n" ++ t ++ "\n") ++
  convertFormat

structure RepairInput where
  failureClass : FailureClass
  candidate : Source
  diagnostic : String
  reference : Option Source
  instruction : Option String

def repairOpening : FailureClass → String
  | .compileError =>
    "The Rust program failed to compile. Fix every error reported by the compiler.\n"
  | .runtimeError =>
    "The Rust program compiled but failed at runtime (non-zero exit, crash, timeout or missing " ++
    "input). Fix the cause of the failure.\n"
  | .outputMismatch =>
    "The Rust program runs, but its output differs from the C++ reference program. Change its " ++
    "logic so the output matches exactly.\n"

def repairFormat : String :=
  "\n## Response format\n\nReply with these sections, in order:\n\n[ANALYSIS]\n" ++
  "What is wrong and why.\n\n[MODIFIED_CODE]\n```rust\n// complete corrected program\n```\n"

def referenceSection (s : Source) : String :=
  sectionOf s.shown? fun code => "\n" ++ titled "C++ reference" s.path ++ fenced "cpp" code

def repair (input : RepairInput) : String :=
  repairOpening input.failureClass ++ "\n" ++
  titled "Current Rust code" input.candidate.path ++
  fenced "rust" (trimEnd input.candidate.text) ++
  "\n## Diagnostic (" ++ input.failureClass.tag ++ ")\n\n" ++ fenced "text" input.diagnostic ++
  sectionOf input.reference referenceSection ++
  repairFormat ++
  sectionOf (nonBlank input.instruction) (fun t => "\n" ++ t ++ "\n")

def sourceSection (title language : String) (s : Source) : String :=
  sectionOf s.shown? fun code => titled title s.path ++ fenced language code ++ "\n"

def explain (reference candidate : Option Source) (question : String) : String :=
  sectionOf reference (sourceSection "C++ source" "cpp") ++
  sectionOf candidate (sourceSection "Rust source" "rust") ++
  "## Question\n\n" ++ trim question

def route (instruction : String) : String :=
  "Decide which tool should handle this request:\n\n" ++ trim instruction ++ "\n\n" ++
  "Tools:\n" ++
  "- convert: translate the C++ reference program into Rust\n" ++
  "- repair: compile and run the Rust translation, then fix it until it matches the reference\n" ++
  "- explain: answer a question about the C++ or Rust code\n\n" ++
  "Reply with exactly these sections:\n\n[TOOL_CHOICE]\ntool: <convert|repair|explain>\n\n" ++
  "[ACTION]\nThe instruction or question to pass to the chosen tool."

def mismatchReport (candidateLabel candidate referenceLabel reference : String) : String :=
  "Output mismatch.\n--- " ++ candidateLabel ++ " output ---\n" ++ candidate ++ "\n--- " ++
  referenceLabel ++ " output ---\n" ++ reference

end Anneal.Prompts
