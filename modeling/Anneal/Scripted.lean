import Anneal.Tool.Toolbox

/-!
# Scripted surroundings

Model backends and toolchains that answer from queues and keep account of what they were asked, for
rehearsing the tools. The script may cancel the repair during a chosen call.
-/

namespace Anneal.Scripted

inductive Part where
  | router | converter | repair | explainer
  deriving DecidableEq, Repr

def Part.all : List Part := [.router, .converter, .repair, .explainer]

inductive Moment where
  | compile (l : Language)
  | run (l : Language)
  | call (p : Part)
  deriving DecidableEq, Repr

structure Replies where
  queue : List (Except ClientError String)
  prompts : List Prompt

structure Results where
  compiles : List StepResult
  runs : List StepResult
  compileCalls : Nat
  runCalls : Nat
  stdinPaths : List (Option String)

structure Script where
  replies : Part → Replies
  results : Language → Results
  cancelAt : Option (Moment × Nat)

def setReplies (s : Script) (p : Part) (r : Replies) : Script :=
  { s with replies := fun q => if q = p then r else s.replies q }

def setResults (s : Script) (l : Language) (r : Results) : Script :=
  { s with results := fun m => if m = l then r else s.results m }

def cancelDuring (m : Moment) (number : Nat) (w : World Script) : World Script :=
  if w.outside.cancelAt = some (m, number) then w.cancel else w

def noReplyLeft (backend : String) : ClientError :=
  .transport backend "scripted client has no replies left"

def complete (p : Part) (backend : String) (prompt : Prompt) (w : World Script) :
    Except ClientError String × World Script :=
  let r := w.outside.replies p
  let prompts := r.prompts ++ [prompt]
  let answer := match r.queue with
    | [] => .error (noReplyLeft backend)
    | reply :: _ => reply
  let w := { w with outside := setReplies w.outside p ⟨r.queue.drop 1, prompts⟩ }
  (answer, cancelDuring (.call p) prompts.length w)

def client (p : Part) (shape : PromptShape) : Client Script :=
  ⟨fun _ => .ok shape, fun backend prompt _ w => complete p backend prompt w⟩

def compile (l : Language) (source : String) (w : World Script) :
    Except Failure StepResult × World Script :=
  let r := w.outside.results l
  let answer := match r.compiles with
    | [] => .error (.of s!"no scripted compile result for {source}")
    | step :: _ => .ok step
  let r := { r with compiles := r.compiles.drop 1, compileCalls := r.compileCalls + 1 }
  (answer, cancelDuring (.compile l) r.compileCalls
    { w with outside := setResults w.outside l r })

def run (l : Language) (executable : String) (stdin : Option String) (w : World Script) :
    Except Failure StepResult × World Script :=
  let r := w.outside.results l
  let answer := match r.runs with
    | [] => .error (.of s!"no scripted run result for {executable}")
    | step :: _ => .ok step
  let r := { r with
    runs := r.runs.drop 1, runCalls := r.runCalls + 1, stdinPaths := r.stdinPaths ++ [stdin] }
  (answer, cancelDuring (.run l) r.runCalls { w with outside := setResults w.outside l r })

def toolchain (l : Language) : Toolchain Script := ⟨l, compile l, run l⟩

def modifiedCodeReply (code : String) : String :=
  "[ANALYSIS]\nscripted fix\n\n[MODIFIED_CODE]\n```rust\n" ++ code ++ "\n```\n"

def conversionReply (code : String) (manifest : Option String) : String :=
  "[RUST_CODE]\n```rust\n" ++ code ++ "\n```\n" ++
    match manifest with
    | some text => "\n[TOML]\n```toml\n" ++ text ++ "\n```\n"
    | none => ""

end Anneal.Scripted
