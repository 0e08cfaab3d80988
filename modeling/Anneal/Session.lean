import Anneal.Tool.Toolbox
import Anneal.Text.Utf8

/-!
# Interactive sessions

A session reads commands line by line. Some lines switch between routed mode and a tool mode, show
the candidate or end the session; every other line is a request, which goes to the router or to the
tool of the mode. A request that fails is reported and the session goes on.
-/

namespace Anneal.Session

open Anneal.Text

inductive Command where
  | leave
  | back
  | present
  | retry
  | switch (name : String)
  | request (line : String)
  deriving DecidableEq, Repr

def switchPrefix : String := "switch to "

def Command.ofLine (line : String) : Command :=
  let lower := lowerAscii line
  if lower = "exit" ∨ lower = "quit" then .leave
  else if lower = "back" then .back
  else if lower = "show" then .present
  else if lower = "retry" then .retry
  else if switchPrefix.toList.isPrefixOf lower.toList then
    .switch (String.ofList (trimChars (line.toList.drop switchPrefix.length)))
  else .request line

def banner : String :=
  "Describe what you need, `switch to converter|modifier|explainer`, `show`, `retry`, or `exit`."

def promptText : Option Tool → String
  | some tool => s!"[{tool.name}] > "
  | none => "> "

def shown : Except ToolError Routed → String
  | .error e => s!"error: {e.message}\n"
  | .ok (.converted c) =>
    s!"converted: {c.codePath}\n" ++
      (match c.manifestPath with
        | some path => s!"manifest: {path}\n"
        | none => "")
  | .ok (.repaired r) =>
    let status := if r.success then "succeeded" else "failed"
    s!"repair {status} ({r.stop.label}): {r.detail}\n"
  | .ok (.explained answer) => trimEnd answer ++ "\n"

variable {σ : Type}

def candidateText (t : Toolbox σ) (w : World σ) : String × World σ :=
  match w.onDisk fun d => d.readText t.target.codePath with
  | (.ok source, w) => (s!"--- {t.target.codePath} ---\n" ++ trimEnd source ++ "\n", w)
  | (.error _, w) => (s!"no candidate at {t.target.codePath}\n", w)

structure Turn (σ : Type) where
  mode : Option Tool
  output : String
  goesOn : Bool
  shop : Workshop σ

def dispatch (t : Toolbox σ) (mode : Option Tool) (line : String) (s : Workshop σ) :
    Except ToolError Routed × Workshop σ :=
  match mode with
  | some tool => t.run tool line s
  | none => t.route line s

def turn (t : Toolbox σ) (mode : Option Tool) (s : Workshop σ) : Command → Turn σ
  | .leave => ⟨mode, "", false, s⟩
  | .back => match mode with
    | some _ => ⟨none, "back to routed mode\n", true, s⟩
    | none => ⟨none, "not in a tool mode\n", true, s⟩
  | .present =>
    let r := candidateText t s.world
    ⟨mode, r.1, true, { s with world := r.2 }⟩
  | .retry =>
    let r := t.run .modifier "" s
    ⟨mode, shown r.1, true, r.2⟩
  | .switch name => match Tool.ofName? name with
    | some tool => ⟨some tool, s!"switched to {tool.name}; `back` to leave\n", true, s⟩
    | none => ⟨mode, s!"unknown tool `{name}`\n", true, s⟩
  | .request line =>
    let r := dispatch t mode line s
    ⟨mode, shown r.1, true, r.2⟩

/-- How a session ended. -/
inductive Ending where
  | done
  | unreadable
  deriving DecidableEq, Repr

def unreadableFailure : Failure := .ofOs "read session input" .invalidUtf8

def inputLines (input : Bytes) : List (Option String) :=
  let rec split : Bytes → List Bytes
    | [] => [[]]
    | b :: bs =>
      if b = 10 then [] :: split bs
      else match split bs with
        | [] => [[b]]
        | l :: ls => (b :: l) :: ls
  let pieces := split input
  let pieces := if pieces.getLast? = some [] then pieces.dropLast else pieces
  pieces.map decode?

/-- Goes through the lines. Blank ones do nothing. -/
def run (t : Toolbox σ) : List (Option String) → Option Tool → Workshop σ →
    String × Ending × Workshop σ
  | lines, mode, s =>
    if s.world.cancelled then ("cancelled\n", .done, s)
    else match lines with
      | [] => (promptText mode, .done, s)
      | none :: _ => (promptText mode, .unreadable, s)
      | some line :: rest =>
        let line := trim line
        if line.isEmpty then
          let r := run t rest mode s
          (promptText mode ++ r.1, r.2)
        else
          let u := turn t mode s (.ofLine line)
          if u.goesOn then
            let r := run t rest u.mode u.shop
            (promptText mode ++ u.output ++ r.1, r.2)
          else (promptText mode ++ u.output, .done, u.shop)

/-- A whole session in routed mode. -/
def start (t : Toolbox σ) (input : Bytes) (s : Workshop σ) :
    String × Ending × Workshop σ :=
  let r := run t (inputLines input) none s
  (banner ++ "\n" ++ r.1, r.2)

end Anneal.Session
