import Anneal.Program.Capture
import Anneal.World

/-!
# Running programs

A program runs as a child process of a host. One thread writes its input and one reads each of its
outputs while its end is awaited; what the host answered to their calls is known when they are joined.
A pipe is closed once nobody holds its other end, which may be a process that outlives the child. Where
that never happens, neither does the call come back. None of the threads is asked how far it got.
-/

namespace Anneal.Program

open Anneal.Text (Bytes)

structure Command where
  program : String
  args : List String
  deriving DecidableEq, Repr

inductive Ending where
  | exited (code : Nat)
  | signalled (signal : Nat)
  deriving DecidableEq, Repr

def Ending.code? : Ending → Option Nat
  | .exited code => some code
  | .signalled _ => none

inductive Channel where
  | stdout | stderr
  deriving DecidableEq, Repr

def Channel.name : Channel → String
  | .stdout => "stdout"
  | .stderr => "stderr"

inductive Joined (α : Type) where
  | done (result : α)
  | panicked
  | never

inductive Close where
  | closed
  | failed (e : OsError)
  | panicked
  | held

/-- What a thread read of an output. A read that brings nothing is the end. -/
structure Reads where
  pieces : List Bytes
  close : Close
  filled : ∀ piece ∈ pieces, piece ≠ []

def Reads.ofStream (stream : Bytes) : Reads :=
  ⟨Capture.pieces stream, .closed, Capture.pieces_filled stream⟩

/-- The system calls that are made for a child, which is known by its number. `spawn` is told whether
the input is a pipe, `feed` begins to write all of it, `waitTimeout` waits for so many milliseconds at
most, and `written` and `reads` are what the threads had come to when they are joined. -/
structure Host (σ : Type) where
  spawn : Command → Bool → World σ → Except OsError Nat × World σ
  feed : Nat → Bytes → World σ → World σ
  waitTimeout : Nat → Nat → World σ → Except OsError (Option Ending) × World σ
  kill : Nat → World σ → Except OsError Unit × World σ
  wait : Nat → World σ → Except OsError Ending × World σ
  written : Nat → World σ → Joined (Except OsError Unit) × World σ
  reads : Nat → Channel → World σ → Reads × World σ

structure Order where
  command : Command
  input : Option Bytes
  timeoutMs : Nat
  limit : Nat

structure Output where
  ending : Ending
  timedOut : Bool
  stdout : Capture
  stderr : Capture
  deriving DecidableEq, Repr

namespace Output

def success (o : Output) : Bool := !o.timedOut && o.ending == .exited 0

def stdoutText (o : Output) : String := o.stdout.text "stdout"

def stderrText (o : Output) : String := o.stderr.text "stderr"

end Output

variable {σ α : Type}

/-- What is done with a child. It may fail, and it may never come to an end. -/
abbrev Task (σ : Type) := ExceptT Failure (StateT (World σ) Option)

def Task.start (x : Task σ α) (w : World σ) : Option (Except Failure α × World σ) := x.run.run w

def attempt (context : String) (call : World σ → Except OsError α × World σ) : Task σ α :=
  ExceptT.mk fun w => some ((call w).1.mapError (Failure.ofOs context), (call w).2)

def awaitEnd (host : Host σ) (pid ms : Nat) : Task σ (Ending × Bool) := do
  match ← attempt "wait for command" (host.waitTimeout pid ms) with
  | some ending => return (ending, false)
  | none =>
    attempt "kill command" (host.kill pid)
    return (← attempt "wait command after kill" (host.wait pid), true)

def join {β : Type} (call : World σ → Joined α × World σ) (panicked : Failure)
    (finish : α → Except Failure β) : Task σ β :=
  ExceptT.mk fun w => match call w with
    | (.done a, w) => some (finish a, w)
    | (.panicked, w) => some (.error panicked, w)
    | (.never, _) => none

/-- What is made of the answer to the write of an input. A broken pipe tells that the child ended
without reading all of it, and any other fault is not worth more than a warning. -/
def afterInput : Except OsError Unit → Except Failure Unit
  | .ok () => .ok ()
  | .error .brokenPipe => .ok ()
  | .error _ => .ok ()

def joinInput (host : Host σ) (pid : Nat) : Option Bytes → Task σ Unit
  | none => return
  | some _ => join (host.written pid) (.of "stdin writer thread panicked") afterInput

def drain (limit : Nat) (r : Reads) : Joined (Except OsError Capture) :=
  match r.close with
  | .closed => .done (.ok (.read limit r.pieces))
  | .failed e => .done (.error e)
  | .panicked => .panicked
  | .held => .never

def joinOutput (host : Host σ) (limit pid : Nat) (channel : Channel) : Task σ Capture :=
  let failed (f : Failure) : Failure := .within s!"join {channel.name}" f
  join (fun w => (drain limit (host.reads pid channel w).1, (host.reads pid channel w).2))
    (failed (.of "output reader thread panicked"))
    (Except.mapError fun e => failed (.ofOs "read output" e))

def feedInput (host : Host σ) (pid : Nat) : Option Bytes → Task σ Unit
  | none => return
  | some bytes => modify (host.feed pid bytes)

def oversee (host : Host σ) (order : Order) (pid : Nat) : Task σ Output := do
  feedInput host pid order.input
  let (ending, timedOut) ← awaitEnd host pid order.timeoutMs
  joinInput host pid order.input
  let stdout ← joinOutput host order.limit pid .stdout
  let stderr ← joinOutput host order.limit pid .stderr
  return ⟨ending, timedOut, stdout, stderr⟩

def hasNul (s : String) : Bool := s.toList.contains '\x00'

def Command.hasNul (c : Command) : Bool := Program.hasNul c.program || c.args.any Program.hasNul

def Command.shownName (c : Command) : String :=
  if Program.hasNul c.program then "<string-with-nul>" else c.program

def spawn (host : Host σ) (c : Command) (piped : Bool) : Task σ Nat :=
  attempt s!"spawn {c.shownName}" fun w =>
    if c.hasNul then (.error .nulWord, w) else host.spawn c piped w

/-- Runs a program; nothing comes back if a pipe of it is held for ever. -/
def run (host : Host σ) (order : Order) : Task σ Output := do
  let pid ← spawn host order.command order.input.isSome
  oversee host order pid

end Anneal.Program
