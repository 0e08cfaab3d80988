import Anneal.Shell.Reader
import Anneal.Shell.Streams

/-!
# Ways to run commands

What is around the commands of a script, whatever they are: the rounds of a loop, a shell of its own
that its parent waits for, a program in place of the shell, a text that is collected, a condition.
-/

namespace Anneal.Shell

open Anneal.Text (Bytes)

def Source.isOver (source : Source) : Bool :=
  match source.pushed with
  | some .ending => true
  | _ => false

def overCommands (run : Command → Bool → State → State) : Nat → Source → State → State
  | 0, _, s => s
  | count + 1, source, s =>
    let source := { source with
      aliases := s.aliases, documentCount := s.documents.length, documents := [] }
    match next source with
    | .error f => { s with line := f.line }.object f.message |>.leave 2
    | .ok (none, _) => s
    | .ok (some c, source) =>
      let s := run c source.isOver { s with documents := s.documents ++ source.documents.map (·.2) }
      if s.isOn then overCommands run count source s else s

def roundLimit : Nat := 100000

/-- Repeats a step until it says that it is done. Too many rounds count as no end; one who prints for
a reader is ended when that reader has read enough. -/
def repeatUntil (step : State → State × Bool) : Nat → State → State
  | 0, s => match s.sink 1 with
    | .held _ => { s with flow := .leave (.signalled 13) }
    | _ => s.waitForever
  | rounds + 1, s =>
    let r := step s
    if r.2 then r.1 else repeatUntil step rounds r.1

/-- After the body of a loop: the state with the flow that the loop lets through, and whether the
loop ends. -/
def afterBody (s : State) : State × Bool :=
  match s.flow with
  | .on => (s, false)
  | .breaking levels =>
    ({ s with flow := if levels ≤ 1 then .on else .breaking (levels - 1) }, true)
  | .continuing levels =>
    if levels ≤ 1 then ({ s with flow := .on }, false)
    else ({ s with flow := .continuing (levels - 1) }, true)
  | _ => (s, true)

def looping (f : State → State) (s : State) : State :=
  { f { s with loops := s.loops + 1 } with loops := s.loops }

def endingOf (s : State) : Option Program.Ending :=
  match s.flow with
  | .leave e => some e
  | .timeUp => none
  | _ => some (.exited (s.status % 256))

def announce (signal : Nat) (s : State) : State :=
  if Signal.silent.contains signal then s else s.warn (Signal.describe signal)

/-- Goes on where a shell has waited for another one. What happened to the environment of the other
one is lost. -/
def rejoin (s r : State) : State :=
  let back := { r with toEnvironment := s.toEnvironment, disk := { r.disk with home := s.disk.home } }
  let back := match endingOf r with
    | some (.exited n) => back.withStatus n
    | some (.signalled n) => announce n (back.withStatus (128 + n))
    | none => back.waitForever
  let back := back.expire
  { back with toEnvironment := back.toEnvironment.receive (if back.isOn then Signal.child else 0) }

def forked (f : State → State) (s : State) : State :=
  rejoin s (f { s with toEnvironment := s.toEnvironment.fork s.nextPid, nextPid := s.nextPid + 1 })

def hasTraps (s : State) : Bool := s.traps.any fun t => !t.2.isEmpty

def replaced (f : State → State) (s : State) : State :=
  let r := f { s with toEnvironment := s.toEnvironment.stripped }
  let r := match endingOf r with
    | some e => { r with flow := .leave e }
    | none => r
  { r with traps := [] }

def apart (f : State → State) (s : State) : State :=
  if s.final && !hasTraps s then replaced f s
  else forked (fun s => f { s with toEnvironment := s.toEnvironment.stripped }) s

def collecting (f : State → State) (s : State) : Bytes × State :=
  let level := s.held.length
  let r := f (setSink 1 (.held level) { s with held := s.held ++ [[]] })
  (State.flowed (r.held.getLastD []), { r with held := r.held.take level, sinks := s.sinks })

def checked (s : State) : State :=
  if s.has 'e' && !s.guarded && s.status ≠ 0 && s.isOn then s.leave s.status else s

def guarding (f : State → State) (s : State) : State :=
  { f { s with guarded := true, final := false } with guarded := s.guarded, final := s.final }

def unfinished (f : State → State) (s : State) : State :=
  { f { s with final := false } with final := s.final }

def reportJob (d : Done) (s : State) : State :=
  if !s.isOn then s
  else match d.ending with
    | .exited n => s.withStatus n
    | .signalled n => announce n (s.withStatus (128 + n))

end Anneal.Shell
