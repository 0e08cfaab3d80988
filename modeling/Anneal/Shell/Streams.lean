import Anneal.Shell.State
import Anneal.Shell.Utility

/-!
# Streams of a shell

Where the streams of a command lead, and where its input comes from: opening files, and letting one
stream lead where another one does. What a redirection replaces is kept, to be put back behind the
command.
-/

namespace Anneal.Shell

open Anneal.Text (Bytes)

structure Kept where
  sinks : List (Nat × Sink)
  sources : List (Nat × Bytes)
  input : Option Bytes
  shared : Option Nat

def Kept.restore (k : Kept) (s : State) : State :=
  let sources := match k.shared with
    | some n => (n, s.input) :: k.sources.filter fun e => e.1 ≠ n
    | none => k.sources
  { s with sinks := k.sinks, sources := sources, input := k.input.getD s.input }

def setSink (stream : Nat) (sink : Sink) (s : State) : State :=
  { s with sinks := (stream, sink) :: s.sinks.filter fun e => e.1 ≠ stream }

def setSource (stream : Nat) (bs : Bytes) (s : State) : State :=
  if stream = 0 then { s with input := bs }
  else { s with sources := (stream, bs) :: s.sources.filter fun e => e.1 ≠ stream }

def closeStream (stream : Nat) (s : State) : State :=
  if stream = 0 then { s with input := [] }
  else { s with sinks := s.sinks.filter fun e => e.1 ≠ stream
                sources := s.sources.filter fun e => e.1 ≠ stream }

def openFile (stream : Nat) (append force : Bool) (path : String) (s : State) : Bool × State :=
  let failed (reason : String) : Bool × State :=
    (false, s.object s!"cannot create {path}: {reason}")
  if path = "/dev/null" then (true, setSink stream .nowhere s)
  else if path = "/dev/stderr" then (true, setSink stream (s.sink 2) s)
  else if path = "/dev/stdout" then (true, setSink stream (s.sink 1) s)
  else if s.has 'C' && !append && !force && (s.stat path).toOption.any fun r =>
      r.1 ≠ State.voidPlace then failed "File exists"
  else match s.putFile path (if append then id else fun _ => []) with
    | (.error e, _) => failed (State.openReason true e)
    | (.ok (), s) => match s.stat path with
      | .ok (p, _) => (true, setSink stream (.file p) s)
      | .error _ => (true, s)

def openInput (stream : Nat) (path : String) (s : State) : Bool × State :=
  if path = "/dev/stdin" then (true, setSource stream s.input s)
  else if path = "/dev/zero" then
    (true, setSource stream (List.replicate Utility.endlessCount 0) s)
  else match s.stat path with
    | .ok (_, .file content _) => (true, setSource stream content s)
    | .ok (_, .directory) => (true, setSource stream [] s)
    | .error e => (false, s.object s!"cannot open {path}: {State.openReason false e}")

def duplicate (stream : Nat) (target : String) (s : State) : Bool × State :=
  if target = "-" then (true, closeStream stream s)
  else match target.toNat? with
    | none => (false, s.object "Syntax error: Bad fd number")
    | some n =>
      if n = stream then (true, s)
      else match s.sources.lookup n with
        | some bs => (true, setSource stream bs s)
        | none =>
          if n = 0 then (true, setSource stream s.input s)
          else match s.sinks.lookup n with
            | some sink => (true, if stream = 0 then s else setSink stream sink s)
            | none => (false, s.object s!"{n}: Bad file descriptor")

end Anneal.Shell
