import Anneal.Disk
import Anneal.Program.Run
import Anneal.Shell.Signals
import Anneal.Shell.Syntax

/-!
# The state of a shell

What a shell knows while it runs. Its environment is its own: a shell that it starts works on a copy,
and nothing that happens to the copy comes back. The rest is shared by all that run: the disk, what
was printed, the clock, and the jobs that go on by themselves. Time passes only while a program
sleeps; what was printed carries its time, because jobs print between the lines of their shell.
-/

namespace Anneal.Shell

open Anneal.Text (Bytes)

inductive Sink where
  | out
  | err
  | file (place : Place)
  | held (level : Nat)
  | nowhere
  deriving DecidableEq, Repr

inductive Flow where
  | on
  | leave (ending : Program.Ending)
  | timeUp
  | breaking (levels : Nat)
  | continuing (levels : Nat)
  | returning
  deriving DecidableEq, Repr

structure Saved where
  name : String
  value : Option String
  exported : Bool

structure Environment where
  pid : Nat
  shellPid : Nat
  parents : List Nat
  bindings : List (String × String)
  exported : List String
  readOnly : List String
  functions : List (String × Command)
  aliases : List (String × String)
  saved : List (List Saved)
  args : List String
  name : String
  status : Nat
  taken : Option Nat
  sinks : List (Nat × Sink)
  sources : List (Nat × Bytes)
  documents : List Word
  flow : Flow
  options : List Char
  loops : Nat
  guarded : Bool
  final : Bool
  line : Nat
  traps : List (Nat × String)
  caught : List Nat
  deadline : Option (Nat × Flow)
  lastJob : Option Nat
  reading : String

structure Chunk where
  time : Nat
  pid : Nat
  bytes : Bytes

structure Job where
  environment : Environment
  home : Place
  began : Nat
  body : Command
  stop : Option (Nat × Nat)

structure Done where
  pid : Nat
  time : Nat
  ending : Program.Ending
  endless : Bool

structure Notice where
  time : Nat
  sender : Nat
  pid : Nat
  signal : Nat

structure State extends Environment where
  disk : Disk
  links : List (Place × String)
  input : Bytes
  out : List Chunk
  err : List Chunk
  held : List (List Chunk)
  elapsed : Nat
  jobs : List Job
  done : List Done
  sent : List Notice
  nextPid : Nat

namespace Environment

def firstPid : Nat := 4242

def presets : List (String × String) :=
  [("IFS", " \t\n"), ("OPTIND", "1"), ("PS1", "# "), ("PS2", "> "), ("PS4", "+ "),
   ("PATH", "/usr/local/sbin:/usr/local/bin:/usr/sbin:/usr/bin:/sbin:/bin")]

def start (timeout : Nat) : Environment :=
  { pid := firstPid, shellPid := firstPid, parents := [], bindings := presets, exported := ["PATH"]
    readOnly := [], functions := [], aliases := [], saved := [], args := [], name := "sh", status := 0
    taken := none, sinks := [(1, .out), (2, .err)], sources := [], documents := [], flow := .on, options := []
    loops := 0, guarded := false, final := false, line := 1, traps := [], caught := []
    deadline := some (timeout, .timeUp), lastJob := none, reading := "" }

def isOn (e : Environment) : Bool := e.flow == .on

def has (e : Environment) (option : Char) : Bool := e.options.contains option

def optionLetters : List Char :=
  ['e', 'f', 'I', 'i', 'm', 'n', 's', 'x', 'v', 'V', 'E', 'C', 'a', 'b', 'u', 'p']

def switch (e : Environment) (letters : List Char) (on : Bool) : Environment :=
  let others := e.options.filter fun c => !letters.contains c
  { e with options := if on then letters ++ others else others }

def fork (e : Environment) (pid : Nat) : Environment :=
  { e with
    pid := pid, parents := e.pid :: e.parents, deadline := none, final := true, caught := []
    traps := e.traps.filter fun t => t.2.isEmpty }

def stripped (e : Environment) : Environment :=
  { e with
    shellPid := e.pid
    bindings :=
      let own := e.bindings.filter fun v =>
        e.exported.contains v.1 && (v.1 = "PATH" || (presets.lookup v.1).isNone)
      own ++ presets.filter fun v => (own.lookup v.1).isNone
    traps := e.traps.filter fun t => t.2.isEmpty
    readOnly := [], functions := [], aliases := [], saved := [], args := [], documents := []
    options := []
    loops := 0, guarded := false, line := 1, status := 0, lastJob := none, reading := "" }

def receive (e : Environment) (signal : Nat) : Environment :=
  let killed : Environment := { e with flow := .leave (.signalled signal) }
  if signal = 0 then e
  else if Signal.absolute.contains signal then
    if Signal.stopping.contains signal then { e with flow := .timeUp } else killed
  else match e.traps.lookup signal with
    | some "" => e
    | some _ => { e with caught := e.caught ++ [signal] }
    | none =>
      if Signal.harmless.contains signal then e
      else if Signal.stopping.contains signal then { e with flow := .timeUp }
      else killed

end Environment

namespace State

def start (d : Disk) (input : Bytes) (timeout : Nat) : State :=
  { toEnvironment := .start timeout, disk := d, links := [], input := input, out := [], err := []
    held := [], elapsed := 0, jobs := [], done := [], sent := []
    nextPid := Environment.firstPid + 1 }

def withStatus (s : State) (n : Nat) : State := { s with status := n }

def leave (s : State) (n : Nat) : State :=
  { s with status := n % 256, flow := .leave (.exited (n % 256)) }

/-- What has reached the shell by now: signals in the order of their times, and the end of its time if
that comes before them. -/
def expire (s : State) : State :=
  let now := s.elapsed
  let (due, others) := s.sent.partition fun n => n.pid = s.pid && n.time ≤ now
  let s := { s with sent := others }
  let tooLate (time : Nat) : Bool := match s.deadline with
    | some (deadline, _) => deadline < time
    | none => false
  let s := (due.mergeSort fun a b => a.time ≤ b.time).foldl (fun s n =>
    if s.flow != .on || tooLate n.time then s
    else { s with toEnvironment := s.toEnvironment.receive n.signal }) s
  match s.deadline with
  | some (time, flow) => if s.flow == .on && time < now then { s with flow := flow } else s
  | none => s

def pause (s : State) (ms : Nat) : State := expire { s with elapsed := s.elapsed + ms }

def waitForever (s : State) : State :=
  let s := match s.deadline with
    | some (time, _) => s.pause (time + 1 - s.elapsed)
    | none => s
  if s.flow == .on then { s with flow := .timeUp } else s

def pauseUntil (s : State) (time : Nat) : State := s.pause (time - s.elapsed)

def addHeld (level : Nat) (c : Chunk) (held : List (List Chunk)) : List (List Chunk) :=
  held.modify level fun pieces => c :: pieces

def sink (s : State) (stream : Nat) : Sink := (s.sinks.lookup stream).getD .nowhere

def voidPlace : Place := ["dev", "null"]

def appendTo (d : Disk) (p : Place) (bs : Bytes) : Disk :=
  if p = voidPlace then d
  else match d.node? p with
  | some (.file old executable) => d.set p (.file (old ++ bs) executable)
  | _ => d.set p (.file bs false)

def write (s : State) (stream : Nat) (bs : Bytes) : State :=
  let chunk : Chunk := ⟨s.elapsed, s.pid, bs⟩
  if bs.isEmpty then s
  else match s.sink stream with
    | .out => { s with out := chunk :: s.out }
    | .err => { s with err := chunk :: s.err }
    | .file p => { s with disk := appendTo s.disk p bs }
    | .held level => { s with held := addHeld level chunk s.held }
    | .nowhere => s

def print (s : State) (text : String) : State := s.write 1 (Text.encode text)

def warn (s : State) (text : String) : State := s.write 2 (Text.encode (text ++ "\n"))

def complain (s : State) (text : String) : State := s.warn s!"{s.name}: {s.line}: {text}"

def object (s : State) (text : String) : State := s.complain (s.reading ++ text)

def flowed (pieces : List Chunk) : Bytes :=
  (pieces.reverse.mergeSort fun a b => a.time ≤ b.time).flatMap (·.bytes)

def retract (s : State) (pid time : Nat) : State :=
  let keep (c : Chunk) : Bool := c.pid ≠ pid || c.time ≤ time
  { s with
    out := s.out.filter keep, err := s.err.filter keep, held := s.held.map fun h => h.filter keep }

def stored? (s : State) (name : String) : Option String := s.bindings.lookup name

def setIn (name value : String) : List (String × String) → List (String × String)
  | [] => [(name, value)]
  | (n, v) :: rest => if n = name then (n, value) :: rest else (n, v) :: setIn name value rest

def isFixed (s : State) (name : String) : Bool := s.readOnly.contains name

def put (s : State) (name value : String) : State :=
  { s with
    bindings := setIn name value s.bindings
    exported := if s.has 'a' then name :: s.exported else s.exported }

/-- Gives a variable a value. The shell ends when the variable is fixed; `teller` names the command
that says so. -/
def setBy (teller : String) (s : State) (name value : String) : State :=
  if s.isFixed name then
    (s.complain ((if teller.isEmpty then s.reading else teller) ++ s!"{name}: is read only")).leave 2
  else s.put name value

def set (s : State) (name value : String) : State := setBy "" s name value

def drop (s : State) (name : String) : State :=
  { s with bindings := s.bindings.filter fun v => v.1 ≠ name
           exported := s.exported.filter fun n => n ≠ name }

def restore (s : State) (v : Saved) : State :=
  let others := s.exported.filter fun n => n ≠ v.name
  { s with
    bindings := match v.value with
      | some value => setIn v.name value s.bindings
      | none => s.bindings.filter fun b => b.1 ≠ v.name
    exported := if v.exported then v.name :: others else others }

def isExported (s : State) (name : String) : Bool := s.exported.contains name

def parameter? (s : State) (name : String) : Option String :=
  match name with
  | "?" => some (toString s.status)
  | "$" => some (toString s.shellPid)
  | "#" => some (toString s.args.length)
  | "0" => some s.name
  | "-" => some (String.ofList (Environment.optionLetters.reverse.filter s.has))
  | "!" => s.lastJob.map toString
  | "*" => if s.args.isEmpty then none else some (Text.join " " s.args)
  | "@" => if s.args.isEmpty then none else some (Text.join " " s.args)
  | "PPID" => some (toString (s.parents.headD 1))
  | "PWD" => some ((s.stored? name).getD ("/" ++ Text.join "/" s.disk.home))
  | name =>
    if name.toList.all Char.isDigit then s.args[(name.toNat?.getD 0) - 1]?
    else s.stored? name

def linkOn? (links : List (Place × String)) : Place → List String → Option String
  | _, [] => none
  | p, name :: rest =>
    let q := Disk.stepInto p name
    match links.lookup q with
    | some target =>
      let from' := if target.startsWith "/" then target
        else "/" ++ Text.join "/" (p ++ [target])
      some (Text.join "/" (from' :: rest))
    | none => linkOn? links q rest

def followed (links : List (Place × String)) (home : Place) : Nat → String → Except OsError String
  | 0, _ => .error .tooManyLinks
  | count + 1, path =>
    let start := if path.startsWith "/" then [] else home
    match linkOn? links start (Disk.components path) with
    | some next =>
      followed links home count (if path.endsWith "/" then next ++ "/" else next)
    | none => .ok path

def linkLimit : Nat := 40

def follow (s : State) (path : String) : Except OsError String :=
  if s.links.isEmpty then .ok path else followed s.links s.disk.home linkLimit path

def stat (s : State) (path : String) : Except OsError (Place × Node) :=
  match s.follow path with
  | .ok path => s.disk.stat path
  | .error e => .error e

def load (s : State) (path : String) : Except OsError Bytes :=
  match s.follow path with
  | .ok path => s.disk.readBytesNow path
  | .error e => .error e

def ownPlace? (s : State) (path : String) : Option Place :=
  match (Disk.components path).reverse with
  | [] => none
  | last :: before =>
    let dir := if before.isEmpty then (if path.startsWith "/" then "/" else ".")
      else (if path.startsWith "/" then "/" else "") ++ Text.join "/" before.reverse
    match s.stat dir with
    | .ok (p, .directory) => some (Disk.stepInto p last)
    | _ => none

def link? (s : State) (path : String) : Option (Place × String) :=
  (s.ownPlace? path).bind fun p => (s.links.lookup p).map fun target => (p, target)

def putFile (s : State) (path : String) (update : Bytes → Bytes) : Except OsError Unit × State :=
  match s.follow path with
  | .error e => (.error e, s)
  | .ok path =>
    if (s.disk.stat path).toOption.any fun r => r.1 = voidPlace then (.ok (), s)
    else match s.disk.putNow path update with
      | (.ok (), d) => (.ok (), { s with disk := d })
      | (.error e, _) => (.error e, s)

def names (s : State) (p : Place) : List String :=
  let below (q : Place) : Option String :=
    if q.length = p.length + 1 ∧ p.isPrefixOf q then q.getLast? else none
  let all := s.disk.nodes.filterMap (fun e => below e.1) ++ s.links.filterMap fun e => below e.1
  all.mergeSort fun a b => !decide (Text.encode b < Text.encode a)

def reason (e : OsError) : String :=
  match Text.breakOn " (os error".toList e.message.toList with
  | some (text, _) => String.ofList text
  | none => e.message

def openReason (create : Bool) (e : OsError) : String :=
  if e = .notFound ∨ e = .notDirectory then
    if create then "Directory nonexistent" else "No such file"
  else reason e

end State
end Anneal.Shell
