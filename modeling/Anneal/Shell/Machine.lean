import Anneal.Program.Machine
import Anneal.Shell.Arithmetic
import Anneal.Shell.Builtins
import Anneal.Shell.Homes
import Anneal.Shell.Nesting
import Anneal.Shell.PathNames
import Anneal.Shell.Programs
import Anneal.Shell.Streams

/-!
# Running shell scripts

The shell on a disk, and the machine that starts programs there: the shell itself, the small programs
beside it, and executable files that name their interpreter. A bound on nesting and a bound on the
rounds of a loop make every run end; a script that reaches one counts as a script that never ends.
-/

namespace Anneal.Shell

open Anneal.Text (Bytes)

def usable? (value : Option String) (orEmpty : Bool) : Option String :=
  match value with
  | some v => if orEmpty ∧ v.isEmpty then none else some v
  | none => none

def valueSegments (quoted : Bool) (value : String) : List Segment :=
  if quoted then [.fixed true value.toList] else [.split value.toList]

def argSegments (quoted : Bool) (args : List String) : List Segment :=
  (args.map fun a => valueSegments quoted a).intersperse [.cut] |>.flatten

def joinedArgs (s : State) : String :=
  let between := match s.stored? "IFS" with
    | none => " "
    | some ifs => String.ofList (ifs.toList.take 1)
  Text.join between s.args

def trace (words : List String) (s : State) : State :=
  if s.has 'x' then
    s.warn ((s.stored? "PS4").getD "+ " ++ Text.join " " words)
  else s

mutual

def expand : Nat → Word → State → List Segment × State
  | 0, _, s => ([], s.waitForever)
  | fuel + 1, w, s =>
    w.foldl (fun acc p =>
      if acc.2.isOn then
        let r := expandPiece fuel p acc.2
        (acc.1 ++ r.1, r.2)
      else acc) ([], s)

def expandPiece : Nat → Piece → State → List Segment × State
  | 0, _, s => ([], s.waitForever)
  | fuel + 1, p, s =>
    match p with
    | .text quoted cs => ([.fixed quoted cs], s)
    | .arithmetic quoted body =>
      let (segments, s) := expand fuel body s
      if !s.isOn then ([], s)
      else
        let text := wholeText segments
        match Arithmetic.run (fun x => (s.parameter? x).getD "") text with
        | .ok (n, given) =>
          let s := given.reverse.foldl (fun s g => s.set g.1 (toString g.2)) s
          (valueSegments quoted (toString n), s)
        | .error e => ([], (s.object (e.message (String.ofList text))).leave 2)
    | .output quoted line script =>
      let (bytes, s) := collecting (fun s => settleHeld fuel s.held.length
        (forked (fun s => atExit fuel (runScript fuel line script { s with guarded := false })) s)) s
      let text := (Text.decodeLossy (bytes.filter (· != 0))).toList
      let text := (text.reverse.dropWhile (· == '\n')).reverse
      (valueSegments quoted (String.ofList text), { s with taken := some s.status })
    | .parameter quoted name modifier operand =>
      let value := s.parameter? name
      let unset := s.has 'u' && value.isNone && name ≠ "@" && name ≠ "*"
      let missing : List Segment × State := ([], (s.object s!"{name}: parameter not set").leave 2)
      match modifier with
      | .bad => ([], (s.object "Bad substitution").leave 2)
      | .none =>
        if name = "@" ∨ (name = "*" ∧ !quoted) then (argSegments quoted s.args, s)
        else if name = "*" then (valueSegments quoted (joinedArgs s), s)
        else if unset then missing
        else (valueSegments quoted (value.getD ""), s)
      | .length =>
        if unset then missing
        else
          let n := (Text.encode (if name = "@" ∨ name = "*" then joinedArgs s
            else value.getD "")).length
          (valueSegments quoted (toString n), s)
      | .default orEmpty =>
        match usable? value orEmpty with
        | some v =>
          (if name = "@" ∨ (name = "*" ∧ !quoted) then argSegments quoted s.args
            else valueSegments quoted v, s)
        | none =>
          let r := expand fuel (Homes.expand s operand) s
          (if quoted then asQuoted r.1 else asUnquoted r.1, r.2)
      | .assign orEmpty =>
        match usable? value orEmpty with
        | some v => (valueSegments quoted v, s)
        | none =>
          if !isName name.toList then ([], (s.object s!"{name}: bad variable name").leave 2)
          else
            let r := expand fuel (Homes.expand s operand) s
            let v := String.ofList (wholeText r.1)
            (valueSegments quoted v, if r.2.isOn then r.2.set name v else r.2)
      | .complain orEmpty =>
        match usable? value orEmpty with
        | some v => (valueSegments quoted v, s)
        | none =>
          let r := expand fuel (Homes.expand s operand) s
          let text := String.ofList (wholeText r.1)
          let reason := if text.isEmpty then
              if orEmpty then "parameter not set or null" else "parameter not set"
            else text
          ([], if r.2.isOn then (r.2.object s!"{name}: {reason}").leave 2 else r.2)
      | .replace orEmpty =>
        match usable? value orEmpty with
        | none => (if quoted then [.fixed true []] else [], s)
        | some _ =>
          let r := expand fuel (Homes.expand s operand) s
          (if quoted then asQuoted r.1 else asUnquoted r.1, r.2)
      | .cutStart longest =>
        if unset then missing
        else
          let r := expand fuel (Homes.expand s operand) s
          let v := (wholePattern r.1).cutStart longest (value.getD "").toList
          (valueSegments quoted (String.ofList v), r.2)
      | .cutEnd longest =>
        if unset then missing
        else
          let r := expand fuel (Homes.expand s operand) s
          let v := (wholePattern r.1).cutEnd longest (value.getD "").toList
          (valueSegments quoted (String.ofList v), r.2)

def textOf : Nat → Word → State → String × State
  | 0, _, s => ("", s.waitForever)
  | fuel + 1, w, s =>
    let r := expand fuel (Homes.expand s w) s
    (String.ofList (wholeText r.1), r.2)

def fieldsOfWords : Nat → List Word → State → List String × State
  | 0, _, s => ([], s.waitForever)
  | fuel + 1, ws, s =>
    ws.foldl (fun acc w =>
      if acc.2.isOn then
        let (segments, s) := expand fuel (Homes.expand acc.2 w) acc.2
        let fields := fieldsOf (Builtins.separators s) segments
        (acc.1 ++ fields.flatMap (PathNames.expand s), s)
      else acc) ([], s)

/-- The name and the arguments of a command. An assignment among the arguments of a command that
declares variables is one field. -/
def commandFields : Nat → List Word → State → List String × State
  | 0, _, s => ([], s.waitForever)
  | fuel + 1, ws, s =>
    ws.foldl (fun acc w =>
      if acc.2.isOn then
        match if Builtins.declares acc.2 acc.1 then assignment? w else none with
        | some (name, value) =>
          let (text, s) := textOf fuel (Homes.inValue acc.2 value) acc.2
          (acc.1 ++ [s!"{name}={text}"], s)
        | none =>
          let (fields, s) := fieldsOfWords fuel [w] acc.2
          (acc.1 ++ fields, s)
      else acc) ([], s)

/-- Carries out redirections, up to one that fails, and tells which stream the input was taken
from. -/
def redirect : Nat → List Redirect → State → Bool × Option Nat × State
  | 0, _, s => (false, none, s.waitForever)
  | fuel + 1, rs, s =>
    rs.foldl (fun acc r =>
      if acc.1 && acc.2.2.isOn then
        let (target, s) := textOf fuel r.target acc.2.2
        let shared := if r.stream = 0 then none else acc.2.1
        if !s.isOn then (false, shared, s)
        else match r.direction with
        | .input => ((openInput r.stream target s).1, shared, (openInput r.stream target s).2)
        | .output force =>
          let t := openFile r.stream false force target s
          (t.1, shared, t.2)
        | .append =>
          let t := openFile r.stream true true target s
          (t.1, shared, t.2)
        | .duplicate =>
          let t := duplicate r.stream target s
          let from' := target.toNat?.filter fun n => r.stream = 0 && n ≠ 0
          (t.1, if r.stream = 0 then from' else shared, t.2)
        | .document =>
          let body := (s.documents[(target.toNat?).getD 0]?).getD []
          let (text, s) := textOf fuel body s
          (s.isOn, shared, setSource r.stream (Text.encode text) s)
      else acc) (true, none, s)

/-- Runs a command with its redirections; the command is told where the messages of the shell went
before them. -/
def redirected : Nat → List Redirect → (State → State) → State → State
  | 0, _, _, s => s.waitForever
  | fuel + 1, rs, f, s =>
    if rs.isEmpty then f s
    else
      let replaces := rs.any fun r => r.stream = 0
      let (opened, shared, t) := redirect fuel rs s
      let kept : Kept := ⟨s.sinks, s.sources, if replaces then some s.input else none, shared⟩
      if !t.isOn then kept.restore t
      else if opened then kept.restore (f t)
      else { kept.restore (t.withStatus 2) with taken := some 2, flow := .on }

def assign : Nat → List (String × Word) → State → List String × State
  | 0, _, s => ([], s.waitForever)
  | fuel + 1, as, s =>
    as.foldl (fun acc a =>
      if acc.2.isOn then
        let (value, s) := textOf fuel (Homes.inValue acc.2 a.2) acc.2
        if s.isOn then (acc.1 ++ [s!"{a.1}={value}"], s.set a.1 value) else (acc.1, s)
      else acc) ([], s)

def start : Nat → String → List String → State → State
  | 0, _, _, s => s.waitForever
  | fuel + 1, program, args, s =>
    let path := (s.stored? "PATH").getD ""
    match pathOf s path program with
    | .error e => (s.object s!"{program}: {startReason e}").withStatus 127
    | .ok found =>
      let s := catchUp fuel s
      match resolveFile s interpreterLimit found program args with
      | .ok p => apart (startTool fuel p) s
      | .error .execFormat => apart (shell fuel "sh" (found :: args)) s
      | .error e => (s.object s!"{program}: {startReason e}").withStatus (startStatus e)

/-- Runs a program for another one, as the process that the state is about. A failure to start it is told
of under the text `called`. -/
def startFor : Nat → String → String → List String → State → State
  | 0, _, _, _, s => s.waitForever
  | fuel + 1, called, program, args, s =>
    match resolve s ((s.stored? "PATH").getD defaultPath) program args with
    | .ok p => startTool fuel p s
    | .error .execFormat => shell fuel "sh" (program :: args) s
    | .error e => Utility.fail s (startStatus e) s!"{called}: {State.reason e}"

def startTool : Nat → Started → State → State
  | 0, _, s => s.waitForever
  | fuel + 1, p, s =>
    let s := { s with name := p.name }
    match p.tool with
    | "sh" => shell fuel p.name p.args s
    | "env" => envProgram fuel p.args s
    | "timeout" => timeoutProgram fuel p.args s
    | tool => match programs.lookup tool with
      | some f => f p.args s
      | none => s.withStatus 127

def envProgram : Nat → List String → State → State
  | 0, _, s => s.waitForever
  | fuel + 1, args, s =>
    let cleared (s : State) : State := { s with bindings := [], exported := [] }
    match args with
    | "-" :: rest => envProgram fuel rest (cleared s)
    | "-i" :: rest => envProgram fuel rest (cleared s)
    | "--ignore-environment" :: rest => envProgram fuel rest (cleared s)
    | "--" :: rest => envSettings fuel rest s
    | "-u" :: name :: rest => envProgram fuel rest (s.drop name)
    | "-C" :: dir :: rest => match s.stat dir with
      | .ok (p, .directory) => envProgram fuel rest { s with disk := { s.disk with home := p } }
      | .ok _ => Utility.fail s 125 s!"cannot change directory to {Utility.inQuotes dir}: Not a directory"
      | .error e =>
        Utility.fail s 125 s!"cannot change directory to {Utility.inQuotes dir}: {State.reason e}"
    | "-S" :: text :: rest =>
      envProgram fuel ((Text.words text.toList).map String.ofList ++ rest) s
    | word :: rest => match word.toList with
      | '-' :: 'S' :: cs => envProgram fuel ((Text.words cs).map String.ofList ++ rest) s
      | '-' :: 'u' :: cs => envProgram fuel rest (s.drop (String.ofList cs))
      | '-' :: '-' :: _ => Utility.misused s 125 s!"unrecognized option '{word}'"
      | '-' :: c :: _ =>
        Utility.misused s 125 ("invalid option -- '" ++ String.ofList [c] ++ "'")
      | _ => envSettings fuel (word :: rest) s
    | [] => envSettings fuel [] s

def envSettings : Nat → List String → State → State
  | 0, _, s => s.waitForever
  | fuel + 1, args, s =>
    let settings := args.takeWhile fun a => a.toList.contains '='
    let s := settings.foldl (fun s a =>
      let (name, value) := Builtins.binding a
      { s.put name (value.getD "") with exported := name :: s.exported }) s
    match args.drop settings.length with
    | [] => Utilities.printenv [] s
    | program :: args =>
      let r := startFor fuel (Utility.cited program) program args s
      let missing := match resolve s ((s.stored? "PATH").getD defaultPath) program args with
        | .error .notFound => true
        | _ => false
      if missing && program.toList.any (classHolds "space") then
        r.warn s!"{s.name}: use -[v]S to pass options in shebang lines"
      else r

def timeoutProgram : Nat → List String → State → State
  | 0, _, s => s.waitForever
  | fuel + 1, args, s =>
    let grammar : Utility.Grammar := ⟨['p', 'f', 'v'], ['s', 'k'],
      [("preserve-status", 'p'), ("foreground", 'f'), ("signal", 's'), ("kill-after", 'k')], false⟩
    match Utility.options grammar (args.length + 1) args with
    | .error e => Utility.misused s 125 e.message
    | .ok o => match o.operands with
      | [] => s.warn s!"Try '{s.name} --help' for more information." |>.withStatus 125
      | [_] => s.warn s!"Try '{s.name} --help' for more information." |>.withStatus 125
      | time :: program :: args => match Utilities.duration? time with
        | none => Utility.misused s 125 s!"invalid time interval {Utility.cited time}"
        | some ms =>
          let signal := ((o.value? 's').bind fun name =>
            Signal.number? (if name.startsWith "SIG" then String.ofList (name.toList.drop 3)
              else name)).getD 15
          let r := startFor fuel s!"failed to run command {Utility.cited program}" program args { s with
            toEnvironment := { s.toEnvironment.fork s.nextPid with
              deadline := if ms = 0 then none
                else some (s.elapsed + ms, .leave (.signalled signal)) }
            nextPid := s.nextPid + 1 }
          let back := { r with toEnvironment := s.toEnvironment, disk := { r.disk with home := s.disk.home } }
          match endingOf r with
          | some (.exited n) => back.expire.withStatus n
          | some (.signalled n) =>
            if n = 9 then { back with flow := .leave (.signalled 9) }
            else
              let timedOut := ms ≠ 0 && s.elapsed + ms ≤ r.elapsed
              let status := if timedOut && !o.has 'p' then 124 else 128 + n
              let at' := if timedOut then { back with elapsed := s.elapsed + ms } else back
              at'.expire.withStatus status
          | none => back.waitForever

def shell : Nat → String → List String → State → State
  | 0, _, _, s => s.waitForever
  | fuel + 1, name, args, s =>
    let fault (text : String) (s : State) : State := s.warn s!"{name}: 0: {text}" |>.leave 2
    let (own, words, s) := Builtins.optionWords fault ['c', 'l'] (args.length + 1) args
      { s with name := name }
    let words := words.getD []
    if !s.isOn then s
    else if own.contains 'c' then
      match words with
      | [] => fault "-c requires an argument" s
      | text :: rest =>
        atExit fuel (runText fuel true 1 text.toList
          { s with name := rest.headD name, args := rest.drop 1 })
    else
      let run (s : State) (bs : Bytes) : State :=
        atExit fuel (runText fuel false 1 (Text.decodeLossy bs).toList s)
      match words, s.has 's' with
      | word :: rest, false => match s.stat word with
        | .error e => fault s!"cannot open {word}: {State.openReason false e}" s
        | .ok (_, .directory) => s
        | .ok (_, .file content _) => run { s with name := word, args := rest } content
      | words, _ =>
        run { s with input := [], args := words, options := s.options ++ ['s'] } s.input

/-- Runs the commands of a script one after the other. Nothing is left to do after the last one if the
script ends with it. -/
def runText : Nat → Bool → Nat → List Char → State → State
  | 0, _, _, _, s => s.waitForever
  | fuel + 1, ends, line, text, s =>
    let run (c : Command) (last : Bool) (s : State) : State :=
      exec fuel c { s with final := ends && last }
    overCommands run (text.length + 2) (.ofText line s.aliases text) s

def runScript : Nat → Nat → List Char → State → State
  | 0, _, _, s => s.waitForever
  | fuel + 1, line, text, s => runText fuel true line text s

def runWithin : Nat → String → List Char → State → State
  | 0, _, _, s => s.waitForever
  | fuel + 1, reading, text, s =>
    { unfinished (runText fuel false 1 text) { s with reading := reading } with
      reading := s.reading, line := s.line }

def runTraps : Nat → State → State
  | 0, s => s.waitForever
  | fuel + 1, s =>
    match s.caught with
    | [] => s
    | signal :: later =>
      if !s.isOn then s
      else
        let s := { s with caught := later }
        match s.traps.lookup signal with
        | none => runTraps fuel s
        | some text =>
          let status := s.status
          let r := runWithin fuel "" text.toList s
          runTraps fuel (if r.isOn then r.withStatus status else r)

def atExit : Nat → State → State
  | 0, s => s.waitForever
  | fuel + 1, s =>
    let status := match s.flow with
      | .leave (.exited n) => some n
      | .leave (.signalled _) => none
      | .timeUp => none
      | _ => some s.status
    match status, s.traps.lookup Signal.exit with
    | some status, some text =>
      let r := runWithin fuel "" text.toList
        { s with flow := .on, status := status, final := false
                 traps := s.traps.filter fun t => t.1 ≠ Signal.exit }
      match r.flow with
      | .leave _ => r
      | .timeUp => r
      | _ => r.leave status
    | _, _ => s

def runJob : Nat → Job → State → State
  | 0, _, s => s.waitForever
  | fuel + 1, job, s =>
    let stop := job.stop.map fun stop => (stop.2, Flow.leave (.signalled stop.1))
    let began := { s with
      toEnvironment := { job.environment with deadline := stop }
      disk := { s.disk with home := job.home }, elapsed := job.began, input := [], jobs := []
      sent := [] }
    let r := settle fuel (atExit fuel (exec fuel job.body began))
    let time := match stop with
      | some (time, _) => if r.flow = .leave (.signalled (job.stop.getD (0, 0)).1)
          then min time r.elapsed else r.elapsed
      | none => r.elapsed
    let ending := (endingOf r).orElse fun _ => job.stop.map fun stop => .signalled stop.1
    let done : Done := ⟨job.environment.pid, time, ending.getD (.signalled 9), ending.isNone⟩
    { r with
      toEnvironment := s.toEnvironment, disk := { r.disk with home := s.disk.home }
      elapsed := s.elapsed, input := s.input, jobs := s.jobs, sent := s.sent ++ r.sent
      done := done :: r.done }

def settle : Nat → State → State
  | 0, s => s.waitForever
  | fuel + 1, s =>
    let r := s.jobs.foldl (fun r job => { runJob fuel job r with sent := r.sent }) { s with jobs := [] }
    if r.jobs.isEmpty then r else settle fuel r

def catchUp : Nat → State → State
  | 0, s => s.waitForever
  | fuel + 1, s =>
    s.jobs.foldl (fun r job =>
      let t := runJob fuel job r
      match t.done.head? with
      | some d => if d.time ≤ s.elapsed && !d.endless then { t with sent := r.sent }
          else { r with jobs := r.jobs ++ [job] }
      | none => r) { s with jobs := [] }

def settleHeld : Nat → Nat → State → State
  | 0, _, s => s.waitForever
  | fuel + 1, level, s =>
    let mine (job : Job) : Bool := job.environment.sinks.any fun e => e.2 == .held (level - 1)
    let (waited, others) := s.jobs.partition mine
    if waited.isEmpty then s
    else
      let pids := waited.map fun j => j.environment.pid
      let r := settle fuel { s with jobs := waited }
      let last := (r.done.filter fun d => pids.contains d.pid).foldl (fun t d => max t d.time) 0
      ({ r with jobs := others ++ r.jobs }).pauseUntil last

def background : Nat → Command → State → State
  | 0, _, s => s.waitForever
  | fuel + 1, body, s =>
    let pid := s.nextPid
    let job : Job := ⟨s.toEnvironment.fork pid, s.disk.home, s.elapsed, body, none⟩
    let s := { s with nextPid := pid + 1, lastJob := some pid }
    let sent := (runJob fuel job s).sent
    { s with jobs := s.jobs ++ [job], sent := sent, status := 0 }

def wait : Nat → List String → State → State
  | 0, _, s => s.waitForever
  | fuel + 1, args, s =>
    let until' (d : Done) (s : State) : State := if d.endless then s.waitForever else s.pauseUntil d.time
    let s := settle fuel s
    if args.isEmpty then
      let s := s.done.foldl (fun s d => if s.isOn then until' d s else s) (s.withStatus 0)
      runTraps fuel s
    else args.foldl (fun s word =>
      if !s.isOn then s
      else match Builtins.digits? word with
      | none => if word.startsWith "%" then
            match s.done.head? with
            | some d => reportJob d (until' d s)
            | none => Builtins.fail s 2 s!"wait: No such job: {word}"
          else Builtins.fail s 2 s!"wait: Illegal number: {word}"
      | some pid => match s.done.find? fun d => d.pid = pid with
        | none => s.withStatus 127
        | some d => reportJob d (until' d s)) s
def describe : Nat → Bool → String → State → Option String
  | 0, _, _, _ => none
  | _ + 1, long, name, s =>
    let say (text : String) : Option String := some (if long then s!"{name} is {text}" else name)
    if keywords.contains name then say "a shell keyword"
    else if let some text := s.aliases.lookup name then
      some (if long then s!"{name} is an alias for {text}"
        else "alias " ++ name ++ "=" ++ Builtins.quoted text)
    else if (s.functions.lookup name).isSome then say "a shell function"
    else if specialNames.contains name then say "a special shell builtin"
    else if Builtins.isBuiltin name then say "a shell builtin"
    else match pathOf s ((s.stored? "PATH").getD "") name with
      | .error _ => none
      | .ok path =>
        if (installed? path).isSome || (s.stat path).isOk then
          some (if long then s!"{name} is {path}" else path)
        else none

def sourceFile : Nat → List String → State → State
  | 0, _, s => s.waitForever
  | fuel + 1, args, s =>
    match args with
    | [] => s.withStatus 0
    | path :: _ =>
      let paths := if path.toList.contains '/' then [path]
        else candidates ((s.stored? "PATH").getD "") path
      let found := paths.findSome? fun p => match s.stat p with
        | .ok (_, .file content _) => some (p, content)
        | _ => none
      match found with
      | some (p, content) =>
        let r := runWithin fuel s!"{p}: " (Text.decodeLossy content).toList (s.withStatus 0)
        if r.flow = .returning then { r with flow := .on } else r
      | none =>
        let missing := if path.toList.contains '/' then s!"cannot open {path}: " ++ (match s.stat path with
            | .error e => State.openReason false e
            | .ok _ => "Is a directory")
          else s!"{path}: not found"
        Builtins.fatal s s!".: {missing}"

def callFunction : Nat → Command → List String → State → State
  | 0, _, _, s => s.waitForever
  | fuel + 1, body, args, s =>
    let r := unfinished (exec fuel body)
      { s with args := args, loops := 0, saved := [] :: s.saved }
    let r := (r.saved.headD []).foldl State.restore r
    let r := { r with args := s.args, loops := s.loops, saved := s.saved, line := s.line }
    if r.flow = .returning then { r with flow := .on } else r

def become : Nat → List String → State → State
  | 0, _, s => s.waitForever
  | fuel + 1, args, s =>
    match args with
    | [] => s.withStatus 0
    | program :: args => match resolve s ((s.stored? "PATH").getD "") program args with
      | .ok p => replaced (startTool fuel p) (catchUp fuel s)
      | .error .execFormat => replaced (shell fuel "sh" (program :: args)) (catchUp fuel s)
      | .error e => (s.complain s!"exec: {program}: {startReason e}").leave (startStatus e)

/-- Runs a command that is not a function, or says what it is. A fault in it does not end the
shell. -/
def plainCommand : Nat → List String → State → State
  | 0, _, s => s.waitForever
  | fuel + 1, args, s =>
    match Builtins.letters ['p', 'v', 'V'] args with
    | .error c => Builtins.fail s 2 ("command: Illegal option -" ++ String.ofList [c])
    | .ok (flags, words) =>
      if flags.contains 'v' || flags.contains 'V' then
        words.foldl (fun s name => match describe fuel (flags.contains 'V') name s with
          | some text => s.print (text ++ "\n")
          | none =>
            (if flags.contains 'V' then s.print s!"{name}: not found\n" else s).withStatus 127)
          (s.withStatus 0)
      else match words with
        | [] => s.withStatus 0
        | name :: args =>
          let r := call fuel name args { s with functions := [] }
          let r := { r with functions := if r.functions.isEmpty then s.functions else r.functions }
          if name ≠ "exit" && name ≠ "exec" && Builtins.isBuiltin name &&
              r.flow = .leave (.exited 2) then { r with flow := .on } else r

def call : Nat → String → List String → State → State
  | 0, _, _, s => s.waitForever
  | fuel + 1, name, args, s =>
    match if specialNames.contains name then none else s.functions.lookup name with
    | some body => callFunction fuel body args s
    | none => match name with
      | "eval" => runWithin fuel "eval: " (Text.join " " args).toList (s.withStatus 0)
      | "." => sourceFile fuel args s
      | "exec" => become fuel args s
      | "command" => plainCommand fuel args s
      | "wait" => wait fuel args s
      | "times" => (s.print "0m0.000000s 0m0.000000s\n0m0.000000s 0m0.000000s\n").withStatus 0
      | "hash" => args.foldl (fun s name => match describe fuel false name s with
          | some _ => s
          | none => Builtins.fail s 1 s!"hash: {name}: not found") (s.withStatus 0)
      | "type" => args.foldl (fun s name => match describe fuel true name s with
          | some text => s.print (text ++ "\n")
          | none => (s.print s!"{name}: not found\n").withStatus 127) (s.withStatus 0)
      | name => match Builtins.table.lookup name with
        | some f =>
          let r := if (s.sinks.lookup 1).isSome then f args s
            else
              let (bytes, r) := collecting (f args) s
              if bytes.isEmpty then r
              else (r.complain s!"{name}: {name}: I/O error").withStatus (r.status ||| 1)
          if !specialNames.contains name && r.flow = .leave (.exited 2) then { r with flow := .on } else r
        | none => start fuel name args s

/-- Runs a simple command. Its assignments last only as long as it does, unless there is nothing
else in it or it belongs to the language. -/
def simpleCommand : Nat → List (String × Word) → List Word → List Redirect → State → State
  | 0, _, _, _, s => s.waitForever
  | fuel + 1, as, ws, rs, s =>
    let before := s.sinks
    let traced (words : List String) (s : State) : State :=
      { trace words { s with sinks := before } with sinks := s.sinks }
    let (fields, s) := commandFields fuel ws { s with taken := none }
    if !s.isOn then s
    else match fields with
      | [] =>
        redirected fuel rs (fun s =>
          let (words, s) := assign fuel as s
          if s.isOn then (traced words s).withStatus (s.taken.getD 0) else s) s
      | name :: args =>
        let isSpecial := specialNames.contains name
        let isFunction := !isSpecial && (s.functions.lookup name).isSome
        let inPlace := isFunction || Builtins.isBuiltin name
        let run (s : State) : State :=
          let old := as.map fun a => (a.1, s.stored? a.1, s.isExported a.1)
          let (words, s) := assign fuel as s
          if !s.isOn then s
          else
            let s := traced (words ++ name :: args) { s with taken := none }
            if isSpecial || as.isEmpty then call fuel name args s
            else
              let r := call fuel name args { s with exported := as.map (·.1) ++ s.exported }
              old.foldl (fun s v => s.restore ⟨v.1, v.2.1, v.2.2⟩) r
        let s := { s with final := s.final && !inPlace }
        if name = "exec" ∧ args.isEmpty then
          let (opened, _, t) := redirect fuel rs s
          if !t.isOn then t
          else if opened then (traced ["exec"] t).withStatus 0
          else t.leave 2
        else
          let r := redirected fuel rs run { s with taken := none }
          if isSpecial && r.isOn && r.taken = some 2 && !rs.isEmpty then r.leave 2 else r

def stagesFrom : Nat → List Command → State → State
  | 0, _, s => s.waitForever
  | fuel + 1, stages, s =>
    let run (c : Command) (s : State) : State := forked (fun s => atExit fuel (exec fuel c s)) s
    match stages with
    | [] => s
    | [last] => run last s
    | stage :: rest =>
      let began := s.elapsed
      let (bytes, r) := collecting (fun s => settleHeld fuel s.held.length (run stage s)) { s with
        deadline := none }
      let rest' := { r with toEnvironment := s.toEnvironment, input := bytes, elapsed := began }
      let t := stagesFrom fuel rest { rest' with input := bytes }
      let ended := if r.isOn then r.elapsed else began
      let t := { t with input := r.input }
      if t.isOn then t.pauseUntil ended else t

def exec : Nat → Command → State → State
  | 0, _, s => s.waitForever
  | fuel + 1, c, s =>
    if s.has 'n' then s else match c with
    | .simple line as ws rs =>
      runTraps fuel (checked (simpleCommand fuel as ws rs { s with line := line }))
    | .redirected line body rs =>
      let isSubshell := match body with
        | .subshell _ => true
        | _ => false
      let s := { s with line := line }
      if isSubshell then
        checked (forked (fun s => atExit fuel (redirected fuel rs (fun s => match body with
          | .subshell body => exec fuel body s
          | body => exec fuel body s) s)) s)
      else checked (unfinished (redirected fuel rs (exec fuel body)) s)
    | .negated body =>
      let r := guarding (exec fuel body) s
      if r.isOn then r.withStatus (if r.status = 0 then 1 else 0) else r
    | .pipeline stages => runTraps fuel (checked (stagesFrom fuel stages (catchUp fuel s)))
    | .both a b =>
      let r := guarding (exec fuel a) s
      if r.isOn && r.status = 0 then exec fuel b r else r
    | .either a b =>
      let r := guarding (exec fuel a) s
      if r.isOn && r.status ≠ 0 then exec fuel b r else r
    | .sequence cs =>
      let r := cs.dropLast.foldl (fun s c => if s.isOn then unfinished (exec fuel c) s else s) s
      match cs.getLast? with
      | some last => if r.isOn then exec fuel last r else r
      | none => r
    | .background body => background fuel body s
    | .subshell body =>
      if s.final && !hasTraps s then
        let r := atExit fuel (exec fuel body s)
        match endingOf r with
        | some e => { r with flow := .leave e }
        | none => r
      else runTraps fuel (checked (forked (fun s => atExit fuel (exec fuel body s)) s))
    | .branch condition success failure =>
      let r := guarding (exec fuel condition) s
      if !r.isOn then r
      else if r.status = 0 then exec fuel success r
      else match failure with
        | .sequence [] => r.withStatus 0
        | failure => exec fuel failure r
    | .loop until_ condition body =>
      let step (result : Nat) (acc : State) : State × Bool :=
        let r := guarding (exec fuel condition) acc
        if !r.isOn then afterBody r
        else if (r.status = 0) != until_ then afterBody (exec fuel body r)
        else (r.withStatus result, true)
      unfinished (looping (fun s =>
        let first := step 0 s
        if first.2 then first.1
        else repeatUntil (fun acc => step acc.status acc) roundLimit first.1)) s
    | .each name words body =>
      let (values, s) := match words with
        | some ws => fieldsOfWords fuel ws s
        | none => (s.args, s)
      unfinished (looping (fun s => (values.foldl (fun acc v =>
        if acc.2 then acc
        else
          let s := acc.1.set name v
          if s.isOn then afterBody (exec fuel body s) else (s, true))
        (s, !s.isOn)).1)) (if values.isEmpty then s.withStatus 0 else s)
    | .choose word cases =>
      let (text, s) := textOf fuel word s
      let found := cases.foldl (fun (acc : Option Command × State) option =>
        option.1.foldl (fun acc pattern =>
          if acc.1.isSome || !acc.2.isOn then acc
          else
            let r := expand fuel (Homes.expand acc.2 pattern) acc.2
            ((if (wholePattern r.1).accepts text.toList then some option.2 else none), r.2)) acc)
        (none, s)
      match found with
      | (some (.sequence []), s) => s.withStatus 0
      | (some body, s) => exec fuel body s
      | (none, s) => if s.isOn then s.withStatus 0 else s
    | .define name body =>
      { s with functions := (name, body) :: s.functions, status := 0 }

end

def nestingLimit : Nat := 1000

def startTime : Nat := 1

def runStarted (p : Started) (s : State) : State :=
  let s := s.pause startTime
  let s := if s.isOn then startTool nestingLimit p s else s
  let r := settle nestingLimit s
  { r with flow := s.flow, status := s.status }

structure Running where
  program : Started
  input : Bytes
  ending : Program.Ending
  out : Bytes
  err : Bytes

def find (command : Program.Command) (d : Disk) : Except OsError Started :=
  let named := !command.program.toList.contains '/'
  if named && 255 < (Text.encode command.program).length then .error .nameTooLong
  else (resolve (State.start d [] 0) defaultPath command.program command.args).mapError fun e =>
    if command.program.isEmpty then .notFound else e

def machine : Program.Machine (Option Running) where
  spawn command _ w := match find command w.disk with
    | .error e => (.error e, w)
    | .ok p => (.ok 1, { w with outside := some ⟨p, [], .exited 0, [], []⟩ })
  feed _ input w := { w with outside := w.outside.map fun r => { r with input } }
  waitTimeout _ ms w := match w.outside with
    | none => (.error .notFound, w)
    | some r =>
      let s := runStarted r.program (State.start w.disk r.input ms)
      let ending := (endingOf s).getD (.signalled 9)
      (.ok (if s.flow == .timeUp then none else some ending),
        { w with
          disk := { s.disk with home := w.disk.home }
          clock := w.clock + s.elapsed
          outside := some
            { r with ending, out := State.flowed s.out, err := State.flowed s.err } })
  kill _ w := (.ok (), w)
  wait _ w := (.ok ((w.outside.map Running.ending).getD (.signalled 9)), w)
  written _ w := (.done (.ok ()), w)
  reads _ channel w :=
    let stream := (w.outside.map fun r => match channel with
      | .stdout => r.out
      | .stderr => r.err).getD []
    (.ofStream stream, w)
  settles := ⟨by simp, by simp [Program.Reads.ofStream]⟩

end Anneal.Shell
