import Anneal.Shell.Fields
import Anneal.Shell.Format
import Anneal.Shell.Reader
import Anneal.Shell.State
import Anneal.Shell.Utilities.Conditions

/-!
# Commands of the shell

The commands that a shell carries out itself and that need no other command to be run: those on
variables, options, arguments and traps, on the flow of control, on signals, and the shell's own
forms of printing.
-/

namespace Anneal.Shell.Builtins

open Anneal.Text (Bytes)

def fail (s : State) (status : Nat) (text : String) : State := (s.complain text).withStatus status

def fatal (s : State) (text : String) : State := (s.complain text).leave 2

def letters (known : List Char) : List String → Except Char (List Char × List String)
  | [] => .ok ([], [])
  | word :: rest =>
    match word.toList with
    | ['-', '-'] => .ok ([], rest)
    | '-' :: c :: cs =>
      match (c :: cs).find? fun c => !known.contains c with
      | some c => .error c
      | none => (letters known rest).map fun r => (c :: cs ++ r.1, r.2)
    | _ => .ok ([], word :: rest)

def withLetters (name : String) (known : List Char) (fatally : Bool)
    (f : List Char → List String → State → State) (args : List String) (s : State) : State :=
  match letters known args with
  | .ok (flags, rest) => f flags rest s
  | .error c =>
    let text := s!"{name}: Illegal option -" ++ String.ofList [c]
    if fatally then fatal s text else fail s 2 text

def digits? (text : String) : Option Nat :=
  let cs := text.toList
  if !cs.isEmpty && cs.all Decimal.isDigit && cs.length ≤ 10 then
    let n := Decimal.natOfDigits cs
    if n < Word.bound 31 then some n else none
  else none

def withNumber (name : String) (args : List String) (otherwise : Nat) (f : Nat → State → State)
    (s : State) : State :=
  match args with
  | [] => f otherwise s
  | word :: _ => match digits? word with
    | some n => f n s
    | none => fatal s s!"{name}: Illegal number: {word}"

def binding (word : String) : String × Option String :=
  let cs := word.toList
  let name := cs.takeWhile (· != '=')
  (String.ofList name,
    if name.length < cs.length then some (String.ofList (cs.drop (name.length + 1))) else none)

def quoted (value : String) : String :=
  let parts := (Text.splitWhere (· == '\'') value.toList).map String.ofList
  "'" ++ Text.join "'\"'\"'" parts ++ "'"

def listed (s : State) (before : String) (names : List String) : String :=
  let sorted := names.eraseDups.mergeSort fun a b => !decide (Text.encode b < Text.encode a)
  String.join (sorted.map fun n => before ++ n ++ (match s.stored? n with
    | some v => "=" ++ quoted v
    | none => "") ++ "\n")

def aliasPlace (name : String) : Nat :=
  let cs := (Text.encode name).map (·.toNat)
  (cs.foldl (· + ·) (16 * cs.headD 0)) % 39

def defineAliases (words : List String) (s : State) : State :=
  let line (a : String × String) : String := a.1 ++ "=" ++ quoted a.2 ++ "\n"
  if words.isEmpty then
    (s.print (String.join ((s.aliases.mergeSort fun a b =>
      aliasPlace a.1 ≤ aliasPlace b.1).map line))).withStatus 0
  else words.foldl (fun s word =>
    match binding word with
    | (name, some text) => { s with aliases := State.setIn name text s.aliases }
    | (name, none) => match s.aliases.lookup name with
      | some text => s.print (line (name, text))
      | none => (s.warn s!"alias: {name} not found").withStatus 1) (s.withStatus 0)

def dropAliases (words : List String) (s : State) : State :=
  words.foldl (fun s name =>
    if name = "-a" then { s with aliases := [] }
    else if (s.aliases.lookup name).isNone then (s.warn s!"unalias: {name} not found").withStatus 1
    else { s with aliases := s.aliases.filter fun a => a.1 ≠ name }) (s.withStatus 0)

def declaring : List String := ["export", "readonly", "local", "alias"]

def declares (s : State) (words : List String) : Bool :=
  match words.dropWhile fun w => ["command", "-p", "--"].contains w with
  | [] => false
  | name :: _ => declaring.contains name && (name ≠ "alias" || (s.functions.lookup name).isNone)

def overBindings (teller : String) (step : String → State → State) (words : List String)
    (s : State) : State :=
  words.foldl (fun s word =>
    let (name, value) := binding word
    if !s.isOn then s
    else if !isName name.toList then fatal s s!"{teller}: {name}: bad variable name"
    else
      let s := step name s
      match value with
      | some v => State.setBy (teller ++ ": ") s name v
      | none => s) (s.withStatus 0)

def exportVariables : List String → State → State :=
  withLetters "export" ['p'] true fun flags words s =>
    if flags.contains 'p' || words.isEmpty then (s.print (listed s "export " s.exported)).withStatus 0
    else overBindings "export" (fun name s => { s with exported := name :: s.exported }) words s

def makeReadOnly : List String → State → State :=
  withLetters "readonly" ['p'] true fun flags words s =>
    if flags.contains 'p' || words.isEmpty then (s.print (listed s "readonly " s.readOnly)).withStatus 0
    else
      let s := overBindings "readonly" (fun _ s => s) words s
      if s.isOn then { s with readOnly := words.map (fun w => (binding w).1) ++ s.readOnly } else s

def makeLocal (name : String) (s : State) : State :=
  match s.saved with
  | [] => s
  | frame :: frames =>
    if frame.any fun v => v.name = name then s
    else { s with saved := (⟨name, s.stored? name, s.isExported name⟩ :: frame) :: frames }

def declareLocal (words : List String) (s : State) : State :=
  if s.saved.isEmpty then fatal s "local: not in a function"
  else overBindings "local" makeLocal (words.filter fun w => w ≠ "-") s

def unset : List String → State → State :=
  withLetters "unset" ['v', 'f'] true fun flags names s =>
    names.foldl (fun s name =>
      if !s.isOn then s
      else if flags.contains 'f' then
        { s with functions := s.functions.filter fun f => f.1 ≠ name }
      else if !isName name.toList then fatal s s!"unset: {name}: bad variable name"
      else if s.isFixed name then fatal s s!"unset: {name}: is read only"
      else s.drop name) (s.withStatus 0)

def optionNames : List (String × Char) :=
  [("errexit", 'e'), ("noglob", 'f'), ("ignoreeof", 'I'), ("interactive", 'i'), ("monitor", 'm'),
   ("noexec", 'n'), ("stdin", 's'), ("xtrace", 'x'), ("verbose", 'v'), ("vi", 'V'), ("emacs", 'E'),
   ("noclobber", 'C'), ("allexport", 'a'), ("notify", 'b'), ("nounset", 'u'), ("privileged", 'p'),
   ("nolog", 'l'), ("debug", 'd')]

def blanks (n : Nat) : String := String.ofList (List.replicate n ' ')

def optionTable (table : Bool) (s : State) : String :=
  (if table then "Current option settings\n" else "") ++
    String.join (optionNames.map fun o =>
      if table then
        o.1 ++ blanks (16 - o.1.length) ++ (if s.has o.2 then "on" else "off") ++ "\n"
      else (if s.has o.2 then "set -o " else "set +o ") ++ o.1 ++ "\n")

/-- The options among the words of a shell or of `set`, which end at the first other word: the state
with the options set, the letters that only the start of a shell knows, and the words left. -/
def optionWords (fault : String → State → State) (own : List Char) :
    Nat → List String → State → List Char × Option (List String) × State
  | 0, words, s => ([], some words, s)
  | _ + 1, [], s => ([], none, s)
  | fuel + 1, word :: rest, s =>
    match word.toList with
    | ['-'] => ([], some rest, s)
    | ['-', '-'] => ([], some rest, s)
    | sign :: c :: cs =>
      if sign ≠ '-' ∧ sign ≠ '+' then ([], some (word :: rest), s)
      else
        let on := sign = '-'
        let flags := c :: cs
        let known (c : Char) : Bool :=
          Environment.optionLetters.contains c || own.contains c || c = 'o'
        match flags.find? fun c => !known c with
        | some c => ([], some [], fault ("Illegal option -" ++ String.ofList [c]) s)
        | none =>
          let s := { s with toEnvironment :=
            s.toEnvironment.switch (flags.filter Environment.optionLetters.contains) on }
          let mine := flags.filter own.contains
          if flags.contains 'o' then
            match rest with
            | [] => (mine, none, s.print (optionTable on s))
            | name :: rest => match optionNames.lookup name with
              | none => (mine, some [], fault s!"Illegal option {word} {name}" s)
              | some c =>
                let s := { s with toEnvironment := s.toEnvironment.switch [c] on }
                let r := optionWords fault own fuel rest s
                (mine ++ r.1, r.2)
          else
            let r := optionWords fault own fuel rest s
            (mine ++ r.1, r.2)
    | _ => ([], some (word :: rest), s)

def setOptions (args : List String) (s : State) : State :=
  if args.isEmpty then (s.print (listed s "" (s.bindings.map (·.1)))).withStatus 0
  else
    let r := optionWords (fun text s => fatal s s!"set: {text}") [] (args.length + 1) args
      (s.withStatus 0)
    match r.2.1 with
    | some words =>
      if r.2.2.isOn && (!words.isEmpty || args.any fun a => a = "--" || a = "-") then
        { r.2.2 with args := words }
      else r.2.2
    | none => r.2.2

def leaveLoops (name : String) (flow : Nat → Flow) (args : List String) (s : State) : State :=
  withNumber name args 1 (fun n s =>
    if n = 0 then fatal s s!"{name}: Illegal number: 0"
    else if s.loops = 0 then s.withStatus 0
    else { s.withStatus 0 with flow := flow (min n s.loops) }) s

def shift (args : List String) (s : State) : State :=
  withNumber "shift" args 1 (fun n s =>
    if s.args.length < n then fatal s "shift: can't shift that many"
    else { s.withStatus 0 with args := s.args.drop n }) s

def changeDir : List String → State → State :=
  withLetters "cd" ['L', 'P'] false fun _ words s =>
    let old := (s.parameter? "PWD").getD ""
    let wanted := words.headD ((s.stored? "HOME").getD "")
    let path := if wanted = "-" then (s.stored? "OLDPWD").getD old else wanted
    if path.isEmpty then s.withStatus 0
    else match s.stat path with
      | .ok (p, .directory) =>
        let s := { s with disk := { s.disk with home := p } }
        let now := "/" ++ Text.join "/" p
        let s := ((s.put "OLDPWD" old).put "PWD" now).withStatus 0
        if wanted = "-" then s.print (now ++ "\n") else s
      | _ => fail s 2 s!"cd: can't cd to {path}"

def inputLine (bs : Bytes) : Bytes × Bool × Bytes :=
  let line := bs.takeWhile (· != 10)
  match bs.drop line.length with
  | [] => (line, false, [])
  | _ :: rest => (line, true, rest)

/-- A line that goes on behind each backslash at its end: with its backslashes, as marked
characters. -/
def logicalLine (raw : Bool) : Nat → Bytes → List Marked × Bool × Bytes
  | 0, bs => ([], false, bs)
  | fuel + 1, bs =>
    let (line, ended, rest) := inputLine bs
    let cs := (Text.decodeLossy line).toList
    if raw then (marked true cs, ended, rest)
    else
      let rec escapes : List Char → List Marked × Bool
        | [] => ([], false)
        | ['\\'] => ([], true)
        | '\\' :: c :: cs => ((c, false) :: (escapes cs).1, (escapes cs).2)
        | c :: cs => ((c, true) :: (escapes cs).1, (escapes cs).2)
      let (ms, goesOn) := escapes cs
      if goesOn && ended then
        let more := logicalLine raw fuel rest
        (ms ++ more.1, more.2)
      else (ms, ended, rest)

def separators (s : State) : List Char := ((s.stored? "IFS").getD " \t\n").toList

def read : List String → State → State :=
  withLetters "read" ['r', 'p'] false fun flags words s =>
    let names := if flags.contains 'p' then words.drop 1 else words
    if names.isEmpty then fail s 2 "read: arg count"
    else match names.find? fun n => !isName n.toList with
      | some n => fail s 2 s!"read: {n}: bad variable name"
      | none =>
        let (text, ended, rest) := logicalLine (flags.contains 'r') (s.input.length + 1) s.input
        let values := lineValues (separators s) names.length text
        let s := { s with input := rest, status := if ended then 0 else 1 }
        (names.zip values).foldl (fun s v =>
          if s.isFixed v.1 then fail s 2 s!"read: {v.1}: is read only"
          else s.put v.1 (String.ofList v.2)) s

def echo (args : List String) (s : State) : State :=
  let text := match args with
    | "-n" :: words => Format.echo true false words
    | words => Format.echo true true words
  (s.write 1 text).withStatus 0

def printf : List String → State → State :=
  withLetters "printf" [] false fun _ args s =>
    match args with
    | [] => fail s 2 "printf: usage: printf format [arg ...]"
    | format :: rest =>
      let r := Format.print false format rest
      let s := r.remarks.foldl (fun s remark => s.complain s!"printf: {remark.1.message remark.2}")
        (s.write 1 r.bytes)
      match r.bad with
      | some e => fail s 2 s!"printf: {e.message}"
      | none => s.withStatus (if r.remarks.isEmpty then 0 else 1)

def workingDir (_ : List String) (s : State) : State :=
  (s.print ("/" ++ Text.join "/" s.disk.home ++ "\n")).withStatus 0

def trapSignal? (word : String) : Option Nat := Signal.number? word

def setTrap (action : Option String) (signal : Nat) (s : State) : State :=
  let others := s.traps.filter fun t => t.1 ≠ signal
  { s with traps := match action with
    | some text => (others ++ [(signal, text)]).mergeSort fun a b => a.1 ≤ b.1
    | none => others }

def trap : List String → State → State := withLetters "trap" [] true fun _ args s =>
  match args with
  | [] => (s.print (String.join (s.traps.map fun t =>
      s!"trap -- {quoted t.2} {Signal.nameOf t.1}\n"))).withStatus 0
  | first :: rest =>
    let (action, words) : Option String × List String :=
      if rest.isEmpty || (digits? first).isSome then (none, first :: rest)
      else (if first = "-" then none else some first, rest)
    words.foldl (fun s word => match trapSignal? word with
      | some n => setTrap action n s
      | none => (s.warn s!"trap: {word}: bad trap").withStatus 1) (s.withStatus 0)

inductive Sending where
  | signal (number : Nat) (targets : List String)
  | names (numbers : List String)
  | usage
  | illegal (letter : Char)
  | unknown (name : String)

def sending (args : List String) : Sending :=
  let targets (n : Nat) (words : List String) : Sending :=
    let words := match words with
      | "--" :: rest => rest
      | words => words
    if words.isEmpty then .usage else .signal n words
  match args with
  | [] => .usage
  | word :: rest =>
    match word.toList with
    | ['-', '-'] => targets 15 rest
    | '-' :: c :: cs =>
      match Signal.number? (String.ofList (c :: cs)) with
      | some n => targets n rest
      | none =>
        if c = 'l' then .names rest
        else if c = 's' then
          match cs, rest with
          | [], [] => .usage
          | [], name :: rest => match Signal.number? name with
            | some n => targets n rest
            | none => .unknown name
          | cs, rest => match Signal.number? (String.ofList cs) with
            | some n => targets n rest
            | none => .unknown (String.ofList cs)
        else .illegal c
    | _ => targets 15 (word :: rest)

/-- What a signal does to a job: one that has yet to run will be ended by it, and what one has done
after its end is taken back. -/
def strike (pid signal : Nat) (s : State) : State :=
  let now := s.elapsed
  let ignored (e : Environment) : Bool := e.traps.any fun t => t.1 = signal && t.2.isEmpty
  if signal = 0 || Signal.harmless.contains signal then s
  else match s.jobs.find? fun j => j.environment.pid = pid with
    | some job =>
      if ignored job.environment then s
      else { s with
        jobs := s.jobs.map fun j =>
          if j.environment.pid = pid && j.stop.isNone then { j with stop := some (signal, now) } else j
        sent := s.sent.filter fun n => n.sender ≠ pid || n.time ≤ now }
    | none =>
      let s := s.retract pid now
      { s with done := s.done.map fun d =>
        if d.pid = pid && now < d.time then ⟨pid, now, .signalled signal, false⟩ else d }

def sendTo (signal : Nat) (s : State) (target : String) : State :=
  let cs := target.toList
  match cs with
  | '%' :: _ => if s.lastJob.isSome then fail s 1 "kill: No such process\n"
      else fail s 2 s!"kill: No such job: {target}"
  | _ => match digits? target with
    | none =>
      if (match cs with
        | '-' :: ds => (digits? (String.ofList ds)).isSome
        | _ => false) then fail s 1 "kill: No such process\n"
      else fail s 2 s!"kill: Illegal number: {target}"
    | some pid =>
      let alive (s : State) : Bool := (s.jobs.any fun j => j.environment.pid = pid) ||
        s.done.any fun d => d.pid = pid && s.elapsed < d.time
      if pid = s.pid || pid = 0 then
        { s with toEnvironment := s.toEnvironment.receive signal }
      else if s.parents.contains pid then
        { s with sent := s.sent ++ [⟨s.elapsed, s.pid, pid, signal⟩] }
      else if alive s then strike pid signal s
      else fail s 1 "kill: No such process\n"

def kill (args : List String) (s : State) : State :=
  match sending args with
  | .signal n targets => targets.foldl (fun s t => if s.isOn then sendTo n s t else s) (s.withStatus 0)
  | .names [] =>
    (s.print ("0\n" ++ String.join (signals.map fun g => g.name ++ "\n"))).withStatus 0
  | .names (word :: _) => match digits? word with
    | some n =>
      let n := if 128 < n then n - 128 else n
      if n = 0 || (Signal.ofNumber? n).isNone then fail s 2 s!"kill: invalid signal number or name: {word}"
      else (s.print (Signal.nameOf n ++ "\n")).withStatus 0
    | none => fail s 2 s!"kill: Illegal number: {word}"
  | .usage => fail s 2
      ("kill: Usage: kill [-s sigspec | -signum | -sigspec] [pid | job]... or\nkill -l [exitstatus]")
  | .illegal c => fail s 2 ("kill: Illegal option -" ++ String.ofList [c])
  | .unknown name => fail s 2 s!"kill: invalid signal number or name: {name}"

def always (status : Nat) : List String → State → State := fun _ s => s.withStatus status

def noJob (name : String) : List String → State → State :=
  fun _ s => fail s 2 s!"{name}: No current job"

def table : List (String × (List String → State → State)) :=
  [(":", always 0), ("true", always 0), ("false", always 1),
   ("break", leaveLoops "break" .breaking), ("continue", leaveLoops "continue" .continuing),
   ("exit", fun args s => withNumber "exit" args s.status (fun n s => s.leave n) s),
   ("return", fun args s => withNumber "return" args s.status
      (fun n s => { s.withStatus n with flow := .returning }) s),
   ("export", exportVariables), ("readonly", makeReadOnly), ("local", declareLocal),
   ("unset", unset), ("set", setOptions), ("shift", shift), ("read", read), ("cd", changeDir),
   ("chdir", changeDir), ("echo", echo), ("printf", printf),
   ("test", Conditions.test "test"), ("[", Conditions.test "["), ("pwd", workingDir),
   ("trap", trap), ("kill", kill), ("fg", noJob "fg"), ("bg", noJob "bg"), ("jobs", always 0),
   ("alias", defineAliases), ("unalias", dropAliases)]

def running : List String := ["eval", ".", "exec", "command", "wait", "type", "hash", "times"]

def isBuiltin (name : String) : Bool := (table.lookup name).isSome || running.contains name

end Anneal.Shell.Builtins
