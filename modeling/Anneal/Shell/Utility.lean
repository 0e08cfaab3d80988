import Anneal.Shell.State

/-!
# Programs for scripts

What the small programs beside the shell have in common: a program reads its words, changes the state
of the shell that runs it and leaves a status. Options may stand anywhere among the words until two
dashes end them, and several letters may share one dash.
-/

namespace Anneal.Shell

open Anneal.Text (Bytes)

abbrev Utility := List String → State → State

namespace Utility

structure Options where
  flags : List (Char × String)
  operands : List String

namespace Options

def has (o : Options) (c : Char) : Bool := o.flags.any fun f => f.1 = c

def value? (o : Options) (c : Char) : Option String := o.flags.reverse.lookup c

def values (o : Options) (c : Char) : List String :=
  (o.flags.filter fun f => f.1 = c).map (·.2)

def addFlag (c : Char) (value : String) (o : Options) : Options :=
  { o with flags := (c, value) :: o.flags }

def addOperand (word : String) (o : Options) : Options := { o with operands := word :: o.operands }

end Options

structure Grammar where
  plain : List Char
  valued : List Char
  long : List (String × Char)
  anywhere : Bool

inductive BadOption where
  | unknown (letter : Char)
  | unknownLong (word : String)
  | noValue (letter : Char)
  | noLongValue (word : String)
  | needlessValue (word : String)

def BadOption.message : BadOption → String
  | .unknown c => s!"invalid option -- '{c}'"
  | .unknownLong word => s!"unrecognized option '{word}'"
  | .noValue c => s!"option requires an argument -- '{c}'"
  | .noLongValue word => s!"option '{word}' requires an argument"
  | .needlessValue word => s!"option '{word}' doesn't allow an argument"

/-- The letters behind one dash; what follows a letter with a value is its value, or else the next
word is. -/
def letters (g : Grammar) : List Char → List String →
    Except BadOption (List (Char × String) × List String)
  | [], rest => .ok ([], rest)
  | c :: cs, rest =>
    if g.valued.contains c then
      match cs, rest with
      | [], rest =>
        if g.plain.contains c then .ok ([(c, "")], rest)
        else match rest with
          | [] => .error (.noValue c)
          | value :: rest => .ok ([(c, value)], rest)
      | cs, rest => .ok ([(c, String.ofList cs)], rest)
    else if g.plain.contains c then (letters g cs rest).map fun r => ((c, "") :: r.1, r.2)
    else .error (.unknown c)

/-- A long option, with its value behind an equals sign or in the next word. The beginning of a name
stands for the name if it is the beginning of no other. -/
def longOption (g : Grammar) (word : String) (rest : List String) :
    Except BadOption ((Char × String) × List String) :=
  let cs := word.toList
  let name := cs.takeWhile (· != '=')
  let value := cs.drop (name.length + 1)
  let letter? := (g.long.lookup (String.ofList (name.drop 2))).orElse fun _ =>
    match ((g.long.filter fun l => (name.drop 2).isPrefixOf l.1.toList).map (·.2)).eraseDups with
    | [c] => some c
    | _ => none
  match letter? with
  | none => .error (.unknownLong word)
  | some c =>
    if g.valued.contains c then
      if name.length < cs.length then .ok ((c, String.ofList value), rest)
      else if g.plain.contains c then .ok ((c, ""), rest)
      else match rest with
        | value :: rest => .ok ((c, value), rest)
        | [] => .error (.noLongValue word)
    else if name.length < cs.length then .error (.needlessValue (String.ofList name))
    else .ok ((c, ""), rest)

def options (g : Grammar) : Nat → List String → Except BadOption Options
  | 0, _ => .ok ⟨[], []⟩
  | _ + 1, [] => .ok ⟨[], []⟩
  | fuel + 1, word :: rest =>
    let operand : Except BadOption Options :=
      if g.anywhere then (options g fuel rest).map (Options.addOperand word)
      else .ok ⟨[], word :: rest⟩
    match word.toList with
    | ['-', '-'] => .ok ⟨[], rest⟩
    | '-' :: '-' :: _ => match longOption g word rest with
      | .error e => .error e
      | .ok (flag, rest) => (options g fuel rest).map (Options.addFlag flag.1 flag.2)
    | '-' :: c :: cs => match letters g (c :: cs) rest with
      | .error e => .error e
      | .ok (flags, rest) =>
        (options g fuel rest).map fun o => { o with flags := flags ++ o.flags }
    | _ => operand

def complain (s : State) (text : String) : State := s.warn s!"{s.name}: {text}"

def fail (s : State) (status : Nat) (text : String) : State := (complain s text).withStatus status

def misused (s : State) (status : Nat) (text : String) : State :=
  fail s status s!"{text}\nTry '{s.name} --help' for more information."

def failing (s : State) (text : String) (e : OsError) : State :=
  fail s 1 s!"{text}: {State.reason e}"

def isControl (c : Char) : Bool := c.toNat < 32 || (126 < c.toNat && c.toNat < 160)

def isPlainChar (c : Char) : Bool :=
  c.isAlphanum || 159 < c.toNat ||
    ['%', '+', ',', '-', '.', '/', '@', ']', '_', '\x7b', '\x7d', '#', '~'].contains c

def byteEscape (b : UInt8) : String :=
  match b.toNat with
  | 7 => "\\a"
  | 8 => "\\b"
  | 9 => "\\t"
  | 10 => "\\n"
  | 11 => "\\v"
  | 12 => "\\f"
  | 13 => "\\r"
  | n => "\\" ++ String.ofList ((Nat.toDigits 8 (512 + n)).drop 1)

def escaped (c : Char) : String := String.join ((String.utf8EncodeChar c).map byteEscape)

/-- The characters of a name in quotes, of which the first has been written: `escaping` where the
quotes of an escape are open. -/
def quotedChars : Bool → List Char → String
  | _, [] => "'"
  | escaping, c :: cs =>
    if isControl c then (if escaping then "" else "'$'") ++ escaped c ++ quotedChars true cs
    else
      (if escaping then "''" else "") ++
        (if c = '\'' then "'\\''" else String.ofList [c]) ++ quotedChars false cs

def inQuotes (name : String) : String :=
  let cs := name.toList
  if cs.contains '\'' && !cs.any fun c => ['"', '$', '\\', '!'].contains c || c.toNat = 96 ||
      isControl c then "\"" ++ name ++ "\""
  else "'" ++ quotedChars false cs

def cited (word : String) : String :=
  "‘" ++ String.join (word.toList.map fun c =>
    if c = '\\' then "\\\\"
    else if c = '’' then "\\’"
    else if isControl c then escaped c
    else String.ofList [c]) ++ "’"

def shown (name : String) : String :=
  let cs := name.toList
  if !cs.all isPlainChar || cs.head? = some '#' || cs.head? = some '~' ||
      ["", "\x7b", "\x7d"].contains name then inQuotes name
  else name

def withOptions (g : Grammar) (bad : Nat) (f : Options → State → State) : Utility := fun args s =>
  match options g (args.length + 1) args with
  | .error e => misused s bad e.message
  | .ok o => f o s

def lettersOnly (plain valued : String) : Grammar := ⟨plain.toList, valued.toList, [], true⟩

def takeInput (s : State) : Bytes × State := (s.input, { s with input := [] })

def endlessCount : Nat := 300000

def source (s : State) (path : String) : Except OsError Bytes × State :=
  if path = "-" ∨ path = "/dev/stdin" then
    let r := takeInput s
    (.ok r.1, r.2)
  else if path = "/dev/zero" then (.ok (List.replicate endlessCount 0), s)
  else (s.load path, s)

def overFiles (files : List String) (f : State → String → Bytes → State) (s : State) : State :=
  (if files.isEmpty then ["-"] else files).foldl (fun s path =>
    match source s path with
    | (.ok bs, s) => f s path bs
    | (.error e, s) => failing s (shown path) e) (s.withStatus 0)

def lines (bs : Bytes) : List Bytes :=
  bs.foldr (fun b ls =>
    if b = 10 then [10] :: ls
    else match ls with
      | [] => [[b]]
      | l :: ls => (b :: l) :: ls) []

def content (line : Bytes) : Bytes := line.filter (· != 10)

def joined (ls : List Bytes) : Bytes := ls.flatMap fun l => l ++ [10]

def gathered (files : List String) (context : String) (status : Nat) (s : State) :
    List Bytes × State :=
  let (bs, s) := (if files.isEmpty then ["-"] else files).foldl (fun acc path =>
    match source acc.2 path with
    | (.ok bs, s) => (acc.1 ++ (lines bs).map content, s)
    | (.error e, s) => (acc.1, fail s status s!"{context}{shown path}: {State.reason e}"))
    (([] : List Bytes), s.withStatus 0)
  (bs, s)

def textOrder (a b : Bytes) : Bool := !decide (b < a)

def natOf? (text : String) : Option Nat :=
  let cs := text.toList
  if !cs.isEmpty && cs.all Decimal.isDigit then some (Decimal.natOfDigits cs) else none

end Utility
end Anneal.Shell
