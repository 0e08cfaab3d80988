import Anneal.Shell.Syntax
import Anneal.Text.Search

/-!
# The text of a shell script

What is left of a script that is being read: its characters and the number of the line, a token that
was read too early, and the documents whose text begins on the next line. A shorthand that is read in
the place of a command is replaced by its text, which is then read in turn.
-/

namespace Anneal.Shell

inductive Token where
  | ending
  | newline
  | sign (text : String)
  | redirect (stream : Option Nat) (sign : String)
  | word (w : Word)

structure Announced where
  index : Nat
  delimiter : List Char
  tabs : Bool
  raw : Bool

structure Source where
  rest : List Char
  line : Nat
  pushed : Option Token
  announced : List Announced
  documentCount : Nat
  documents : List (Nat × Word)
  aliases : List (String × String)
  inside : List (String × Nat)

structure Fault where
  line : Nat
  message : String

abbrev Reading (α : Type) := Source → Except Fault (α × Source)

namespace Source

def ofText (line : Nat) (aliases : List (String × String)) (cs : List Char) : Source :=
  ⟨cs, line, none, [], 0, [], aliases, []⟩

def fault {α : Type} (s : Source) (message : String) : Except Fault α :=
  .error ⟨s.line, "Syntax error: " ++ message⟩

def push (t : Token) (s : Source) : Source := { s with pushed := some t }

def skip (s : Source) (cs : List Char) : Source :=
  { s with rest := s.rest.drop cs.length, line := s.line + cs.count '\n' }

def joined : Nat → List Char → Nat × List Char
  | line, '\\' :: '\n' :: cs => joined (line + 1) cs
  | line, cs => (line, cs)

def join (s : Source) : Source :=
  let r := joined s.line s.rest
  { s with line := r.1, rest := r.2 }

def blanksSkipped : Nat → List Char → Nat × List Char
  | line, ' ' :: cs => blanksSkipped line cs
  | line, '\t' :: cs => blanksSkipped line cs
  | line, '\\' :: '\n' :: cs => blanksSkipped (line + 1) cs
  | line, '#' :: cs => (line, cs.dropWhile (· != '\n'))
  | line, cs => (line, cs)

def skipBlanks (s : Source) : Source :=
  let r := blanksSkipped s.line s.rest
  { s with line := r.1, rest := r.2 }

/-- The shorthands that end in front of the rest are no longer being read; whether one of them ends in
a blank, so that the next word may be one as well. -/
def leaveAliases (s : Source) : Bool × Source :=
  let length := s.rest.length
  let (inside, left) := s.inside.partition fun a => a.2 < length
  let isOpen := left.any fun a => match s.aliases.lookup a.1 with
    | some text => text.toList.getLast?.any fun c => c = ' ' || c = '\t'
    | none => false
  (isOpen, if left.isEmpty then s else { s with inside := inside })

def expandAlias? (name : String) (s : Source) : Option Source :=
  if s.inside.any fun a => a.1 = name then none
  else (s.aliases.lookup name).map fun text =>
    { s with rest := text.toList ++ s.rest, inside := (name, s.rest.length) :: s.inside }

end Source

def isSpecial (c : Char) : Bool :=
  [' ', '\t', '\n', ';', '&', '|', '<', '>', '(', ')'].contains c

def isNameStart (c : Char) : Bool := c.isAlpha || c = '_'

def isNameChar (c : Char) : Bool := c.isAlphanum || c = '_'

def isName (cs : List Char) : Bool :=
  match cs with
  | [] => false
  | c :: _ => isNameStart c && cs.all isNameChar

def isSign (c : Char) : Bool := ['@', '*', '#', '?', '$', '!', '-'].contains c || c.isDigit

/-- The script between two back quotes, with the backslashes that protect their like removed, and
what follows. -/
def backquoted (quoted : Bool) : List Char → Option (List Char × List Char)
  | [] => none
  | '`' :: rest => some ([], rest)
  | '\\' :: '\n' :: rest => backquoted quoted rest
  | '\\' :: c :: rest =>
    let taken := if c = '`' ∨ c = '\\' ∨ c = '$' ∨ (c = '"' ∧ quoted) then [c] else ['\\', c]
    (backquoted quoted rest).map fun r => (taken ++ r.1, r.2)
  | c :: rest => (backquoted quoted rest).map fun r => (c :: r.1, r.2)

structure Heading where
  name : String
  modifier : Modifier
  closed : Bool
  rest : List Char

def modifierAfter (name : String) (cs : List Char) : Heading :=
  let make (m : Modifier) (rest : List Char) : Heading := ⟨name, m, false, rest⟩
  let sign (orEmpty : Bool) (cs : List Char) : Heading :=
    match cs with
    | '-' :: rest => make (.default orEmpty) rest
    | '=' :: rest => make (.assign orEmpty) rest
    | '?' :: rest => make (.complain orEmpty) rest
    | '+' :: rest => make (.replace orEmpty) rest
    | '\x7d' :: rest => ⟨name, .none, !orEmpty, rest⟩
    | _ :: rest => make .bad rest
    | [] => make .bad []
  match cs with
  | ':' :: rest => sign true rest
  | '#' :: '#' :: rest => make (.cutStart true) rest
  | '#' :: rest => make (.cutStart false) rest
  | '%' :: '%' :: rest => make (.cutEnd true) rest
  | '%' :: rest => make (.cutEnd false) rest
  | cs => sign false cs

def heading (cs : List Char) : Heading :=
  let plain (cs : List Char) : Option Heading :=
    match cs with
    | [] => none
    | c :: rest =>
      let name := if isNameStart c then cs.takeWhile isNameChar
        else if c.isDigit then cs.takeWhile Char.isDigit
        else if isSign c then [c] else []
      if name.isEmpty then none
      else some (modifierAfter (String.ofList name) (if name.length = 1 then rest
        else cs.drop name.length))
  let bad (rest : List Char) : Heading := ⟨"", .bad, false, rest⟩
  let lengthOf (name rest : List Char) : Heading :=
    match rest with
    | '\x7d' :: rest => ⟨String.ofList name, .length, true, rest⟩
    | rest => ⟨String.ofList name, .bad, false, rest⟩
  match cs with
  | '\x7d' :: _ => bad cs
  | '#' :: c :: rest =>
    if isNameStart c then
      let name := (c :: rest).takeWhile isNameChar
      lengthOf name ((c :: rest).drop name.length)
    else if c.isDigit then
      let name := (c :: rest).takeWhile Char.isDigit
      lengthOf name ((c :: rest).drop name.length)
    else if c ≠ '\x7d' && rest.head? = some '\x7d' then
      if isSign c then lengthOf [c] rest else bad rest
    else modifierAfter "#" (c :: rest)
  | _ => (plain cs).getD (bad (cs.drop 1))

def keywords : List String :=
  ["!", "case", "do", "done", "elif", "else", "esac", "fi", "for", "if", "in", "then", "until",
   "while", "\x7b", "\x7d"]

def keyword? : Token → Option String
  | .word w => plainText? w
  | _ => none

/-- A token as it is named in messages, where words with a meaning of their own are looked for or
not. -/
def Token.name (meaningful : Bool) : Token → String
  | .ending => "end of file"
  | .newline => "newline"
  | .sign text => "\"" ++ text ++ "\""
  | .redirect _ _ => "redirection"
  | .word w => match plainText? w with
    | some text => if meaningful && keywords.contains text then "\"" ++ text ++ "\"" else "word"
    | none => "word"

def unexpectedAs {α : Type} (meaningful : Bool) (t : Token) (expected : String) (s : Source) :
    Except Fault α :=
  s.fault (t.name meaningful ++ " unexpected" ++
    (if expected.isEmpty then "" else s!" (expecting {expected})"))

def unexpected {α : Type} (t : Token) (expected : String) (s : Source) : Except Fault α :=
  unexpectedAs true t (if expected.isEmpty then "" else "\"" ++ expected ++ "\"") s

def direction? : String → Option (Nat × Direction)
  | "<" => some (0, .input)
  | ">" => some (1, .output false)
  | ">|" => some (1, .output true)
  | ">>" => some (1, .append)
  | "<&" => some (0, .duplicate)
  | ">&" => some (1, .duplicate)
  | "<<" => some (0, .document)
  | "<<-" => some (0, .document)
  | "<>" => some (0, .input)
  | _ => none

def redirectSign? (s : Source) : Option (String × Source) :=
  let after (s : Source) : Source := { s with rest := s.rest.drop 1 }.join
  match s.rest with
  | '>' :: _ =>
    let s := after s
    match s.rest with
    | '>' :: _ => some (">>", after s)
    | '|' :: _ => some (">|", after s)
    | '&' :: _ => some (">&", after s)
    | _ => some (">", s)
  | '<' :: _ =>
    let s := after s
    match s.rest with
    | '<' :: _ =>
      let s := after s
      match s.rest with
      | '-' :: _ => some ("<<-", after s)
      | _ => some ("<<", s)
    | '>' :: _ => some ("<>", after s)
    | '&' :: _ => some ("<&", after s)
    | _ => some ("<", s)
  | _ => none

def sign? (s : Source) : Option (String × Source) :=
  let after (s : Source) : Source := { s with rest := s.rest.drop 1 }
  let double (c : Char) : Option (String × Source) :=
    let next := after s |>.join
    if next.rest.head? = some c then some (String.ofList [c, c], after next)
    else some (String.ofList [c], after s)
  match s.rest with
  | '&' :: _ => double '&'
  | '|' :: _ => double '|'
  | ';' :: _ => double ';'
  | '(' :: _ => some ("(", after s)
  | ')' :: _ => some (")", after s)
  | _ => none

def unquoted (w : Word) : List Char := w.flatMap fun p => match p with
  | .text _ cs => cs
  | _ => []

def hasQuotes (w : Word) : Bool := w.any fun p => match p with
  | .text quoted _ => quoted
  | _ => false

def assignment? (w : Word) : Option (String × Word) :=
  match w with
  | .text false cs :: rest =>
    let name := cs.takeWhile (· != '=')
    match cs.drop name.length with
    | '=' :: value =>
      if isName name then
        some (String.ofList name, if value.isEmpty then rest else .text false value :: rest)
      else none
    | _ => none
  | _ => none

def documentLines (a : Announced) : Nat → List Char → List Char × List Char
  | 0, cs => ([], cs)
  | _ + 1, [] => ([], [])
  | fuel + 1, cs =>
    let cs := if a.tabs then cs.dropWhile (· == '\t') else cs
    let line := cs.takeWhile (· != '\n')
    let behind := cs.drop line.length
    if line = a.delimiter then ([], behind.drop 1)
    else
      let r := documentLines a fuel (behind.drop 1)
      (line ++ behind.take 1 ++ r.1, r.2)

def closers : List String := ["do", "done", "elif", "else", "esac", "fi", "then", "\x7d"]

def isCloser (t : Token) : Bool :=
  match t with
  | .ending => true
  | .sign ")" => true
  | .sign ";;" => true
  | t => match keyword? t with
    | some k => closers.contains k
    | none => false

def specialNames : List String :=
  [".", ":", "break", "continue", "eval", "exec", "exit", "export", "local", "readonly", "return", "set",
   "shift", "times", "trap", "unset"]

def emptyCommand : Command := .sequence []

def addText (quoted : Bool) (cs : List Char) : Word → Word
  | .text q ds :: rest => if q = quoted then .text q (cs ++ ds) :: rest
      else .text quoted cs :: .text q ds :: rest
  | rest => .text quoted cs :: rest

end Anneal.Shell
