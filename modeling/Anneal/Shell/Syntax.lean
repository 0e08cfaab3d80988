/-!
# Shell commands

The commands of the shell and the words that they are made of. A word keeps what was quoted apart
from what was not, because only the latter is split into fields.
-/

namespace Anneal.Shell

inductive Modifier where
  | none
  | length
  | default (orEmpty : Bool)
  | assign (orEmpty : Bool)
  | complain (orEmpty : Bool)
  | replace (orEmpty : Bool)
  | cutStart (longest : Bool)
  | cutEnd (longest : Bool)
  | bad
  deriving DecidableEq, Repr

inductive Piece where
  | text (quoted : Bool) (cs : List Char)
  | parameter (quoted : Bool) (name : String) (modifier : Modifier) (operand : List Piece)
  | arithmetic (quoted : Bool) (body : List Piece)
  | output (quoted : Bool) (line : Nat) (script : List Char)
  deriving Inhabited

abbrev Word := List Piece

def plainText? : Word → Option String
  | [.text false cs] => some (String.ofList cs)
  | _ => none

inductive Direction where
  | input
  | output (force : Bool)
  | append
  | document
  | duplicate
  deriving DecidableEq, Repr, Inhabited

structure Redirect where
  stream : Nat
  direction : Direction
  target : Word
  deriving Inhabited

inductive Command where
  | simple (line : Nat) (assignments : List (String × Word)) (words : List Word)
      (redirects : List Redirect)
  | redirected (line : Nat) (body : Command) (redirects : List Redirect)
  | negated (body : Command)
  | pipeline (stages : List Command)
  | both (first second : Command)
  | either (first second : Command)
  | sequence (commands : List Command)
  | background (body : Command)
  | subshell (body : Command)
  | branch (condition success failure : Command)
  | loop (until_ : Bool) (condition body : Command)
  | each (name : String) (words : Option (List Word)) (body : Command)
  | choose (word : Word) (cases : List (List Word × Command))
  | define (name : String) (body : Command)
  deriving Inhabited

end Anneal.Shell
