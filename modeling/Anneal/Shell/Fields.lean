import Anneal.Shell.Pattern
import Anneal.Text.Blank

/-!
# From expanded words to fields

An expanded word is a row of segments. What came from an unquoted expansion is split at separators;
everything else stays together with its neighbours.
-/

namespace Anneal.Shell

inductive Segment where
  | fixed (quoted : Bool) (cs : List Char)
  | split (cs : List Char)
  | cut
  deriving DecidableEq, Repr

structure Fields where
  done : List (List Marked)
  current : Option (List Marked)
  blankEnded : Bool

namespace Fields

def empty : Fields := ⟨[], none, false⟩

def extend (f : Fields) (ms : List Marked) : Fields :=
  { f with current := some (ms.reverse ++ f.current.getD []), blankEnded := false }

def finish (f : Fields) (blank : Bool) : Fields :=
  match f.current with
  | none => { f with blankEnded := f.blankEnded && blank }
  | some ms => ⟨ms.reverse :: f.done, none, blank⟩

/-- Takes in one character of a text that is split. A separator that is no blank ends a field even
if nothing stands in front of it. -/
def splitChar (separators : List Char) (f : Fields) (c : Char) : Fields :=
  if separators.contains c then
    if Text.isBlank c then f.finish true
    else if f.blankEnded then { f with blankEnded := false }
    else (f.extend []).finish false
  else f.extend [(c, true)]

def add (separators : List Char) (f : Fields) : Segment → Fields
  | .fixed quoted cs => f.extend (marked (!quoted) cs)
  | .split cs => cs.foldl (splitChar separators) f
  | .cut => f.finish false

end Fields

def fieldsOf (separators : List Char) (segments : List Segment) : List (List Marked) :=
  ((segments.foldl (Fields.add separators) .empty).finish false).done.reverse

def wholeText (segments : List Segment) : List Char :=
  segments.flatMap fun s => match s with
    | .fixed _ cs => cs
    | .split cs => cs
    | .cut => [' ']

def wholePattern (segments : List Segment) : Pattern :=
  Pattern.ofMarked (segments.flatMap fun s => match s with
    | .fixed quoted cs => marked (!quoted) cs
    | .split cs => marked true cs
    | .cut => [(' ', false)])

def asQuoted (segments : List Segment) : List Segment := [.fixed true (wholeText segments)]

def asUnquoted (segments : List Segment) : List Segment :=
  segments.map fun s => match s with
    | .fixed false cs => .split cs
    | s => s

/-- The values of a line for `count` names: the last one takes what is left. A character without a
mark separates nothing. -/
def lineValues (separators : List Char) : Nat → List Marked → List (List Char)
  | 0, _ => []
  | count + 1, ms =>
    let isGap (m : Marked) : Bool := m.2 && separators.contains m.1 && Text.isBlank m.1
    let separates (m : Marked) : Bool := m.2 && separators.contains m.1
    let ms := ms.dropWhile isGap
    let value := ms.takeWhile fun m => !separates m
    let rest := (ms.drop value.length).dropWhile isGap
    let rest := match rest with
      | m :: after => if separates m then after.dropWhile isGap else rest
      | [] => []
    if count = 0 then
      if rest.isEmpty then [plain value]
      else [plain ((ms.reverse.dropWhile isGap).reverse)]
    else plain value :: lineValues separators count rest

end Anneal.Shell
