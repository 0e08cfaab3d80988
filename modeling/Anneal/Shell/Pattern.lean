/-!
# Shell patterns

A pattern matches whole texts. A character that was quoted stands for itself, so patterns are read
from characters that carry a mark of whether they may mean something else.
-/

namespace Anneal.Shell

abbrev Marked := Char × Bool

def marked (active : Bool) (cs : List Char) : List Marked := cs.map fun c => (c, active)

def plain (ms : List Marked) : List Char := ms.map (·.1)

inductive SetItem where
  | range (low high : Char)
  | named (name : String)
  deriving DecidableEq, Repr

inductive PatternItem where
  | char (c : Char)
  | one
  | any
  | set (negated : Bool) (items : List SetItem)
  deriving DecidableEq, Repr

abbrev Pattern := List PatternItem

def isPunctuation (c : Char) : Bool :=
  0x21 ≤ c.toNat && c.toNat ≤ 0x7E && !c.isAlphanum

def classHolds (name : String) (c : Char) : Bool :=
  match name with
  | "alpha" => c.isAlpha
  | "digit" => c.isDigit
  | "alnum" => c.isAlphanum
  | "upper" => c.isUpper
  | "lower" => c.isLower
  | "space" => c = ' ' || (9 ≤ c.toNat && c.toNat ≤ 13)
  | "blank" => c = ' ' || c = '\t'
  | "punct" => isPunctuation c
  | "print" => 0x20 ≤ c.toNat && c.toNat ≤ 0x7E
  | "graph" => 0x21 ≤ c.toNat && c.toNat ≤ 0x7E
  | "cntrl" => c.toNat < 0x20 || c.toNat = 0x7F
  | "xdigit" => c.isDigit || ('a' ≤ c && c ≤ 'f') || ('A' ≤ c && c ≤ 'F')
  | _ => false

def classNames : List String :=
  ["alpha", "digit", "alnum", "upper", "lower", "space", "blank", "punct", "print", "graph",
   "cntrl", "xdigit"]

/-- A class in brackets and colons, whose first bracket has been used: its name, and how many
characters it takes. -/
def className? (cs : List Char) : Option (String × Nat) :=
  match cs with
  | ':' :: rest =>
    let name := String.ofList (rest.takeWhile Char.isAlpha)
    match rest.drop name.length with
    | ':' :: ']' :: _ => if classNames.contains name then some (name, name.length + 3) else none
    | _ => none
  | _ => none

def setItems : Nat → Bool → List Marked → Option (List SetItem × List Marked)
  | 0, _, _ => none
  | fuel + 1, first, ms =>
    match ms with
    | [] => none
    | (c, active) :: rest =>
      let put (item : SetItem) (rest : List Marked) : Option (List SetItem × List Marked) :=
        (setItems fuel false rest).map fun r => (item :: r.1, r.2)
      if c = ']' ∧ active ∧ !first then some ([], rest)
      else match if c = '[' ∧ active then className? (plain rest) else none with
        | some (name, length) => put (.named name) (rest.drop length)
        | none => match rest with
          | ('-', true) :: (d, closing) :: after =>
            if d = ']' ∧ closing then put (.range c c) rest else put (.range c d) after
          | _ => put (.range c c) rest

def patternItems : Nat → List Marked → Pattern
  | 0, _ => []
  | _ + 1, [] => []
  | fuel + 1, (c, active) :: rest =>
    if !active then .char c :: patternItems fuel rest
    else if c = '*' then .any :: patternItems fuel rest
    else if c = '?' then .one :: patternItems fuel rest
    else if c = '[' then
      let negated := rest.head? = some ('!', true) || rest.head? = some ('^', true)
      match setItems (rest.length + 1) true (if negated then rest.drop 1 else rest) with
      | some (items, rest) => .set negated items :: patternItems fuel rest
      | none => .char c :: patternItems fuel rest
    else .char c :: patternItems fuel rest

def Pattern.ofMarked (ms : List Marked) : Pattern := patternItems (ms.length + 1) ms

def hasWildcard (ms : List Marked) : Bool :=
  ms.any fun m => m.2 && (m.1 = '*' || m.1 = '?' || m.1 = '[')

def SetItem.holds (i : SetItem) (c : Char) : Bool :=
  match i with
  | .range low high => low ≤ c && c ≤ high
  | .named name => classHolds name c

def PatternItem.accepts (i : PatternItem) (c : Char) : Bool :=
  match i with
  | .char d => c = d
  | .one => true
  | .any => true
  | .set negated items => (items.any fun i => i.holds c) != negated

def acceptsTail (rest : List Char → Bool) : List Char → Bool
  | [] => rest []
  | c :: cs => rest (c :: cs) || acceptsTail rest cs

def Pattern.accepts : Pattern → List Char → Bool
  | [], cs => cs.isEmpty
  | i :: p, cs =>
    if i = .any then acceptsTail (Pattern.accepts p) cs
    else match cs with
      | [] => false
      | c :: cs => i.accepts c && Pattern.accepts p cs

def Pattern.cutStart (p : Pattern) (longest : Bool) (cs : List Char) : List Char :=
  let lengths := List.range (cs.length + 1)
  let order := if longest then lengths.reverse else lengths
  match order.find? fun n => Pattern.accepts p (cs.take n) with
  | some n => cs.drop n
  | none => cs

def Pattern.cutEnd (p : Pattern) (longest : Bool) (cs : List Char) : List Char :=
  let lengths := List.range (cs.length + 1)
  let order := if longest then lengths else lengths.reverse
  match order.find? fun n => Pattern.accepts p (cs.drop n) with
  | some n => cs.take n
  | none => cs

end Anneal.Shell
