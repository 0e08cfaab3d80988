import Anneal.Shell.Pattern
import Anneal.Text.Search
import Anneal.Text.Utf8

/-!
# Regular expressions

Expressions in the basic and the extended notation, and where a match of them can end. Each end is
found once, so that the search is bounded by the length of the text; of several ways to one end the
first counts, and says what the groups hold.
-/

namespace Anneal.Shell

inductive Regex where
  | empty
  | char (c : Char)
  | any
  | set (negated : Bool) (items : List SetItem)
  | lineStart
  | lineEnd
  | edge (start finish : Bool)
  | inner
  | group (number : Nat) (body : Regex)
  | back (number : Nat)
  | seq (first second : Regex)
  | alt (first second : Regex)
  | repeated (least : Nat) (most : Option Nat) (body : Regex)
  deriving Inhabited

namespace Regex

structure Spot where
  place : Nat
  before : Option Char
  rest : List Char
  groups : List (Nat × List Char)

def same (ignoreCase : Bool) (a b : Char) : Bool :=
  a = b || (ignoreCase && a.toLower = b.toLower)

def isWordChar (c : Char) : Bool := c.isAlphanum || c = '_'

def Spot.advance (s : Spot) (n : Nat) : Spot :=
  { s with
    place := s.place + n
    before := if n = 0 then s.before else s.rest[n - 1]?
    rest := s.rest.drop n }

def Spot.isIn (s : Spot) (places : Nat) : Bool := places.testBit s.place

def Spot.addTo (s : Spot) (places : Nat) : Nat := places ||| (1 <<< s.place)

def distinct (spots : List Spot) : List Spot :=
  (spots.foldl (fun (acc : List Spot × Nat) s =>
    if s.isIn acc.2 then acc else (s :: acc.1, s.addTo acc.2)) ([], 0)).1.reverse

def steps (step : Spot → List Spot) (spots : List Spot) : List Spot :=
  match spots with
  | [s] => step s
  | spots => distinct (spots.flatMap step)

/-- The spots that any number of steps leads to, in reverse and behind those found before: more steps
are tried before fewer ones, and places that were passed are not visited again. -/
def advances (step : Spot → List Spot) : Nat → List Spot × Nat → Spot → List Spot × Nat
  | 0, found, s => (s :: found.1, found.2)
  | fuel + 1, found, s =>
    let found := (step s).foldl (fun (found : List Spot × Nat) t =>
      if t.place ≤ s.place || t.isIn found.2 then found
      else advances step fuel (found.1, t.addTo found.2) t) found
    (s :: found.1, found.2)

def upTo (step : Spot → List Spot) : Nat → List Spot → List Spot
  | 0, spots => spots
  | count + 1, spots =>
    if spots.isEmpty then [] else distinct (upTo step count (steps step spots) ++ spots)

def repetitions (step : Spot → List Spot) (least : Nat) (most : Option Nat) (s : Spot) : List Spot :=
  let rec exactly : Nat → List Spot → List Spot
    | 0, spots => spots
    | count + 1, spots => if spots.isEmpty then [] else exactly count (steps step spots)
  let spots := exactly least [s]
  match most with
  | some n => upTo step (n - least) spots
  | none => (spots.foldl (fun (found : List Spot × Nat) t =>
      if t.isIn found.2 then found
      else advances step (t.rest.length + 1) (found.1, t.addTo found.2) t) ([], 0)).1.reverse

/-- The spots where a match that begins at a spot can end, one for each place: first branches come
before second ones, and more repetitions before fewer. -/
def ends (ignoreCase : Bool) : Regex → Spot → List Spot
  | .empty, s => [s]
  | .char c, s => match s.rest with
    | d :: _ => if same ignoreCase c d then [s.advance 1] else []
    | [] => []
  | .any, s => match s.rest with
    | d :: _ => if Text.isStray d then [] else [s.advance 1]
    | [] => []
  | .set negated items, s => match s.rest with
    | d :: _ =>
      let holds (c : Char) : Bool := items.any fun i => i.holds c
      let inside := holds d || (ignoreCase && (holds d.toLower || holds d.toUpper))
      if inside != negated && !Text.isStray d then [s.advance 1] else []
    | [] => []
  | .lineStart, s => if s.before.isNone then [s] else []
  | .lineEnd, s => if s.rest.isEmpty then [s] else []
  | .edge start finish, s =>
    let left := s.before.any isWordChar
    let right := s.rest.head?.any isWordChar
    if (start && !left && right) || (finish && left && !right) then [s] else []
  | .inner, s =>
    if s.before.any isWordChar = s.rest.head?.any isWordChar then [s] else []
  | .group n body, s => (ends ignoreCase body s).map fun t =>
      { t with groups := (n, s.rest.take (t.place - s.place)) :: t.groups }
  | .back n, s =>
    let text := (s.groups.lookup n).getD []
    let here := s.rest.take text.length
    if here.length = text.length && (List.zipWith (same ignoreCase) text here).all id then
      [s.advance text.length]
    else []
  | .seq a b, s => steps (ends ignoreCase b) (ends ignoreCase a s)
  | .alt a b, s => distinct (ends ignoreCase a s ++ ends ignoreCase b s)
  | .repeated least most body, s => repetitions (ends ignoreCase body) least most s

def furthest (spots : List Spot) : Option Spot :=
  spots.foldl (fun acc s => match acc with
    | some t => if t.place < s.place then some s else acc
    | none => some s) none

inductive Fault where
  | openSet
  | openGroup
  | closedGroup
  | openCount
  | badCount
  | decreasing
  | nothingToRepeat
  | openEscape
  | badReference
  | badClass
  | bareClass
  | badRange
  | tooBig
  deriving DecidableEq, Repr

def Fault.message : Fault → String
  | .openSet => "Unmatched [, [^, [:, [., or [="
  | .openGroup => "Unmatched ( or \\("
  | .closedGroup => "Unmatched ) or \\)"
  | .openCount => "Unmatched \\\x7b"
  | .decreasing => "Invalid content of \\\x7b\\\x7d"
  | .badCount => "Invalid content of \\\x7b\\\x7d"
  | .nothingToRepeat => "Invalid preceding regular expression"
  | .openEscape => "Trailing backslash"
  | .badReference => "Invalid back reference"
  | .badClass => "Invalid character class name"
  | .bareClass => "character class syntax is [[:space:]], not [:space:]"
  | .badRange => "Invalid range end"
  | .tooBig => "Regular expression too big"

inductive Token where
  | char (c : Char)
  | any
  | set (negated : Bool) (items : List SetItem)
  | star
  | plus
  | question
  | count (least : Nat) (most : Option Nat)
  | caret
  | dollar
  | bar
  | opening
  | closing
  | back (n : Nat)
  | special (r : Regex)

def wordItems : List SetItem := [.named "alnum", .range '_' '_']

def escaped (c : Char) : Token :=
  match c with
  | 'w' => .set false wordItems
  | 'W' => .set true wordItems
  | 's' => .set false [.named "space"]
  | 'S' => .set true [.named "space"]
  | 'b' => .special (.edge true true)
  | '<' => .special (.edge true false)
  | '>' => .special (.edge false true)
  | 'B' => .special .inner
  | '`' => .special .lineStart
  | '\'' => .special .lineEnd
  | c => if '1' ≤ c ∧ c ≤ '9' then .back (c.toNat - '0'.toNat) else .char c

def sign? (c : Char) : Option Token :=
  match c with
  | '+' => some .plus
  | '?' => some .question
  | '|' => some .bar
  | '(' => some .opening
  | ')' => some .closing
  | _ => none

def countLimit : Nat := 32767

def hasBadClass : List Char → Bool
  | '[' :: ':' :: cs =>
    let name := cs.takeWhile Char.isAlpha
    ([':', ']'].isPrefixOf (cs.drop name.length) && !classNames.contains (String.ofList name)) ||
      hasBadClass cs
  | _ :: cs => hasBadClass cs
  | [] => false

def setFault? (text : List Char) (items : List SetItem) : Option Fault :=
  if text.head? = some ':' && [']', ':'].isPrefixOf text.reverse && 2 < text.length then
    some .bareClass
  else if hasBadClass text then some .badClass
  else if items.any fun i => match i with
    | .range low high => high < low
    | .named _ => false then some .badRange
  else none

def counts? (ending : List Char) (cs : List Char) : Except Fault (Token × List Char) :=
  let number (ds : List Char) : Nat := ds.foldl (fun n c => n * 10 + (c.toNat - '0'.toNat)) 0
  let first := cs.takeWhile Char.isDigit
  let rest := cs.drop first.length
  let fault : Fault := if Text.containsChars ending rest then .badCount else .openCount
  let close (least : Nat) (most : Option Nat) (rest : List Char) :
      Except Fault (Token × List Char) :=
    if ending.isPrefixOf rest then
      if countLimit < max least (most.getD 0) then .error .tooBig
      else match most with
      | some n => if n < least then .error .decreasing
          else .ok (.count least most, rest.drop ending.length)
      | none => .ok (.count least most, rest.drop ending.length)
    else .error fault
  match rest with
  | ',' :: rest =>
    let last := rest.takeWhile Char.isDigit
    close (number first) (if last.isEmpty then none else some (number last))
      (rest.drop last.length)
  | rest =>
    if first.isEmpty then .error fault
    else close (number first) (some (number first)) rest

def tokens (extended : Bool) : Nat → List Char → Except Fault (List Token)
  | 0, _ => .ok []
  | _ + 1, [] => .ok []
  | fuel + 1, c :: rest =>
    let put (t : Token) (rest : List Char) : Except Fault (List Token) :=
      (tokens extended fuel rest).map (t :: ·)
    if c = '\\' then
      match rest with
      | [] => .error .openEscape
      | sign :: rest =>
        if !extended && sign = '\x7b' then
          match counts? ['\\', '\x7d'] rest with
          | .error e => .error e
          | .ok (t, rest) => put t rest
        else match if extended then none else sign? sign with
          | some t => put t rest
          | none => put (escaped sign) rest
    else if c = '.' then put .any rest
    else if c = '*' then put .star rest
    else if c = '^' then put .caret rest
    else if c = '$' then put .dollar rest
    else if c = '[' then
      let negated := rest.head? = some '^'
      let body := if negated then rest.drop 1 else rest
      match setItems (rest.length + 1) true (marked true body) with
      | some (items, after) =>
        match setFault? (body.take (body.length - after.length)) items with
        | some e => .error e
        | none => put (.set negated items) (plain after)
      | none => .error .openSet
    else if extended && c = '\x7b' then
      match counts? ['\x7d'] rest with
      | .ok (t, rest) => put t rest
      | .error e =>
        if e = .decreasing || e = .tooBig then .error e else put (.char c) rest
    else match if extended then sign? c else none with
      | some t => put t rest
      | none => put (.char c) rest

structure Progress where
  opened : Nat
  rest : List Token

def isRepetition : Token → Option (Nat × Option Nat)
  | .star => some (0, none)
  | .plus => some (1, none)
  | .question => some (0, some 1)
  | .count least most => some (least, most)
  | _ => none

def withRepetitions : Regex → List Token → Regex × List Token
  | r, t :: ts => match isRepetition t with
    | some (least, most) => withRepetitions (.repeated least most r) ts
    | none => (r, t :: ts)
  | r, [] => (r, [])

def endsHere : List Token → Bool
  | [] => true
  | .bar :: _ => true
  | .closing :: _ => true
  | _ => false

def literal? : Token → Option Char
  | .star => some '*'
  | .plus => some '+'
  | .question => some '?'
  | _ => none

mutual

def branches (extended : Bool) : Nat → Nat → Progress → Except Fault (Regex × Progress)
  | 0, _, p => .ok (.empty, p)
  | fuel + 1, depth, p =>
    match branch extended fuel depth true .empty p with
    | .error e => .error e
    | .ok (r, p) => match p.rest with
      | .bar :: rest => match branches extended fuel depth { p with rest := rest } with
        | .error e => .error e
        | .ok (more, p) => .ok (.alt r more, p)
      | _ => .ok (r, p)

def branch (extended : Bool) : Nat → Nat → Bool → Regex → Progress →
    Except Fault (Regex × Progress)
  | 0, _, _, done, p => .ok (done, p)
  | fuel + 1, depth, first, done, p =>
    let go (r : Regex) (opened : Nat) (rest : List Token) : Except Fault (Regex × Progress) :=
      let repeated := withRepetitions r rest
      branch extended fuel depth false (.seq done repeated.1) ⟨opened, repeated.2⟩
    match p.rest with
    | [] => .ok (done, p)
    | t :: rest =>
      match t with
      | .bar => .ok (done, p)
      | .closing =>
        if depth = 0 then
          if extended then go (.char ')') p.opened rest else .error .closedGroup
        else .ok (done, p)
      | .opening =>
        let number := p.opened + 1
        match branches extended fuel (depth + 1) ⟨number, rest⟩ with
        | .error e => .error e
        | .ok (body, p) => match p.rest with
          | .closing :: rest => go (.group number body) p.opened rest
          | _ => .error .openGroup
      | .char c => go (.char c) p.opened rest
      | .any => go .any p.opened rest
      | .set negated items => go (.set negated items) p.opened rest
      | .back n => if p.opened < n then .error .badReference else go (.back n) p.opened rest
      | .special r => go r p.opened rest
      | .caret =>
        if extended then go .lineStart p.opened rest
        else if first then branch extended fuel depth true (.seq done .lineStart) { p with rest := rest }
        else go (.char '^') p.opened rest
      | .dollar =>
        if extended || endsHere rest then go .lineEnd p.opened rest
        else go (.char '$') p.opened rest
      | t =>
        if extended then
          if first then branch extended fuel depth true done { p with rest := rest }
          else .error .nothingToRepeat
        else match literal? t with
          | some c => go (.char c) p.opened rest
          | none => .error .nothingToRepeat

end

def leadingName? : Token → Option String
  | .count _ _ => some "\x7b...\x7d"
  | t => (literal? t).map fun c => String.ofList [c]

def leadingNames : Bool → List Token → List String
  | _, [] => []
  | first, t :: ts =>
    let here := if first then (leadingName? t).toList else []
    let next := match t with
      | .bar => true
      | .opening => true
      | .caret => true
      | t => first && (leadingName? t).isSome
    here ++ leadingNames next ts

def parse (extended : Bool) (cs : List Char) : Except Fault Regex :=
  match tokens extended (cs.length + 1) cs with
  | .error e => .error e
  | .ok ts => (branches extended (4 * ts.length + 4) 0 ⟨0, ts⟩).map (·.1)

def remarks (extended : Bool) (cs : List Char) : List String :=
  match if extended then tokens extended (cs.length + 1) cs else .ok [] with
  | .ok ts => (leadingNames true ts).map fun n => n ++ " at start of expression"
  | .error _ => []

def ofText (cs : List Char) : Regex := cs.foldr (fun c r => .seq (.char c) r) .empty

end Regex
end Anneal.Shell
