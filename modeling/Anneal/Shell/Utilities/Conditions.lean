import Anneal.Shell.Arithmetic
import Anneal.Shell.State

/-!
# Conditions

The conditions of `test`: a word, a sign in front of a word, a sign between two words, and what is
made of them by negation, conjunction, disjunction and brackets. Which form a condition has is
decided by the number of its words first, and only then by the words.
-/

namespace Anneal.Shell.Conditions

open Anneal.Text (Bytes)

abbrev Verdict := Except String Bool

def isFile : Option Node → Bool
  | some (.file _ _) => true
  | _ => false

def number? (a : String) : Option Int :=
  let cs := Text.trimChars a.toList
  let sign := Decimal.takeSign cs
  if sign.2.isEmpty || !sign.2.all Decimal.isDigit then none
  else
    let n : Int := Decimal.natOfDigits sign.2
    let n := if sign.1 then -n else n
    let half : Int := Word.bound 63
    if n < -half ∨ half ≤ n then none else some n

def unaryHolds (s : State) (op arg : String) : Bool :=
  let node : Option Node := (s.stat arg).toOption.map (·.2)
  let linked := (s.link? arg).isSome
  match op with
  | "-n" => (!arg.isEmpty)
  | "-z" => arg.isEmpty
  | "-e" => node.isSome
  | "-f" => (isFile node && arg ≠ "/dev/null")
  | "-d" => (node == some .directory)
  | "-s" => (match node with
      | some (.file content _) => !content.isEmpty
      | some .directory => true
      | none => false)
  | "-x" => (match node with
      | some (.file _ executable) => executable
      | some .directory => true
      | none => false)
  | "-r" => node.isSome
  | "-w" => node.isSome
  | "-O" => node.isSome
  | "-G" => node.isSome
  | "-L" => linked
  | "-h" => linked
  | "-c" => (node.isSome && arg = "/dev/null")
  | "-b" => false
  | "-p" => false
  | "-S" => false
  | "-g" => false
  | "-u" => false
  | "-k" => false
  | "-t" => false
  | _ => false

def compare (a b : String) (holds : Int → Int → Bool) : Verdict :=
  match number? a, number? b with
  | some m, some n => .ok (holds m n)
  | none, _ => .error s!"Illegal number: {a}"
  | _, none => .error s!"Illegal number: {b}"

def binaryHolds (s : State) (op a b : String) : Verdict :=
  match op with
  | "=" => .ok (a = b)
  | "!=" => .ok (a ≠ b)
  | "<" => .ok (decide (Text.encode a < Text.encode b))
  | ">" => .ok (decide (Text.encode b < Text.encode a))
  | "-eq" => compare a b fun m n => m = n
  | "-ne" => compare a b fun m n => m ≠ n
  | "-lt" => compare a b fun m n => m < n
  | "-le" => compare a b fun m n => m ≤ n
  | "-gt" => compare a b fun m n => m > n
  | "-ge" => compare a b fun m n => m ≥ n
  | "-nt" => .ok ((s.stat a).isOk && !(s.stat b).isOk)
  | "-ot" => .ok (!(s.stat a).isOk && (s.stat b).isOk)
  | "-ef" => .ok (match s.stat a, s.stat b with
      | .ok p, .ok q => p.1 = q.1
      | _, _ => false)
  | _ => .ok false

def binarySigns : List String :=
  ["=", "!=", "<", ">", "-eq", "-ne", "-lt", "-le", "-gt", "-ge", "-nt", "-ot", "-ef"]

def unarySigns : List String :=
  ["-n", "-z", "-e", "-f", "-d", "-s", "-x", "-r", "-w", "-O", "-G", "-L", "-h", "-c", "-b", "-p",
   "-S", "-g", "-u", "-k", "-t"]

inductive Token where
  | ending
  | operand
  | unary (op : String)
  | binary
  | negation
  | conjunction
  | disjunction
  | opening
  | closing
  deriving DecidableEq

def signOf? (w : String) : Option Token :=
  match w with
  | "!" => some .negation
  | "-a" => some .conjunction
  | "-o" => some .disjunction
  | "(" => some .opening
  | ")" => some .closing
  | w => if unarySigns.contains w then some (.unary w)
    else if binarySigns.contains w then some .binary else none

/-- What the first of some words is. A sign in front of a word is an operand where nothing, or a sign
between two words, follows it. -/
def token : List String → Token
  | [] => .ending
  | [w] => match signOf? w with
    | some (.unary _) => .operand
    | some .opening => .operand
    | some t => t
    | none => .operand
  | w :: next :: rest => match signOf? w with
    | some (.unary op) =>
      if !rest.isEmpty && signOf? next = some .binary then .operand else .unary op
    | some t => t
    | none => .operand

abbrev Part := Except String (Bool × List String)

mutual

def disjunction (s : State) : Nat → Token → List String → Part
  | 0, _, _ => .error "too many arguments"
  | fuel + 1, t, ws =>
    match conjunction s fuel t ws with
    | .error e => .error e
    | .ok (a, ws) =>
      if token (ws.drop 1) = .disjunction then
        (disjunction s fuel (token (ws.drop 2)) (ws.drop 2)).map fun r => (a || r.1, r.2)
      else .ok (a, ws)

def conjunction (s : State) : Nat → Token → List String → Part
  | 0, _, _ => .error "too many arguments"
  | fuel + 1, t, ws =>
    match negation s fuel t ws with
    | .error e => .error e
    | .ok (a, ws) =>
      if token (ws.drop 1) = .conjunction then
        (conjunction s fuel (token (ws.drop 2)) (ws.drop 2)).map fun r => (a && r.1, r.2)
      else .ok (a, ws)

def negation (s : State) : Nat → Token → List String → Part
  | 0, _, _ => .error "too many arguments"
  | fuel + 1, t, ws =>
    if t = .negation then
      (negation s fuel (token (ws.drop 1)) (ws.drop 1)).map fun r => (!r.1, r.2)
    else primary s fuel t ws

def primary (s : State) : Nat → Token → List String → Part
  | 0, _, _ => .error "too many arguments"
  | fuel + 1, t, ws =>
    match t with
    | .ending => .ok (false, ws)
    | .opening =>
      let inner := ws.drop 1
      if token inner = .closing then .ok (false, inner)
      else match disjunction s fuel (token inner) inner with
        | .error e => .error e
        | .ok (a, ws) =>
          if token (ws.drop 1) = .closing then .ok (a, ws.drop 1)
          else .error "closing paren expected"
    | .unary op => match ws.drop 1 with
      | [] => .error s!"{op}: argument expected"
      | arg :: rest =>
        if op = "-t" && (number? arg).isNone then .error s!"Illegal number: {arg}"
        else .ok (unaryHolds s op arg, arg :: rest)
    | _ => match ws with
      | a :: op :: rest =>
        if signOf? op = some .binary then
          match rest with
          | [] => .error s!"{op}: argument expected"
          | b :: rest => (binaryHolds s op a b).map fun v => (v, b :: rest)
        else .ok (!a.isEmpty, ws)
      | [a] => .ok (!a.isEmpty, ws)
      | [] => .ok (false, [])

end

def whole (s : State) (t : Token) (words : List String) : Verdict :=
  match disjunction s (8 * words.length + 8) t words with
  | .error e => .error e
  | .ok (_, last :: _ :: _) =>
    .error (if last.isEmpty then "unexpected operator" else s!"{last}: unexpected operator")
  | .ok (v, _) => .ok v

/-- Whether a condition holds. Three words with a sign between the outer ones are that and nothing
else; brackets around three or four words are taken off, and so is a negation in front of them. A
second negation in front of four words has no effect. -/
def condition (s : State) : List String → Verdict
  | [] => .ok false
  | [a, op, b] =>
    if signOf? op = some .binary then whole s .operand [a, op, b]
    else if a = "(" ∧ b = ")" then whole s (token [op]) [op]
    else if a = "!" then (whole s (token [op, b]) [op, b]).map (!·)
    else whole s (token [a, op, b]) [a, op, b]
  | [a, b, c, d] =>
    if a = "(" ∧ d = ")" then whole s (token [b, c]) [b, c]
    else if a = "!" then
      let v := condition s [b, c, d]
      if b = "!" ∧ signOf? c ≠ some .binary then v else v.map (!·)
    else whole s (token [a, b, c, d]) [a, b, c, d]
  | words => whole s (token words) words

def test (name : String) (args : List String) (s : State) : State :=
  if name = "[" ∧ args.getLast? ≠ some "]" then (s.complain "[: missing ]").withStatus 2
  else match condition s (if name = "[" then args.dropLast else args) with
    | .ok b => s.withStatus (if b then 0 else 1)
    | .error message => (s.complain s!"{name}: {message}").withStatus 2

end Anneal.Shell.Conditions
