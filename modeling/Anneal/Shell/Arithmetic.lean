import Anneal.Text.Blank
import Anneal.Word

/-!
# Shell arithmetic

Expressions over 64-bit whole numbers with the usual operators and precedences. An expression is
evaluated while it is read, from left to right, so that of two faults in it the first one counts; parts
whose value does not matter are only read.
-/

namespace Anneal.Shell.Arithmetic

inductive Token where
  | number (n : Int)
  | name (s : String)
  | sign (s : String)
  | stranger
  | ending
  deriving DecidableEq, Inhabited

inductive Fault where
  | expecting (what : String)
  | divisionByZero
  | notNumber (text : String)

def Fault.message (text : String) : Fault → String
  | .expecting what => s!"arithmetic expression: expecting {what}: \"{text}\""
  | .divisionByZero => s!"arithmetic expression: division by zero: \"{text}\""
  | .notNumber value => s!"Illegal number: {value}"

def wrap (n : Int) : Int := Int.bmod n (Word.bound 64)

def greatest : Nat := Word.bound 63 - 1

def digitValue (c : Char) : Nat :=
  if c.isDigit then c.toNat - '0'.toNat
  else if 'a' ≤ c ∧ c ≤ 'z' then c.toNat - 'a'.toNat + 10
  else if 'A' ≤ c ∧ c ≤ 'Z' then c.toNat - 'A'.toNat + 10
  else 36

/-- The number at the beginning of a text that begins with a digit, and what follows it: decimal, octal
after a zero, hexadecimal after `0x`. -/
def leading (cs : List Char) : Nat × List Char :=
  let based (base : Nat) (cs : List Char) : Nat × List Char :=
    let ds := cs.takeWhile fun c => digitValue c < base
    (ds.foldl (fun n c => n * base + digitValue c) 0, cs.drop ds.length)
  match cs with
  | '0' :: x :: d :: rest =>
    if (x = 'x' || x = 'X') && digitValue d < 16 then based 16 (d :: rest) else based 8 cs
  | '0' :: _ => based 8 cs
  | _ => based 10 cs

def value? (s : String) : Option Int :=
  let cs := s.toList.dropWhile Text.isBlank
  let (negative, ds) : Bool × List Char := match cs with
    | '-' :: rest => (true, rest)
    | '+' :: rest => (false, rest)
    | cs => (false, cs)
  if cs.isEmpty then some 0
  else if !ds.head?.any Char.isDigit then none
  else
    let (n, rest) := leading ds
    if !rest.all Text.isBlank || greatest + (if negative then 1 else 0) < n then none
    else some (if negative then -n else n)

def signs : List String :=
  ["<<=", ">>=", "&&", "||", "==", "!=", "<=", ">=", "<<", ">>", "+=", "-=", "*=", "/=", "%=",
   "&=", "|=", "^=", "+", "-", "*", "/", "%", "<", ">", "=", "!", "~", "&", "|", "^", "?", ":",
   "(", ")"]

def isBlank (c : Char) : Bool := c = ' ' || c = '\t' || c = '\n'

def tokens : Nat → List Char → List Token
  | 0, _ => []
  | _ + 1, [] => []
  | fuel + 1, c :: cs =>
    if isBlank c then tokens fuel cs
    else if c.isDigit then
      let (n, rest) := leading (c :: cs)
      .number (min n greatest) :: tokens fuel rest
    else if c.isAlpha || c = '_' then
      let text := (c :: cs).takeWhile fun d => d.isAlphanum || d = '_'
      .name (String.ofList text) :: tokens fuel ((c :: cs).drop text.length)
    else match signs.find? fun t => t.toList.isPrefixOf (c :: cs) with
      | some t => .sign t :: tokens fuel ((c :: cs).drop t.length)
      | none => .stranger :: tokens fuel cs

def levels : List (List String) :=
  [["|"], ["^"], ["&"], ["==", "!="], ["<=", ">=", "<", ">"], ["<<", ">>"], ["+", "-"],
   ["*", "/", "%"]]

def assignments : List String :=
  ["=", "+=", "-=", "*=", "/=", "%=", "&=", "|=", "^=", "<<=", ">>="]

def ofTruth (b : Bool) : Int := if b then 1 else 0

def distance (n : Int) : Int64 := Int64.ofInt (n % 64)

def apply (op : String) (a b : Int) : Except Fault Int :=
  match op with
  | "|" => .ok (Int64.ofInt a ||| Int64.ofInt b).toInt
  | "^" => .ok (Int64.ofInt a ^^^ Int64.ofInt b).toInt
  | "&" => .ok (Int64.ofInt a &&& Int64.ofInt b).toInt
  | "==" => .ok (ofTruth (a = b))
  | "!=" => .ok (ofTruth (a ≠ b))
  | "<=" => .ok (ofTruth (a ≤ b))
  | ">=" => .ok (ofTruth (b ≤ a))
  | "<" => .ok (ofTruth (a < b))
  | ">" => .ok (ofTruth (b < a))
  | "<<" => .ok (Int64.ofInt a <<< distance b).toInt
  | ">>" => .ok (Int64.ofInt a >>> distance b).toInt
  | "+" => .ok (wrap (a + b))
  | "-" => .ok (wrap (a - b))
  | "*" => .ok (wrap (a * b))
  | "/" => if b = 0 then .error .divisionByZero else .ok (wrap (Int.tdiv a b))
  | _ => if b = 0 then .error .divisionByZero else .ok (wrap (Int.tmod a b))

abbrev Given := List (String × Int)

structure Progress where
  rest : List Token
  given : Given

def Progress.head (p : Progress) : Token := p.rest.headD .ending

def Progress.tail (p : Progress) : Progress := { p with rest := p.rest.drop 1 }

abbrev Evaluation := Progress → Except Fault (Int × Progress)

def variableValue (look : String → String) (x : String) (g : Given) : Except Fault Int :=
  match g.lookup x with
  | some n => .ok n
  | none => match value? (look x) with
    | some n => .ok n
    | none => .error (.notNumber (look x))

mutual

def expression (look : String → String) : Nat → Bool → Evaluation
  | 0, _, p => .ok (0, p)
  | fuel + 1, idle, p =>
    match p.head, p.tail.head with
    | .name x, .sign op =>
      if assignments.contains op then do
        let (n, q) ← expression look fuel idle p.tail.tail
        if idle then return (n, q)
        else if op = "=" then return (n, { q with given := (x, n) :: q.given })
        else
          let old ← variableValue look x q.given
          let n ← apply (String.ofList op.toList.dropLast) old n
          return (n, { q with given := (x, n) :: q.given })
      else choice look fuel idle p
    | _, _ => choice look fuel idle p

def choice (look : String → String) : Nat → Bool → Evaluation
  | 0, _, p => .ok (0, p)
  | fuel + 1, idle, p => do
    let (c, p) ← either look fuel idle p
    if p.head ≠ .sign "?" then return (c, p)
    else
      let (a, p) ← expression look fuel (idle || c = 0) p.tail
      if p.head ≠ .sign ":" then throw (.expecting "':'")
      else
        let (b, p) ← choice look fuel (idle || c ≠ 0) p.tail
        return (if c ≠ 0 then a else b, p)

def either (look : String → String) : Nat → Bool → Evaluation
  | 0, _, p => .ok (0, p)
  | fuel + 1, idle, p => do
    let (a, p) ← both look fuel idle p
    if p.head ≠ .sign "||" then return (a, p)
    else
      let (b, p) ← either look fuel (idle || a ≠ 0) p.tail
      return (ofTruth (a ≠ 0 || b ≠ 0), p)

def both (look : String → String) : Nat → Bool → Evaluation
  | 0, _, p => .ok (0, p)
  | fuel + 1, idle, p => do
    let (a, p) ← level look fuel idle levels p
    if p.head ≠ .sign "&&" then return (a, p)
    else
      let (b, p) ← both look fuel (idle || a = 0) p.tail
      return (ofTruth (a ≠ 0 && b ≠ 0), p)

def level (look : String → String) : Nat → Bool → List (List String) → Evaluation
  | 0, _, _, p => .ok (0, p)
  | fuel + 1, idle, [], p => primary look fuel idle p
  | fuel + 1, idle, ops :: tighter, p => do
    let (a, p) ← level look fuel idle tighter p
    more look fuel idle ops tighter a p

def more (look : String → String) :
    Nat → Bool → List String → List (List String) → Int → Evaluation
  | 0, _, _, _, a, p => .ok (a, p)
  | fuel + 1, idle, ops, tighter, a, p =>
    match p.head with
    | .sign op =>
      if ops.contains op then do
        let (b, p) ← level look fuel idle tighter p.tail
        let c ← if idle then pure b else apply op a b
        more look fuel idle ops tighter c p
      else .ok (a, p)
    | _ => .ok (a, p)

def primary (look : String → String) : Nat → Bool → Evaluation
  | 0, _, p => .ok (0, p)
  | fuel + 1, idle, p =>
    let changed (f : Int → Int) : Except Fault (Int × Progress) := do
      let (n, p) ← primary look fuel idle p.tail
      return (f n, p)
    match p.head with
    | .number n => .ok (n, p.tail)
    | .name x => do
      let n ← if idle then pure 0 else variableValue look x p.given
      return (n, p.tail)
    | .sign "(" => do
      let (n, p) ← expression look fuel idle p.tail
      if p.head = .sign ")" then return (n, p.tail) else throw (.expecting "')'")
    | .sign "+" => changed id
    | .sign "-" => changed fun n => wrap (-n)
    | .sign "!" => changed fun n => ofTruth (n = 0)
    | .sign "~" => changed fun n => -n - 1
    | _ => .error (.expecting "primary")

end

def run (look : String → String) (text : List Char) : Except Fault (Int × Given) := do
  let ts := tokens (text.length + 1) text
  let (n, p) ← expression look (20 * ts.length + 40) false ⟨ts, []⟩
  if p.rest.isEmpty then return (n, p.given) else throw (.expecting "EOF")

end Anneal.Shell.Arithmetic
