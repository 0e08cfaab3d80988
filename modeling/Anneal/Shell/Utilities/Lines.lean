import Anneal.Shell.Utility

/-!
# Programs that work on lines

The first and the last lines of files, counting, sorting, thinning out and cutting.
-/

namespace Anneal.Shell.Utilities

open Anneal.Text (Bytes)
open Utility

structure Extent where
  bytes : Bool
  count : Nat
  minus : Bool
  plus : Bool

def extent? (bytes : Bool) (text : String) : Option Extent :=
  let found (minus plus : Bool) (cs : List Char) : Option Extent :=
    (natOf? (String.ofList cs)).map fun n => ⟨bytes, n, minus, plus⟩
  match text.toList with
  | '-' :: cs => found true false cs
  | '+' :: cs => found false true cs
  | cs => found false false cs

def withoutOldForm (sign : Char) (args : List String) : List String :=
  match args with
  | word :: rest => match word.toList with
    | c :: d :: ds =>
      if c = sign ∧ (d :: ds).all Decimal.isDigit then
        "-n" :: (if c = '+' then word else String.ofList (d :: ds)) :: rest
      else args
    | _ => args
  | [] => []

def underHeadlines (o : Options) (f : Bytes → Bytes) (s : State) : State :=
  let files := if o.operands.isEmpty then ["-"] else o.operands
  let headlines := (1 < files.length || o.has 'v') && !o.has 'q'
  (files.foldl (fun (acc : State × Bool) path =>
    let named := if path = "-" then "standard input" else path
    match source acc.1 path with
    | (.ok bs, s) =>
      let head := if headlines then
          Text.encode ((if acc.2 then "" else "\n") ++ s!"==> {named} <==\n") else []
      (s.write 1 (head ++ f bs), false)
    | (.error .isDirectory, s) =>
      let s := if headlines then s.print ((if acc.2 then "" else "\n") ++ s!"==> {named} <==\n")
        else s
      (fail s 1 s!"error reading {inQuotes path}: Is a directory", false)
    | (.error e, s) =>
      (fail s 1 s!"cannot open {inQuotes path} for reading: {State.reason e}", acc.2))
    (s.withStatus 0, true)).1

def extentGrammar : Grammar :=
  ⟨"qvfz".toList, "nc".toList,
    [("lines", 'n'), ("bytes", 'c'), ("quiet", 'q'), ("silent", 'q'), ("verbose", 'v')], true⟩

def withExtent (f : Extent → Bytes → Bytes) : Utility := withOptions extentGrammar 1 fun o s =>
  let asked := (o.flags.filter fun p => p.1 = 'n' ∨ p.1 = 'c').getLast?
  match asked with
  | none => underHeadlines o (f ⟨false, 10, false, false⟩) s
  | some (c, text) => match extent? (c = 'c') text with
    | some e => underHeadlines o (f e) s
    | none =>
      let what := if c = 'c' then "bytes" else "lines"
      fail s 1 s!"invalid number of {what}: {cited text}"

def head : Utility := fun args =>
  let beginning {α : Type} (e : Extent) (xs : List α) : List α :=
    xs.take (if e.minus then xs.length - e.count else e.count)
  withExtent (fun e bs =>
    if e.bytes then beginning e bs else (beginning e (lines bs)).flatten)
    (withoutOldForm '-' args)

def tail : Utility := fun args =>
  let ending {α : Type} (e : Extent) (xs : List α) : List α :=
    if e.plus then xs.drop (e.count - 1) else xs.drop (xs.length - e.count)
  withExtent (fun e bs => if e.bytes then ending e bs else (ending e (lines bs)).flatten)
    (withoutOldForm '+' (withoutOldForm '-' args))

def wordCount (bs : Bytes) : Nat := (Text.words (Text.decodeLossy bs).toList).length

def counts (o : Options) (bs : Bytes) : List Nat :=
  let all := !(['l', 'w', 'c', 'm', 'L'].any o.has)
  (if all || o.has 'l' then [bs.count 10] else []) ++
  (if all || o.has 'w' then [wordCount bs] else []) ++
  (if o.has 'm' then [((Text.units bs).filter Option.isSome).length] else []) ++
  (if all || o.has 'c' then [bs.length] else []) ++
  (if o.has 'L' then
    [((lines bs).map fun l => (Text.decodeLossy (content l)).length).foldl max 0] else [])

def countLine (width : Nat) (ns : List Nat) (name : String) : String :=
  let column (n : Nat) : String :=
    let digits := toString n
    String.ofList (List.replicate (width - digits.length) ' ') ++ digits
  Text.join " " (ns.map column) ++ (if name.isEmpty then "" else " " ++ name) ++ "\n"

def wc : Utility := withOptions ⟨"lwcmL".toList, [],
    [("lines", 'l'), ("words", 'w'), ("bytes", 'c'), ("chars", 'm'), ("max-line-length", 'L')],
    true⟩ 1 fun o s =>
  let files := if o.operands.isEmpty then ["-"] else o.operands
  let read := files.foldl (fun (acc : List (String × Except OsError Bytes) × State) path =>
    let r := source acc.2 path
    (acc.1 ++ [(path, r.1)], r.2)) ([], s.withStatus 0)
  let sizes := read.1.map fun r => match r.2 with
    | .ok bs => bs.length
    | .error _ => 0
  let irregular := read.1.any fun r => r.1 = "-" || match r.2 with
    | .error .isDirectory => true
    | _ => false
  let total := sizes.foldl (· + ·) 0
  let single := files.length = 1 ∧ (counts o []).length = 1
  let width := if single then 1
    else max (if irregular then 7 else 1) (toString total).length
  let label (path : String) : String := if o.operands.isEmpty then "" else path
  let s := read.1.foldl (fun s r => match r.2 with
    | .ok bs => s.print (countLine width (counts o bs) (label r.1))
    | .error .isDirectory =>
      (failing s (shown r.1) .isDirectory).print (countLine width (counts o []) (label r.1))
    | .error e => failing s (shown r.1) e) read.2
  if files.length = 1 then s
  else
    let each := read.1.map fun r => match r.2 with
      | .ok bs => counts o bs
      | .error _ => counts o []
    let sums := each.foldl (fun acc ns => List.zipWith (· + ·) acc ns) (counts o [])
    s.print (countLine width sums "total")

def leadingNumber (line : Bytes) : Int × Nat :=
  let cs := (line.map fun b => Char.ofNat b.toNat).dropWhile fun c => c = ' ' || c = '\t'
  let negative := cs.head? = some '-'
  let cs := if negative then cs.drop 1 else cs
  let whole := cs.takeWhile Decimal.isDigit
  let fraction := match cs.drop whole.length with
    | '.' :: rest => rest.takeWhile Decimal.isDigit
    | _ => []
  let units : Int := Decimal.natOfDigits (whole ++ fraction)
  (if negative then -units else units, fraction.length)

def numberLess (a b : Bytes) : Bool :=
  let x := leadingNumber a
  let y := leadingNumber b
  x.1 * (Nat.pow 10 y.2 : Nat) < y.1 * (Nat.pow 10 x.2 : Nat)

structure Order where
  numeric : Bool
  reverse : Bool
  fold : Bool
  blanks : Bool

def Order.ofLetters (cs : List Char) : Order :=
  ⟨cs.contains 'n' || cs.contains 'g', cs.contains 'r', cs.contains 'f', cs.contains 'b'⟩

def upper (bs : Bytes) : Bytes := bs.map fun b => if 97 ≤ b ∧ b ≤ 122 then b - 32 else b

def Order.less (o : Order) (a b : Bytes) : Bool :=
  let (a, b) := if o.reverse then (b, a) else (a, b)
  if o.numeric then numberLess a b
  else if o.fold then decide (upper a < upper b)
  else decide (a < b)

structure Key where
  field : Nat
  byte : Nat
  lastField : Option Nat
  lastByte : Nat
  order : Option Order

def keyEnd? (cs : List Char) : Option (Nat × Option Nat × List Char × List Char) :=
  let field := cs.takeWhile Decimal.isDigit
  if field.isEmpty then none
  else
    let rest := cs.drop field.length
    let (byte, rest) := match rest with
      | '.' :: after =>
        let ds := after.takeWhile Decimal.isDigit
        (some (Decimal.natOfDigits ds), after.drop ds.length)
      | rest => (none, rest)
    let flags := rest.takeWhile Char.isAlpha
    some (Decimal.natOfDigits field, byte, flags, rest.drop flags.length)

def key? (text : String) : Option Key :=
  match keyEnd? text.toList with
  | none => none
  | some (field, byte, flags, rest) =>
    let order (flags : List Char) : Option Order :=
      if flags.isEmpty then none else some (.ofLetters flags)
    match rest with
    | [] => some ⟨field, byte.getD 1, none, 0, order flags⟩
    | ',' :: rest => match keyEnd? rest with
      | some (last, lastByte, more, []) =>
        some ⟨field, byte.getD 1, some last, lastByte.getD 0, order (flags ++ more)⟩
      | _ => none
    | _ => none

def isGapByte (b : UInt8) : Bool := b = 32 || b = 9

def fieldsIn (separator : Option UInt8) : Nat → Bytes → List Bytes
  | 0, _ => []
  | fuel + 1, bs =>
    match separator with
    | some c =>
      let field := bs.takeWhile (· != c)
      match bs.drop field.length with
      | [] => [field]
      | _ :: rest => field :: fieldsIn separator fuel rest
    | none =>
      if bs.isEmpty then []
      else
        let gap := bs.takeWhile isGapByte
        let word := (bs.drop gap.length).takeWhile fun b => !isGapByte b
        (gap ++ word) :: fieldsIn separator fuel (bs.drop (gap.length + word.length))

def fieldStart (separator : Option UInt8) (fields : List Bytes) (n : Nat) : Nat :=
  let gap := if separator.isSome then 1 else 0
  (fields.take n).foldl (fun acc f => acc + f.length + gap) 0

def Key.of (k : Key) (separator : Option UInt8) (o : Order) (line : Bytes) : Bytes :=
  let fields := fieldsIn separator (line.length + 1) line
  let blanksAt (n : Nat) : Nat :=
    if o.blanks then ((line.drop n).takeWhile isGapByte).length else 0
  let start := fieldStart separator fields (k.field - 1)
  let start := start + blanksAt start + (k.byte - 1)
  let stop := match k.lastField with
    | none => line.length
    | some last =>
      let begins := fieldStart separator fields (last - 1)
      if k.lastByte = 0 then begins + (fields[last - 1]?.getD []).length
      else begins + blanksAt begins + k.lastByte
  (line.take stop).drop start

def keysLess (separator : Option UInt8) (base : Order) : List Key → Bytes → Bytes → Bool
  | [], _, _ => false
  | k :: ks, a, b =>
    let o := k.order.getD base
    let x := k.of separator o a
    let y := k.of separator o b
    if o.less x y then true
    else if o.less y x then false
    else keysLess separator base ks a b

def withoutRepeats (same : Bytes → Bytes → Bool) : List Bytes → List Bytes
  | a :: b :: ls =>
    if same a b then withoutRepeats same (a :: ls) else a :: withoutRepeats same (b :: ls)
  | ls => ls
termination_by ls => ls.length

def disorder? (wrong : Bytes → Bytes → Bool) : Nat → List Bytes → Option (Nat × Bytes)
  | n, a :: b :: ls => if wrong a b then some (n + 1, b) else disorder? wrong (n + 1) (b :: ls)
  | _, _ => none

def sort : Utility := withOptions ⟨"nrufbscCdgimz".toList, "kto".toList,
    [("numeric-sort", 'n'), ("reverse", 'r'), ("unique", 'u'), ("stable", 's'), ("check", 'c'),
     ("ignore-case", 'f'), ("key", 'k'), ("field-separator", 't'), ("output", 'o')], true⟩ 2
  fun o s =>
    let base := Order.ofLetters (o.flags.map (·.1))
    let separator := (o.value? 't').bind fun t => (Text.encode t).head?
    match (o.values 'k').mapM key? with
    | none =>
      let spec := (o.value? 'k').getD ""
      fail s 2 s!"-: invalid field specification {cited spec}"
    | some keys =>
      let less (a b : Bytes) : Bool :=
        if keys.isEmpty then base.less a b else keysLess separator base keys a b
      let last (a b : Bytes) : Bool := if base.reverse then textOrder b a else textOrder a b
      let before (a b : Bytes) : Bool :=
        if less a b then true
        else if less b a then false
        else if o.has 's' || o.has 'u' then true
        else last a b
      let (ls, s) := gathered o.operands "cannot read: " 2 s
      if s.status ≠ 0 then s
      else if o.has 'c' || o.has 'C' then
        match disorder? (fun a b => !before a b || (o.has 'u' && !less a b)) 1 ls with
        | none => s.withStatus 0
        | some (n, line) =>
          let name := o.operands.headD "-"
          if o.has 'C' then s.withStatus 1
          else fail s 1 s!"{name}:{n}: disorder: {Text.decodeLossy line}"
      else
        let sorted := ls.mergeSort before
        let result := if o.has 'u' then withoutRepeats (fun a b => !less a b) sorted else sorted
        match o.value? 'o' with
        | none => s.write 1 (joined result)
        | some path => match s.putFile path fun _ => joined result with
          | (.ok (), s) => s
          | (.error e, s) => fail s 2 s!"open failed: {path}: {State.reason e}"

def runs (same : Bytes → Bytes → Bool) : List Bytes → List (Nat × Bytes)
  | [] => []
  | l :: ls => match runs same ls with
    | (n, m) :: rest => if same l m then (n + 1, l) :: rest else (1, l) :: (n, m) :: rest
    | [] => [(1, l)]

def uniq : Utility := withOptions ⟨"cdui".toList, [],
    [("count", 'c'), ("repeated", 'd'), ("unique", 'u'), ("ignore-case", 'i')], true⟩ 1 fun o s =>
  let (ls, s) := gathered (o.operands.take 1) "" 1 s
  let same (a b : Bytes) : Bool := if o.has 'i' then upper a == upper b else a == b
  let found := (runs same ls).filter fun r =>
    (!o.has 'd' || 1 < r.1) && (!o.has 'u' || r.1 = 1)
  let text := found.flatMap fun r =>
    (if o.has 'c' then
      let digits := toString r.1
      Text.encode (String.ofList (List.replicate (7 - digits.length) ' ') ++ digits ++ " ")
    else []) ++ r.2 ++ [10]
  match o.operands[1]? with
  | none => s.write 1 text
  | some path => match s.putFile path fun _ => text with
    | (.ok (), s) => s
    | (.error e, s) => failing s (shown path) e

structure Positions where
  first : Nat
  last : Option Nat

def Positions.holds (p : Positions) (n : Nat) : Bool :=
  p.first ≤ n && match p.last with
    | some last => n ≤ last
    | none => true

inductive BadList where
  | zero
  | invalid (text : String)
  | decreasing
  | empty

def positions (text : String) : Except BadList Positions :=
  let number (cs : List Char) : Except BadList Nat :=
    match natOf? (String.ofList cs) with
    | some 0 => .error .zero
    | some n => .ok n
    | none => .error (.invalid text)
  let cs := text.toList
  let first := cs.takeWhile (· != '-')
  match first, cs.drop first.length with
  | first, [] => (number first).map fun n => ⟨n, some n⟩
  | [], ['-'] => .error .empty
  | [], _ :: last => (number last).map fun n => ⟨1, some n⟩
  | first, ['-'] => (number first).map fun n => ⟨n, none⟩
  | first, _ :: last => match number first, number last with
    | .ok m, .ok n => if n < m then .error .decreasing else .ok ⟨m, some n⟩
    | .error e, _ => .error e
    | _, .error e => .error e

def positionLists (text : String) : Except BadList (List Positions) :=
  ((Text.splitWhere (fun c => c = ',' || c = ' ') text.toList).map String.ofList).mapM positions

def BadList.message (fields : Bool) : BadList → String
  | .zero => if fields then "fields are numbered from 1"
      else "byte/character positions are numbered from 1"
  | .invalid text => if fields then s!"invalid field value {cited text}"
      else s!"invalid byte/character position {cited text}"
  | .decreasing => "invalid decreasing range"
  | .empty => "invalid range with no endpoint: -"

def chosen {α : Type} (holds : Nat → Bool) (xs : List α) : List α :=
  (xs.zipIdx 1).filterMap fun x => if holds x.2 then some x.1 else none

def cut : Utility := withOptions ⟨"snC".toList, "bcfdO".toList,
    [("delimiter", 'd'), ("fields", 'f'), ("characters", 'c'), ("bytes", 'b'),
     ("only-delimited", 's'), ("output-delimiter", 'O'), ("complement", 'C')], true⟩ 1
  fun o s =>
    let asked := o.flags.filter fun f => ['b', 'c', 'f'].contains f.1
    match asked with
    | [] => misused s 1 "you must specify a list of bytes, characters, or fields"
    | (kind, text) :: more =>
      let fields := kind = 'f'
      let delimiter := (o.value? 'd').getD "\t"
      if !more.isEmpty then misused s 1 "only one list may be specified"
      else if 1 < delimiter.utf8ByteSize then misused s 1 "the delimiter must be a single character"
      else if !fields && o.has 'd' then
        misused s 1 "an input delimiter may be specified only when operating on fields"
      else match positionLists text with
        | .error e => misused s 1 (e.message fields)
        | .ok ps =>
          let inside (n : Nat) : Bool := (ps.any fun p => p.holds n) != o.has 'C'
          let mark := if delimiter.isEmpty then [0] else Text.encode delimiter
          let between := match o.value? 'O' with
            | some text => Text.encode text
            | none => mark
          let (ls, s) := gathered o.operands "" 1 s
          let cutLine (l : Bytes) : Option Bytes :=
            if fields then
              let parts := fieldsIn mark.head? (l.length + 1) l
              if parts.length ≤ 1 then (if o.has 's' then none else some l)
              else some (List.intercalate between (chosen inside parts))
            else some (chosen inside l)
          s.write 1 (joined (ls.filterMap cutLine))

def tac : Utility := fun args => overFiles args fun s _ bs => s.write 1 (lines bs).reverse.flatten

def rev : Utility := fun args => overFiles args fun s _ bs =>
  s.write 1 ((lines bs).flatMap fun l =>
    let cs := (Text.decodeLossy (content l)).toList.reverse
    Text.encode (String.ofList cs) ++ if l.contains 10 then [10] else [])

def onLines : List (String × Utility) :=
  [("head", head), ("tail", tail), ("wc", wc), ("sort", sort), ("uniq", uniq), ("cut", cut),
   ("tac", tac), ("rev", rev)]

end Anneal.Shell.Utilities
