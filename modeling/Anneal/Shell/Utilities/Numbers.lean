import Anneal.Shell.Arithmetic
import Anneal.Shell.Format
import Anneal.Shell.Utility

/-!
# Programs that work on numbers

Rows of numbers, and waiting for some time. Numbers with a point are kept as whole numbers of their
last place, so that no step is rounded.
-/

namespace Anneal.Shell.Utilities

open Anneal.Text (Bytes)
open Utility

structure Scaled where
  units : Int
  places : Nat

def scaled? (text : String) : Option Scaled :=
  let sign := Decimal.takeSign text.toList
  let whole := sign.2.takeWhile Decimal.isDigit
  let made (fraction : List Char) : Option Scaled :=
    if whole.isEmpty && fraction.isEmpty then none
    else
      let n : Int := Decimal.natOfDigits (whole ++ fraction)
      some ⟨if sign.1 then -n else n, fraction.length⟩
  match sign.2.drop whole.length with
  | [] => made []
  | '.' :: fraction => if fraction.all Decimal.isDigit then made fraction else none
  | _ => none

def Scaled.at (x : Scaled) (places : Nat) : Int :=
  x.units * (Nat.pow 10 (places - x.places) : Nat)

def unitsText (places : Nat) (units : Int) : String :=
  (if units < 0 then "-" else "") ++ String.ofList (Decimal.pointed places units.natAbs)

def zeroPadded (width : Nat) (text : String) : String :=
  let negative := text.startsWith "-"
  let digits := if negative then text.toList.drop 1 else text.toList
  let zeros := List.replicate (width - text.length) '0'
  String.ofList ((if negative then ['-'] else []) ++ zeros ++ digits)

def leadingOptions : List String → List String × List String
  | [] => ([], [])
  | word :: rest =>
    match word.toList with
    | '-' :: c :: cs =>
      if Decimal.isDigit c || c = '.' then ([], word :: rest)
      else if c = '-' ∧ cs.isEmpty then ([], rest)
      else
        let takesNext := (c = 's' ∨ c = 'f') ∧ cs.isEmpty
        let r := if takesNext then leadingOptions (rest.drop 1) else leadingOptions rest
        (word :: (if takesNext then rest.take 1 else []) ++ r.1, r.2)
    | _ => ([], word :: rest)
termination_by ws => ws.length
decreasing_by all_goals simp only [List.length_drop, List.length_cons]; omega

def row (s : State) (o : Options) (words : List String) (numbers : List Scaled) : State :=
  let one : Scaled := ⟨1, 0⟩
  let (first, step, last) := match numbers with
    | [last] => (one, one, last)
    | [first, last] => (first, one, last)
    | [first, step, last] => (first, step, last)
    | _ => (one, one, one)
  if step.units = 0 then
    let step := words[1]?.getD ""
    misused s 1 s!"invalid Zero increment value: {cited step}"
  else
    let places := max first.places step.places
    let grid := max places last.places
    let from' := first.at grid
    let by' := step.at grid
    let until' := last.at grid
    let count := if 0 < by' then (until' - from') / by' + 1 else (from' - until') / (-by') + 1
    let units := (List.range count.toNat).map fun (i : Nat) =>
      first.at places + step.at places * (i : Int)
    let texts := match o.value? 'f' with
      | some format => units.map fun u =>
          Text.decodeLossy (Format.print true format [unitsText places u]).bytes
      | none =>
        let plain := units.map (unitsText places)
        if o.has 'w' then
          let ends := [unitsText places (first.at places), unitsText grid until']
          let width := (plain ++ ends.take 1).foldl (fun n t => max n t.length) 0
          plain.map (zeroPadded width)
        else plain
    let mark := (o.value? 's').getD "\n"
    if texts.isEmpty then s.withStatus 0
    else (s.print (Text.join mark texts ++ "\n")).withStatus 0

def seq : Utility := fun args s =>
  let (flags, words) := leadingOptions args
  match options ⟨['w'], ['s', 'f'], [("equal-width", 'w'), ("separator", 's'), ("format", 'f')],
      true⟩ (flags.length + 1) flags with
  | .error e => misused s 1 e.message
  | .ok o => match words with
    | [] => misused s 1 "missing operand"
    | words => match words[3]? with
      | some word => misused s 1 s!"extra operand {cited word}"
      | none => match words.find? fun w => (scaled? w).isNone with
        | some word => misused s 1 s!"invalid floating point argument: {cited word}"
        | none => row s o words (words.filterMap scaled?)

def duration? (text : String) : Option Nat :=
  let cs := text.toList
  let (digits, unit) := match cs.getLast? with
    | some 's' => (cs.dropLast, 1000)
    | some 'm' => (cs.dropLast, 60000)
    | some 'h' => (cs.dropLast, 3600000)
    | some 'd' => (cs.dropLast, 86400000)
    | _ => (cs, 1000)
  match scaled? (String.ofList digits) with
  | some x => if x.units < 0 then none else some (x.units.toNat * unit / Nat.pow 10 x.places)
  | none => none

def forever : Nat := 1000000000000

def sleep : Utility := fun args s =>
  if args.isEmpty then misused s 1 "missing operand"
  else if args.contains "infinity" then s.pause forever
  else match args.filter fun a => (duration? a).isNone with
    | [] => (s.withStatus 0).pause ((args.filterMap duration?).foldl (· + ·) 0)
    | wrong =>
      (wrong.foldl (fun s a => complain s s!"invalid time interval {cited a}") s).warn
        s!"Try '{s.name} --help' for more information." |>.withStatus 1

def onNumbers : List (String × Utility) := [("seq", seq), ("sleep", sleep)]

end Anneal.Shell.Utilities
