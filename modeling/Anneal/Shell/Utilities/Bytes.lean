import Anneal.Shell.Format
import Anneal.Shell.Utility

/-!
# Programs that copy and change bytes

Copying files to the output, and replacing and deleting characters.
-/

namespace Anneal.Shell.Utilities

open Anneal.Text (Bytes)
open Utility

def visible (ends tabs all : Bool) (b : UInt8) : Bytes :=
  let n := b.toNat
  let low (n : Nat) : Bytes :=
    if n < 32 then [94, UInt8.ofNat (n + 64)] else if n = 127 then [94, 63] else [UInt8.ofNat n]
  if n = 10 then (if ends then [36, 10] else [10])
  else if n = 9 then (if tabs then [94, 73] else [9])
  else if !all then [b]
  else if n < 128 then low n
  else [77, 45] ++ low (n - 128)

def numbered (n : Nat) : Bytes :=
  let digits := toString n
  Text.encode (String.ofList (List.replicate (6 - digits.length) ' ') ++ digits ++ "\t")

def withNumbers (skipEmpty : Bool) : Nat → List Bytes → List Bytes
  | _, [] => []
  | n, l :: ls =>
    if skipEmpty ∧ l = [10] then l :: withNumbers skipEmpty n ls
    else (numbered n ++ l) :: withNumbers skipEmpty (n + 1) ls

def squeezedLines : Bool → List Bytes → List Bytes
  | _, [] => []
  | empty, l :: ls =>
    if empty ∧ l = [10] then squeezedLines true ls else l :: squeezedLines (l = [10]) ls

def cat : Utility := withOptions
  ⟨"AbeEnstTuv".toList, [], [("number", 'n'), ("show-all", 'A'), ("show-ends", 'E'),
    ("show-tabs", 'T'), ("squeeze-blank", 's'), ("number-nonblank", 'b')], true⟩ 1 fun o s =>
  let numbers := o.has 'n' || o.has 'b'
  let ends := o.has 'A' || o.has 'E' || o.has 'e'
  let tabs := o.has 'A' || o.has 'T' || o.has 't'
  let all := o.has 'A' || o.has 'e' || o.has 't' || o.has 'v'
  if !numbers && !ends && !tabs && !all && !o.has 's' then
    overFiles o.operands (fun s _ bs => s.write 1 bs) s
  else
    let change (bs : Bytes) : Bytes := bs.flatMap (visible ends tabs all)
    let (bs, s) := (if o.operands.isEmpty then ["-"] else o.operands).foldl (fun acc path =>
      match source acc.2 path with
      | (.ok bs, s) => (acc.1 ++ bs, s)
      | (.error e, s) => (acc.1, failing s (shown path) e)) (([] : Bytes), s.withStatus 0)
    let ls := if o.has 's' then squeezedLines false (lines bs) else lines bs
    let ls := ls.map change
    let ls := if numbers then
        (if o.has 'b' then withNumbers true 1 ls else withNumbers false 1 ls) else ls
    s.write 1 ls.flatten

def tee : Utility := withOptions (lettersOnly "ai" "") 1 fun o s =>
  let (bs, s) := takeInput s
  o.operands.foldl (fun s path =>
    match s.putFile path fun old => if o.has 'a' then old ++ bs else bs with
    | (.ok (), s) => s
    | (.error e, s) => failing s (shown path) e) ((s.write 1 bs).withStatus 0)

/-- Prints its words for ever. Where the output is read by another program it ends when that one
has read enough; where nobody stops it, its time runs out. -/
def yes : Utility := fun args s =>
  let line := Text.encode ((if args.isEmpty then "y" else Text.join " " args) ++ "\n")
  match s.sink 1 with
  | .held _ =>
    (s.write 1 (List.replicate (endlessCount / line.length + 1) line).flatten).withStatus 0
  | _ => { s with flow := .timeUp }

inductive Listed where
  | byte (b : UInt8)
  | filling (b : UInt8)

def setByte (bs : Bytes) : Option (UInt8 × Bytes) :=
  match bs with
  | [] => none
  | 92 :: rest =>
    let r := Format.formatEscape (rest.map fun b => Char.ofNat b.toNat)
    let used := rest.length - r.2.length
    match r.1, rest with
    | [b], _ => some (b, rest.drop used)
    | _, b :: rest => some (b, rest)
    | _, [] => some (92, [])
  | b :: rest => some (b, rest)

def fillCount? (bs : Bytes) : Option (Nat × Bytes) :=
  let digits := bs.takeWhile fun b => 48 ≤ b && b ≤ 57
  match bs.drop digits.length with
  | 93 :: rest =>
    let cs := digits.map fun b => Char.ofNat b.toNat
    let base := if cs.head? = some '0' then 8 else 10
    some (Format.numberIn base cs, rest)
  | _ => none

def listed : Nat → Bytes → List Listed
  | 0, _ => []
  | fuel + 1, bs =>
    let text := bs.map fun b => Char.ofNat b.toNat
    let named : Option (String × Bytes) := match text with
      | '[' :: rest => (className? rest).map fun r => (r.1, bs.drop (r.2 + 1))
      | _ => none
    match named with
    | some (name, rest) =>
      ((List.range 128).filter fun n => classHolds name (Char.ofNat n)).map
        (fun n => Listed.byte (UInt8.ofNat n)) ++ listed fuel rest
    | none =>
      let filling : Option (UInt8 × Nat × Bytes) := match bs with
        | 91 :: rest => match setByte rest with
          | some (b, 42 :: rest) => (fillCount? rest).map fun r => (b, r)
          | _ => none
        | _ => none
      match filling with
      | some (b, n, rest) =>
        (if n = 0 then [Listed.filling b] else List.replicate n (Listed.byte b)) ++ listed fuel rest
      | none => match setByte bs with
        | none => []
        | some (a, rest) => match rest with
          | 45 :: after => match setByte after with
            | some (b, rest) =>
              (List.range (b.toNat + 1 - a.toNat)).map (fun i => Listed.byte (UInt8.ofNat (a.toNat + i)))
                ++ listed fuel rest
            | none => .byte a :: listed fuel rest
          | rest => .byte a :: listed fuel rest

def setOf (s : String) : List Listed :=
  let bs := Text.encode s
  listed (bs.length + 1) bs

def bytesFor (needed : Nat) (set : List Listed) : Bytes :=
  let fixed := set.countP fun l => match l with
    | .byte _ => true
    | .filling _ => false
  set.flatMap fun l => match l with
    | .byte b => [b]
    | .filling b => List.replicate (needed - fixed) b

def substituted (sources targets : Bytes) (b : UInt8) : UInt8 :=
  match sources.findIdx? (· == b) with
  | none => b
  | some i => match targets[i]? with
    | some t => t
    | none => targets.getLast?.getD b

def squeezed (set : Bytes) (bs : Bytes) : Bytes :=
  (bs.foldl (fun (acc : Bytes) b =>
    if acc.head? = some b && set.contains b then acc else b :: acc) []).reverse

def allBytes : Bytes := (List.range 256).map UInt8.ofNat

def tableOf (f : UInt8 → UInt8) : Array UInt8 := (allBytes.map f).toArray

def tr : Utility := withOptions ⟨"cCdst".toList, [],
    [("delete", 'd'), ("squeeze-repeats", 's'), ("complement", 'c'), ("truncate-set1", 't')],
    false⟩ 1 fun o s =>
  let squeeze := o.has 's'
  let delete := o.has 'd'
  let most := if delete && !squeeze then 1 else 2
  let least := if delete = squeeze then 2 else 1
  match o.operands with
  | [] => misused s 1 "missing operand"
  | first :: more =>
    match more.drop (most - 1) with
    | word :: _ =>
      misused s 1 (s!"extra operand {cited word}" ++ if most = 1 ∧ more.length = 1 then
        "\nOnly one string may be given when deleting without squeezing repeats." else "")
    | [] =>
      if more.length + 1 < least then
        misused s 1 (s!"missing operand after {cited first}\n" ++
          if delete then "Two strings must be given when both deleting and squeezing repeats."
          else "Two strings must be given when translating.")
      else
        let given := bytesFor 0 (setOf first)
        let sources := if o.has 'c' || o.has 'C' then
            allBytes.filter fun b => !given.contains b else given
        let targets := bytesFor sources.length (setOf (more.headD ""))
        let sources := if o.has 't' then sources.take targets.length else sources
        let (bs, s) := takeInput s
        let inSources := (allBytes.map fun b => sources.contains b).toArray
        let kept := if delete then bs.filter fun b => !(inSources[b.toNat]?.getD false) else bs
        let table := tableOf (substituted sources targets)
        let changed := if delete || more.isEmpty then kept
          else kept.map fun b => table[b.toNat]?.getD b
        let result := if squeeze then
            squeezed (if more.isEmpty then sources else targets) changed else changed
        (s.write 1 result).withStatus 0

def onBytes : List (String × Utility) :=
  [("cat", cat), ("tee", tee), ("yes", yes), ("tr", tr)]

end Anneal.Shell.Utilities
