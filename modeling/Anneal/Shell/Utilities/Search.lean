import Anneal.Shell.Regex
import Anneal.Shell.Utility

/-!
# Searching lines

The lines of files in which an expression occurs, or the parts that it matches. A line need not
be a text.
-/

namespace Anneal.Shell.Utilities

open Anneal.Text (Bytes charsOf bytesOf)
open Utility

namespace Search

inductive Extent where
  | anywhere
  | word
  | line
  deriving DecidableEq

structure Query where
  regex : Regex
  ignoreCase : Bool
  extent : Extent

def lengthAt (q : Query) (before : Option Char) (cs : List Char) : Option Nat :=
  let fits (t : Regex.Spot) : Bool := match q.extent with
    | .anywhere => true
    | .word => !before.any Regex.isWordChar && !t.rest.head?.any Regex.isWordChar
    | .line => before.isNone && t.rest.isEmpty
  (Regex.furthest ((Regex.ends q.ignoreCase q.regex ⟨0, before, cs, []⟩).filter fits)).map (·.place)

def matches? (q : Query) : Nat → Nat → Option Char → List Char → List (Nat × List Char)
  | 0, _, _, _ => []
  | _ + 1, _, _, [] => []
  | fuel + 1, offset, before, c :: cs =>
    match lengthAt q before (c :: cs) with
    | some (n + 1) =>
      let text := (c :: cs).take (n + 1)
      (offset, text) ::
        matches? q fuel (offset + (bytesOf text).length) text.getLast? ((c :: cs).drop (n + 1))
    | _ => matches? q fuel (offset + (bytesOf [c]).length) (some c) cs

def occurs (q : Query) : Option Char → List Char → Bool
  | before, [] => (lengthAt q before []).isSome
  | before, c :: cs => (lengthAt q before (c :: cs)).isSome || occurs q (some c) cs

structure Report where
  invert : Bool
  count : Bool
  quiet : Bool
  onlyMatching : Bool
  numbers : Bool
  offsets : Bool
  listing : Option Bool
  named : Bool
  most : Option Nat
  after : Nat
  before : Nat
  asText : Bool

structure Row where
  number : Nat
  offset : Nat
  line : Bytes

def rowsOf (bs : Bytes) : List Row :=
  ((lines bs).foldl (fun (acc : List Row × Nat × Nat) l =>
    (⟨acc.2.1, acc.2.2, content l⟩ :: acc.1, acc.2.1 + 1, acc.2.2 + l.length)) ([], 1, 0)).1.reverse

def lead (r : Report) (name : String) (mark : String) (row : Row) (offset : Nat) : Bytes :=
  Text.encode ((if r.named then name ++ mark else "") ++
    (if r.numbers then toString row.number ++ mark else "") ++
    (if r.offsets then toString offset ++ mark else ""))

def selectedText (q : Query) (r : Report) (name : String) (row : Row) : Bytes :=
  if r.onlyMatching then
    if r.invert then []
    else (matches? q (row.line.length + 1) 0 none (charsOf row.line)).flatMap fun m =>
      lead r name ":" row (row.offset + m.1) ++ bytesOf m.2 ++ [10]
  else lead r name ":" row row.offset ++ row.line ++ [10]

/-- The rows that are selected, up to the most that are asked for, and how many rows in all are looked
at for them. -/
def select (q : Query) (r : Report) (rows : List Row) : List Row :=
  let chosen := rows.filter fun row => occurs q none (charsOf row.line) != r.invert
  match r.most with
  | some n => chosen.take n
  | none => chosen

/-- The rows around the selected ones, each with whether it is selected itself. Rows behind the last
selected one go up to the next line that would have been selected. -/
def withContext (r : Report) (rows chosen : List Row) : List (Row × Bool) :=
  rows.filterMap fun row =>
    if chosen.any fun c => c.number = row.number then some (row, true)
    else if chosen.any fun c =>
        (c.number < row.number && row.number ≤ c.number + r.after) ||
          (row.number < c.number && c.number ≤ row.number + r.before) then some (row, false)
    else none

/-- The text of rows with their surroundings, and a mark where rows are left out; `last` is the number
of the row printed before. -/
def contextText (q : Query) (r : Report) (name : String) :
    Option Nat → List (Row × Bool) → Bytes
  | _, [] => []
  | last, (row, selected) :: rest =>
    let gap : Bytes := match last with
      | some n => if n + 1 < row.number then [45, 45, 10] else []
      | none => []
    let text := if selected then selectedText q r name row
      else if r.onlyMatching then []
      else lead r name "-" row row.offset ++ row.line ++ [10]
    gap ++ text ++ contextText q r name (some row.number) rest

structure Found where
  any : Bool
  failed : Bool
  printed : Bool

def matchesBinary (s : State) (name : String) : State :=
  s.warn s!"{s.name}: {name}: binary file matches"

def file (q : Query) (r : Report) (name : String) (bs : Bytes) (f : Found) (s : State) :
    Found × State :=
  let rows := rowsOf bs
  let chosen := select q r rows
  let hit := !chosen.isEmpty
  let f := { f with any := f.any || (hit != (r.listing = some false)) }
  if r.quiet then ({ f with any := f.any }, s)
  else match r.listing with
  | some wanted => (f, if hit = wanted then s.print (name ++ "\n") else s)
  | none =>
    if r.count then
      (f, s.print ((if r.named then name ++ ":" else "") ++ toString chosen.length ++ "\n"))
    else if !r.asText && hit && bs.contains 0 then (f, matchesBinary s name)
    else if r.after = 0 && r.before = 0 then
      let broken (row : Row) : Bool := !r.asText && (Text.units row.line).any Option.isNone
      let fine := chosen.takeWhile fun row => !broken row
      let s := s.write 1 (fine.flatMap (selectedText q r name))
      (f, if fine.length < chosen.length then matchesBinary s name else s)
    else
      let text := contextText q r name none (withContext r rows chosen)
      let gap : Bytes := if f.printed && !text.isEmpty then [45, 45, 10] else []
      ({ f with printed := f.printed || !text.isEmpty }, s.write 1 (gap ++ text))

def grammar : Grammar :=
  ⟨"EFGPivwxcnqslLoHhaIrRyzbUTZ".toList, "efmABCdD".toList,
    [("extended-regexp", 'E'), ("fixed-strings", 'F'), ("basic-regexp", 'G'), ("perl-regexp", 'P'),
     ("ignore-case", 'i'), ("invert-match", 'v'), ("word-regexp", 'w'), ("line-regexp", 'x'),
     ("count", 'c'), ("line-number", 'n'), ("quiet", 'q'), ("silent", 'q'), ("no-messages", 's'),
     ("files-with-matches", 'l'), ("files-without-match", 'L'), ("only-matching", 'o'),
     ("with-filename", 'H'), ("no-filename", 'h'), ("text", 'a'), ("recursive", 'r'),
     ("regexp", 'e'), ("file", 'f'), ("max-count", 'm'), ("after-context", 'A'),
     ("before-context", 'B'), ("context", 'C'), ("byte-offset", 'b')], true⟩

def usage (s : State) : State :=
  ((s.warn s!"Usage: {s.name} [OPTION]... PATTERNS [FILE]...").warn
    s!"Try '{s.name} --help' for more information.").withStatus 2

def spelledOut (args : List String) : List String :=
  args.map fun a => match a.toList with
    | '-' :: c :: cs => if (c :: cs).all Decimal.isDigit then "-C" ++ String.ofList (c :: cs) else a
    | _ => if a = "--color" || a = "--colour" || a.startsWith "--color=" then "-U" else a

def patterns (o : Options) (s : State) : Except State (List String × List String) :=
  let given := o.values 'e'
  let files := o.values 'f'
  let read := files.foldl (fun (acc : Except State (List String)) path =>
    match acc, source s path with
    | .ok ps, (.ok bs, _) =>
      .ok (ps ++ (lines bs).map fun l => String.ofList (charsOf (content l)))
    | .ok _, (.error e, _) => .error (fail s 2 s!"{path}: {State.reason e}")
    | .error s, _ => .error s) (.ok [])
  match read with
  | .error s => .error s
  | .ok fromFiles =>
    let split (text : String) : List String :=
      (Text.splitWhere (· == '\n') (charsOf (Text.encode text))).map String.ofList
    if given.isEmpty && files.isEmpty then match o.operands with
      | [] => .error (usage s)
      | text :: rest => .ok (split text, rest)
    else .ok (given.flatMap split ++ fromFiles, o.operands)

def isExtended (o : Options) : Bool := o.has 'E' || o.has 'P'

def regexOf (o : Options) (ps : List String) : Except Regex.Fault Regex :=
  let one (p : String) : Except Regex.Fault Regex :=
    if o.has 'F' then .ok (Regex.ofText p.toList) else Regex.parse (isExtended o) p.toList
  match ps.mapM one with
  | .error e => .error e
  | .ok [] => .ok (.set false [])
  | .ok (r :: rs) => .ok (rs.foldl .alt r)

def filesBelow (s : State) (path : String) : List String :=
  match s.stat path with
  | .ok (p, .directory) =>
    let base := if path.endsWith "/" then path else path ++ "/"
    (s.disk.nodes.filterMap fun e => match e.2 with
      | .file _ _ => if p.isPrefixOf e.1 then some (base ++ Text.join "/" (e.1.drop p.length)) else none
      | .directory => none).mergeSort fun a b => !decide (Text.encode b < Text.encode a)
  | _ => [path]

def countOf (o : Options) (c : Char) : Except String (Option Nat) :=
  match o.value? c with
  | none => .ok none
  | some text => match natOf? text with
    | some n => .ok (some n)
    | none => .error text

def run (o : Options) (s : State) : State :=
  match patterns o s with
  | .error s => s
  | .ok (ps, operands) =>
    match countOf o 'm', countOf o 'A', countOf o 'B', countOf o 'C' with
    | .error _, _, _, _ => fail s 2 "invalid max count"
    | _, .error t, _, _ => fail s 2 s!"{t}: invalid context length argument"
    | _, _, .error t, _ => fail s 2 s!"{t}: invalid context length argument"
    | _, _, _, .error t => fail s 2 s!"{t}: invalid context length argument"
    | .ok most, .ok after, .ok before, .ok around =>
      let s := if o.has 'F' then s
        else (ps.flatMap fun p => Regex.remarks (isExtended o) p.toList).foldl
          (fun s m => complain s s!"warning: {m}") s
      match regexOf o ps with
      | .error e => fail s 2 e.message
      | .ok regex =>
        let deep := o.has 'r' || o.has 'R'
        let files : List (String × String) :=
          if operands.isEmpty then
            if deep then (filesBelow s ".").map fun p => (String.ofList (p.toList.drop 2), p)
            else [("(standard input)", "-")]
          else (if deep then operands.flatMap (filesBelow s) else operands).map fun p =>
            (if p = "-" then "(standard input)" else p, p)
        let many := 1 < operands.length || (deep && (operands.isEmpty || operands.any fun p =>
          (s.stat p).toOption.any fun n => n.2 == .directory))
        let q : Query := ⟨regex, o.has 'i' || o.has 'y',
          if o.has 'x' then .line else if o.has 'w' then .word else .anywhere⟩
        let r : Report := {
          invert := o.has 'v', count := o.has 'c', quiet := o.has 'q', onlyMatching := o.has 'o'
          numbers := o.has 'n', offsets := o.has 'b'
          listing := if o.has 'l' then some true else if o.has 'L' then some false else none
          named := (many || o.has 'H') && !o.has 'h', most := most
          after := (after.orElse fun _ => around).getD 0
          before := (before.orElse fun _ => around).getD 0
          asText := o.has 'a' || o.has 'z' }
        let found := files.foldl (fun (acc : Found × State) f =>
          if r.quiet && acc.1.any then acc
          else match source acc.2 f.2 with
          | (.ok bs, s) => file q r f.1 bs acc.1 s
          | (.error .isDirectory, s) =>
            if o.value? 'd' = some "skip" then (acc.1, s)
            else ({ acc.1 with failed := true },
              if o.has 's' then s else complain s s!"{f.1}: Is a directory")
          | (.error e, s) => ({ acc.1 with failed := true },
              if o.has 's' then s else complain s s!"{f.1}: {State.reason e}"))
          (⟨false, false, false⟩, s)
        let f := found.1
        found.2.withStatus (if f.failed && !(r.quiet && f.any) then 2 else if f.any then 0 else 1)

end Search

def grepWith (more : List (Char × String)) : Utility := fun args s =>
  match options Search.grammar (args.length + 1) (Search.spelledOut args) with
  | .error e => Search.usage (complain s e.message)
  | .ok o => Search.run { o with flags := more ++ o.flags } s

def onPatterns : List (String × Utility) :=
  [("grep", grepWith []), ("egrep", grepWith [('E', "")]), ("fgrep", grepWith [('F', "")])]

end Anneal.Shell.Utilities
