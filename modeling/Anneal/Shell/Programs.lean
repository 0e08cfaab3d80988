import Anneal.Shell.State
import Anneal.Shell.Utilities.Bytes
import Anneal.Shell.Utilities.Files
import Anneal.Shell.Utilities.Lines
import Anneal.Shell.Utilities.Numbers
import Anneal.Shell.Utilities.Search
import Anneal.Shell.Utilities.Standalone

/-!
# Finding programs

Which programs are there, and what a command starts: a program that is installed, or a file that says
in its first line which interpreter runs it.
-/

namespace Anneal.Shell

open Anneal.Text (Bytes)

def programs : List (String × Utility) :=
  Utilities.standalone ++ Utilities.onBytes ++ Utilities.onLines ++ Utilities.onNumbers ++
    Utilities.onPatterns ++ Utilities.onFiles

def shells : List String := ["sh", "dash"]

def starters : List String := ["env", "timeout"]

def programDirs : List String := ["/usr/bin", "/bin"]

def installed? (path : String) : Option String :=
  (programDirs.find? fun d => path.startsWith (d ++ "/")).bind fun d =>
    let name := String.ofList (path.toList.drop (d.length + 1))
    if shells.contains name then some "sh"
    else if starters.contains name || (programs.lookup name).isSome then some name
    else none

def firstBytes : Nat := 256

def isGap (b : UInt8) : Bool := b = 32 || b = 9

/-- The interpreter that the first line of a file names, and its argument: what follows it up to the
end of the line, as one word. -/
def interpreter? (content : Bytes) : Option (String × List String) :=
  match content.take firstBytes with
  | 35 :: 33 :: rest =>
    let line := rest.takeWhile (· != 10)
    let trimmed := ((line.dropWhile isGap).reverse.dropWhile isGap).reverse
    let path := trimmed.takeWhile fun b => !isGap b
    let arg := (trimmed.drop path.length).dropWhile isGap
    let cut := line.length = rest.length && firstBytes ≤ content.length && arg.isEmpty
    if path.isEmpty || cut then none
    else some (Text.decodeLossy path, if arg.isEmpty then [] else [Text.decodeLossy arg])
  | _ => none

structure Started where
  tool : String
  name : String
  args : List String

def interpreterLimit : Nat := 5

def resolveFile (s : State) : Nat → String → String → List String → Except OsError Started
  | 0, _, _, _ => .error .tooManyLinks
  | depth + 1, path, name, args =>
    match installed? path with
    | some tool => .ok ⟨tool, name, args⟩
    | none => match s.stat path with
      | .error e => .error e
      | .ok (_, .directory) => .error .permissionDenied
      | .ok (_, .file _ false) => .error .permissionDenied
      | .ok (_, .file content true) =>
        match interpreter? content with
        | none => .error .execFormat
        | some (next, first) => resolveFile s depth next next (first ++ path :: args)

def candidates (path name : String) : List String :=
  (Text.splitWhere (· == ':') path.toList).map fun dir =>
    if dir.isEmpty then name else String.ofList dir ++ "/" ++ name

/-- Where a command is to be found: a name with a slash is a path, another one is looked for in the
directories of a list. Files that may not be executed are passed over, but remembered. -/
def pathOf (s : State) (path name : String) : Except OsError String :=
  if name.toList.contains '/' then .ok name
  else (candidates path name).foldr (fun candidate later =>
    if (installed? candidate).isSome then .ok candidate
    else match s.stat candidate with
      | .ok (_, .file _ true) => .ok candidate
      | .ok (_, .file _ false) => match later with
        | .error .notFound => .error .permissionDenied
        | r => r
      | _ => later) (.error (if name.isEmpty then .permissionDenied else .notFound))

def defaultPath : String := "/bin:/usr/bin"

def resolve (s : State) (path program : String) (args : List String) : Except OsError Started :=
  match pathOf s path program with
  | .error e => .error e
  | .ok found => resolveFile s interpreterLimit found program args

def startReason (e : OsError) : String :=
  if e = .notFound ∨ e = .notDirectory then "not found" else State.reason e

def startStatus (e : OsError) : Nat :=
  if [OsError.notFound, .notDirectory, .nameTooLong, .tooManyLinks].contains e then 127 else 126

end Anneal.Shell
