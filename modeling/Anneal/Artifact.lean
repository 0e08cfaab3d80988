import Anneal.Disk

/-!
# Artifacts on disk

An artifact is replaced as a whole: its text goes into a file beside it, which then takes its
place, so that a reader finds the old text or the new one.
-/

namespace Anneal.Artifact

def temporary (path : String) : String :=
  Path.withFileName path ((Path.fileName? path).getD "" ++ ".tmp")

def makeParent (d : Disk) (path : String) : Except OsError Unit × Disk :=
  match Path.parent? path with
  | none => (.ok (), d)
  | some parent => if parent.isEmpty then (.ok (), d) else d.makeDirs parent

/-- Replaces the text at `path`, creating its parent directories. -/
def writeAtomic (d : Disk) (path text : String) : Except OsError Unit × Disk :=
  match makeParent d path with
  | (.error e, d) => (.error e, d)
  | (.ok (), d) =>
    match d.writeText (temporary path) text with
    | (.error e, d) => (.error e, d)
    | (.ok (), d) => d.rename (temporary path) path

/-- Source text as it is stored: it ends with a line feed. -/
def sourceText (code : String) : String :=
  if code.toList.getLast? = some '\n' then code else code ++ "\n"

def readOptional (d : Disk) (path : String) : Except OsError (Option String) × Disk :=
  match d.readText path with
  | (.ok text, d) => (.ok (some text), d)
  | (.error .notFound, d) => (.ok none, d)
  | (.error e, d) => (.error e, d)

end Anneal.Artifact
