import Anneal.Artifact
import Anneal.Settings.Record
import Anneal.Toml.Printer
import Anneal.Toml.Reader

/-!
# The settings file

Settings are loaded from a file and written to one. Without a file the defaults hold. Only usable
settings are loaded or written.
-/

namespace Anneal.Settings

def defaultPath : String := "rustify.toml"

inductive LoadError where
  | read (path : String) (cause : OsError)
  | parse (path : String) (detail : Option String)
  | invalid (path : String) (complaint : Complaint)
  deriving DecidableEq, Repr

def LoadError.action : LoadError → String
  | .read path _ => s!"read {path}"
  | .parse path _ => s!"parse {path}"
  | .invalid path _ => s!"validate {path}"

def LoadError.cause : LoadError → String
  | .read _ cause => cause.message
  | .parse _ none => "TOML parse error"
  | .parse _ (some detail) => "TOML parse error\n" ++ detail
  | .invalid _ complaint => complaint.message

def LoadError.message (e : LoadError) : String := s!"{e.action}: {e.cause}"

def ofText? (text : String) : Option Settings :=
  (Toml.parse? text).bind fun document => (ofDocument document).toOption

def detail? (text : String) : Option String :=
  (Toml.parse? text).bind fun document => match ofDocument document with
    | .ok _ => none
    | .error m => some m.message

def load (d : Disk) (path : String) : Except LoadError Settings × Disk :=
  if d.exists? path then
    match d.readText path with
    | (.error e, d) => (.error (.read path e), d)
    | (.ok text, d) =>
      match ofText? text with
      | none => (.error (.parse path (detail? text)), d)
      | some s => match s.complaint? with
        | some c => (.error (.invalid path c), d)
        | none => (.ok s, d)
  else (.ok .default, d)

inductive WriteError where
  | invalid (complaint : Complaint)
  | unwritable
  | write (path : String) (cause : OsError)
  deriving DecidableEq, Repr

def WriteError.message : WriteError → String
  | .invalid complaint => complaint.message
  | .unwritable => "serialize config toml"
  | .write path cause => s!"write config {path}: {cause.message}"

def text? (s : Settings) : Option String := (Toml.render? s.toDocument).map (· ++ "\n")

def write (d : Disk) (path : String) (s : Settings) : Except WriteError Unit × Disk :=
  match s.complaint? with
  | some c => (.error (.invalid c), d)
  | none =>
    match s.text? with
    | none => (.error .unwritable, d)
    | some text => match Artifact.writeAtomic d path text with
      | (.ok (), d) => (.ok (), d)
      | (.error e, d) => (.error (.write path e), d)

end Anneal.Settings
