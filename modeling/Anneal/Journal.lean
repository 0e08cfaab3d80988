import Anneal.Json.Printer
import Anneal.Verification
import Anneal.World

/-!
# The session journal

Each session has a directory below the output directory. It holds a log with one dated entry per
event, a record of each repair attempt and the final report.
-/

namespace Anneal

structure Journal where
  id : String
  dir : String
  deriving DecidableEq, Repr

namespace Journal

def directory (outputDir id : String) : String :=
  Path.join (Path.join (Path.join outputDir ".rustify") "sessions") id

def logPath (j : Journal) : String := Path.join j.dir "session.log"

def reportPath (j : Journal) : String := Path.join j.dir "report.json"

def attemptPath (j : Journal) (number : Nat) : String :=
  Path.join j.dir s!"attempt-{number}.json"

def atOutput (outputDir id : String) : Journal := ⟨id, directory outputDir id⟩

/-- The id of a session that starts at a moment: its letters and digits, as in
`20240506T070809123Z`. -/
def idAt (t : Timestamp) : String :=
  String.ofList (t.logText.toList.filter fun c => c.isAlphanum)

variable {σ : Type}

def create (outputDir id : String) (w : World σ) : Except Failure Journal × World σ :=
  let j := atOutput outputDir id
  match w.onDisk fun d => d.makeDirs j.dir with
  | (.ok (), w) => (.ok j, w)
  | (.error e, w) => (.error (.ofOs s!"create session dir {j.dir}" e), w)

def entry (now : Timestamp) (message : String) : String := now.logText ++ " " ++ message ++ "\n"

def event (j : Journal) (message : String) (w : World σ) : Except Failure Unit × World σ :=
  match w.onDisk fun d => d.appendText j.logPath (entry w.now message) with
  | (.ok (), w) => (.ok (), w)
  | (.error e, w) => (.error (.ofOs s!"open {j.logPath}" e), w)

def writeRecord (path : String) (record : Json) (w : World σ) :
    Except Failure String × World σ :=
  match w.onDisk fun d => d.writeText path (record.pretty ++ "\n") with
  | (.ok (), w) => (.ok path, w)
  | (.error e, w) => (.error (.ofOs s!"write {path}" e), w)

def writeAttempt (j : Journal) (a : Attempt) (w : World σ) : Except Failure String × World σ :=
  writeRecord (j.attemptPath a.number) a.toJson w

def writeReport (j : Journal) (r : Report) (w : World σ) : Except Failure String × World σ :=
  writeRecord j.reportPath r.toJson w

end Journal
end Anneal
