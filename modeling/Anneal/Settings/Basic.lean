import Anneal.Backend.Descriptor
import Anneal.Comparison
import Anneal.Path
import Anneal.Verification

/-!
# Settings

What a user can set, and the values that hold where nothing is set. Settings are usable if every
bound, time limit and name in them makes sense; the first complaint is the one that is reported.
-/

namespace Anneal

structure RepairSettings where
  maxRetry : Nat := 5
  maxHistory : Nat := 10
  comparison : Comparison := .exact
  deriving DecidableEq, Repr

structure CompilerSettings where
  compiler : String
  args : List String := []
  compileSeconds : Nat := 120
  runSeconds : Nat := 10
  outputLimit : Nat := 100000
  deriving DecidableEq, Repr

structure CompilersSettings where
  rust : CompilerSettings
  cpp : CompilerSettings
  deriving DecidableEq, Repr

structure ClientSettings where
  backend : String := "ollama"
  model : String := "llama3.1"
  requestSeconds : Nat := 300
  maxRetries : Nat := 2
  initialMs : Nat := 500
  maxMs : Nat := 8000
  deriving DecidableEq, Repr

def CompilerSettings.ofLanguage : Language → CompilerSettings
  | .rust => { compiler := "rustc" }
  | .cpp => { compiler := "g++" }

def CompilerSettings.default : CompilerSettings := .ofLanguage .rust

def CompilersSettings.default : CompilersSettings := ⟨.ofLanguage .rust, .ofLanguage .cpp⟩

def CompilersSettings.ofLanguage (s : CompilersSettings) : Language → CompilerSettings
  | .rust => s.rust
  | .cpp => s.cpp

structure Settings where
  referencePath : String := "example.cpp"
  outputDir : String := "output"
  repair : RepairSettings := {}
  compilers : CompilersSettings := .default
  client : ClientSettings := {}
  backends : Keyed Descriptor := []
  deriving BEq

namespace Settings

def default : Settings := {}

inductive Complaint where
  | zero (setting : String)
  | blank (setting : String)
  | comparison (message : String)
  | delays
  deriving DecidableEq, Repr

def Complaint.message : Complaint → String
  | .zero setting => s!"{setting} must be > 0"
  | .blank setting => s!"{setting} must be non-empty"
  | .comparison message => s!"repair.comparison: {message}"
  | .delays => "client.max_backoff_ms must be >= client.initial_backoff_ms"

def positive (setting : String) (n : Nat) : Option Complaint :=
  if n = 0 then some (.zero setting) else none

def named (setting : String) (s : String) : Option Complaint :=
  if Text.isBlankText s then some (.blank setting) else none

def compilerComplaints (section_ : String) (s : CompilerSettings) : List (Option Complaint) :=
  [named s!"{section_}.compiler" s.compiler,
   positive s!"{section_}.compile_timeout_secs" s.compileSeconds,
   positive s!"{section_}.run_timeout_secs" s.runSeconds,
   positive s!"{section_}.output_limit_bytes" s.outputLimit]

def complaints (s : Settings) : List (Option Complaint) :=
  [positive "repair.max_retry" s.repair.maxRetry,
   positive "repair.max_history" s.repair.maxHistory,
   s.repair.comparison.complaint?.map .comparison] ++
  compilerComplaints "toolchains.rust" s.compilers.rust ++
  compilerComplaints "toolchains.cpp" s.compilers.cpp ++
  [named "client.backend" s.client.backend,
   positive "client.request_timeout_secs" s.client.requestSeconds,
   if s.client.maxMs < s.client.initialMs then some .delays else none,
   if s.outputDir.isEmpty then some (.blank "output_dir") else none]

/-- The first complaint, if there is one. -/
def complaint? (s : Settings) : Option Complaint := s.complaints.findSome? id

def stem (s : Settings) : String := (Path.fileStem? s.referencePath).getD "main"

def candidatePath (s : Settings) : String :=
  Path.join s.outputDir (s.stem ++ "." ++ Language.rust.sourceExtension)

def manifestPath (s : Settings) : String := Path.join s.outputDir "Cargo.toml"

end Settings
end Anneal
