import Anneal.CommandLine.Arguments
import Anneal.Program.Compiler
import Anneal.Session
import Anneal.Settings.Backends
import Anneal.Settings.Document

/-!
# Running a command

A command opens the settings, the backends, the toolchains and the journal of a session, hands its
request to a tool and says what came of it. It leaves an exit code: success, failure, or
cancellation.
-/

namespace Anneal.CommandLine

structure Surroundings (σ : Type) where
  connection : Http.Connection σ
  machine : Program.Machine σ
  env : String → Option String
  sessionId : String
  input : Text.Bytes

def versionText : String := "rustify 0.1.0\n"

def helpText : String :=
  "Usage: rustify [--config FILE] [--backend NAME] [--model NAME] COMMAND\n\n" ++
  "Commands:\n" ++
  "  convert      [--instruction TEXT]\n" ++
  "  repair       [--instruction TEXT] [--input FILE]\n" ++
  "  pipeline     [--instruction TEXT] [--input FILE]\n" ++
  "  explain      QUESTION\n" ++
  "  route        INSTRUCTION [--input FILE]\n" ++
  "  session      [--input FILE]\n" ++
  "  init-config  [--force]\n"

structure Outcome where
  code : Nat
  stdout : String
  stderr : String
  deriving DecidableEq, Repr

namespace Outcome

def succeeded (text : String) : Outcome := ⟨0, text, ""⟩

def failed (message : String) : Outcome := ⟨1, "", message ++ "\n"⟩

def refused : Outcome := ⟨2, "", helpText⟩

def cancelledCode : Nat := 130

/-- An outcome after something that was printed before. -/
def after (text : String) (o : Outcome) : Outcome := { o with stdout := text ++ o.stdout }

end Outcome

structure Assistant (σ : Type) where
  settings : Settings
  client : Client σ
  machine : Program.Machine σ
  journal : Journal

variable {σ : Type}

namespace Assistant

/-- Loads the settings and opens the journal. -/
def start (s : Surroundings σ) (options : Options) (w : World σ) :
    Except String (Assistant σ) × World σ :=
  match w.onDisk fun d => Settings.load d (options.config.getD Settings.defaultPath) with
  | (.error e, w) => (.error e.message, w)
  | (.ok settings, w) =>
    let settings := settings.choosing options.backend options.model
    let registry := settings.registry s.env
    match Journal.create settings.outputDir s.sessionId w with
    | (.error e, w) => (.error e.message, w)
    | (.ok journal, w) => (.ok ⟨settings, registry.client s.connection, s.machine, journal⟩, w)

def agent (a : Assistant σ) (systemPrompt : String) : Agent :=
  .new a.settings.client.backend systemPrompt a.settings.repair.maxHistory

def target (a : Assistant σ) : Convert.Target :=
  ⟨a.settings.referencePath, a.settings.candidatePath, a.settings.manifestPath⟩

def toolchain (a : Assistant σ) (l : Language) : Toolchain σ :=
  Program.toolchain a.machine l (a.settings.compilers.ofLanguage l)

def setup (a : Assistant σ) : Repair.Setup σ :=
  { client := a.client
    candidate := a.toolchain .rust
    reference := a.toolchain .cpp
    settings :=
      { maxRetry := a.settings.repair.maxRetry, comparison := a.settings.repair.comparison }
    journal := some a.journal }

def toolbox (a : Assistant σ) (input : Option String) : Toolbox σ :=
  { routerClient := a.client
    converterClient := a.client
    explainerClient := a.client
    repair := a.setup
    target := a.target
    stdinPath := input }

def workshop (a : Assistant σ) (w : World σ) : Workshop σ :=
  { router := a.agent Prompts.routerSystem
    converter := a.agent Prompts.converterSystem
    repair := a.agent Prompts.repairSystem
    explainer := a.agent Prompts.explainerSystem
    world := w }

end Assistant

def exitCode (r : Report) : Nat :=
  match r.stop with
  | .converged => 0
  | .cancelled => Outcome.cancelledCode
  | _ => 1

def reportLine (r : Report) : String :=
  let status := if r.success then "converged" else "failed"
  s!"{status} after {r.verifications} verification(s), {r.attemptsUsed} repair attempt(s): " ++
    r.detail ++ "\n"

def ofReport (r : Report) : Outcome :=
  let diagnostic := match r.success, r.lastDiagnostic with
    | false, some d => Text.trimEnd d ++ "\n"
    | _, _ => ""
  ⟨exitCode r, reportLine r, diagnostic⟩

def convertedEvent (c : Convert.Target) : String := s!"converted {c.referencePath} -> {c.codePath}"

def runConvert (a : Assistant σ) (instruction : Option String) (w : World σ) :
    Except String String × World σ :=
  let r := Convert.convert a.client a.target instruction (a.agent Prompts.converterSystem) w
  match r.1, r.2.2 with
  | .error e, w => (.error s!"convert reference program: {e.message}", w)
  | .ok converted, w =>
    match a.journal.event (convertedEvent a.target) w with
    | (.error e, w) => (.error e.message, w)
    | (.ok (), w) =>
      (.ok (converted.codePath ++ "\n" ++
        (match converted.manifestPath with
          | some path => path ++ "\n"
          | none => "")), w)

def runRepair (a : Assistant σ) (instruction input : Option String) (w : World σ) :
    Outcome × World σ :=
  let q : Repair.Request := ⟨a.target.codePath, a.target.referencePath, instruction, input⟩
  let (r, p) := Repair.diagnoseAndFix a.setup q (a.agent Prompts.repairSystem) w
  match r with
  | .error e => (.failed e.message, p.world)
  | .ok report => (ofReport report, p.world)

def ofRouted : Routed → Outcome
  | .converted c => .succeeded (c.codePath ++ "\n")
  | .repaired r => ofReport r
  | .explained answer => .succeeded (Text.trimEnd answer ++ "\n")

def ofTool : Except ToolError Routed → Outcome
  | .error e => .failed e.message
  | .ok r => ofRouted r

def runExplain (a : Assistant σ) (question : String) (w : World σ) : Outcome × World σ :=
  let (r, _, w) := Explain.explain a.client a.target.referencePath a.target.codePath question
    (a.agent Prompts.explainerSystem) w
  match r with
  | .error e => (.failed e.message, w)
  | .ok answer => (.succeeded (Text.trimEnd answer ++ "\n"), w)

def runSession (a : Assistant σ) (input : Option String) (typed : Text.Bytes) (w : World σ) :
    Outcome × World σ :=
  let (printed, ending, shop) := Session.start (a.toolbox input) typed (a.workshop w)
  let outcome : Outcome := match ending with
    | .unreadable => .failed Session.unreadableFailure.message
    | .done => ⟨if shop.world.cancelled then Outcome.cancelledCode else 0, "", ""⟩
  (outcome.after printed, shop.world)

def carryOut (a : Assistant σ) (typed : Text.Bytes) (w : World σ) : Request → Outcome × World σ
  | .convert instruction => match runConvert a instruction w with
    | (.error e, w) => (.failed e, w)
    | (.ok text, w) => (.succeeded text, w)
  | .repair instruction input => runRepair a instruction input w
  | .pipeline instruction input => match runConvert a instruction w with
    | (.error e, w) => (.failed e, w)
    | (.ok text, w) =>
      let r := runRepair a instruction input w
      (r.1.after text, r.2)
  | .explain question => runExplain a question w
  | .route instruction input =>
    let r := (a.toolbox input).route instruction (a.workshop w)
    (ofTool r.1, r.2.world)
  | .session input => runSession a input typed w
  | .initConfig _ => (.succeeded "", w)

def initConfig (path : String) (force : Bool) (w : World σ) : Outcome × World σ :=
  if w.disk.exists? path && !force then
    (.failed s!"{path} already exists (use --force to overwrite)", w)
  else match w.onDisk fun d => Settings.write d path .default with
    | (.error e, w) => (.failed e.message, w)
    | (.ok (), w) => (.succeeded s!"wrote {path}\n", w)

def runRequest (s : Surroundings σ) (options : Options) (request : Request) (w : World σ) :
    Outcome × World σ :=
  match request with
  | .initConfig force => initConfig (options.config.getD Settings.defaultPath) force w
  | request => match Assistant.start s options w with
    | (.error e, w) => (.failed e, w)
    | (.ok a, w) => carryOut a s.input w request

def keyVariables (words : List String) (d : Disk) : List String :=
  match read words with
  | .run options _ => match (Settings.load d (options.config.getD Settings.defaultPath)).1 with
    | .ok settings => settings.keyVariables
    | .error _ => []
  | _ => []

def readsInput (words : List String) : Bool :=
  match read words with
  | .run _ (.session _) => true
  | _ => false

/-- Runs the command that the words of a command line make. -/
def run (s : Surroundings σ) (words : List String) (w : World σ) : Outcome × World σ :=
  match read words with
  | .version => (.succeeded versionText, w)
  | .help => (.succeeded helpText, w)
  | .refused => (.refused, w)
  | .run options request => runRequest s options request w

end Anneal.CommandLine
