import Anneal.Repair.Verify

/-!
# The repair loop

Each pass verifies the candidate; a failure becomes a prompt, and the code in the reply replaces
the candidate. The loop ends when a pass stops it, or when the last fix that is allowed has been
written, which is not verified any more. The number of fixes left decreases with every pass.

Everything that ends a repair is a stop with a reason. Only a toolchain that cannot be asked, a
source that cannot be read, a candidate that cannot be written and a journal that cannot be kept
are failures.
-/

namespace Anneal.Repair

variable {σ : Type}

def notedLength : Nat := 500

def withJournal {α : Type} (s : Setup σ)
    (op : Journal → World σ → Except Failure α × World σ) (p : Progress σ) :
    Except Failure Unit × Progress σ :=
  match s.journal with
  | none => (.ok (), p)
  | some j =>
    let r := op j p.world
    (r.1.map fun _ => (), { p with world := r.2 })

def log (s : Setup σ) (message : String) (p : Progress σ) :
    Except Failure Unit × Progress σ :=
  withJournal s (fun j => j.event message) p

def readSource (what path : String) (p : Progress σ) :
    Except Failure Prompts.Source × Progress σ :=
  match p.world.onDisk fun d => d.readText path with
  | (.ok text, w) => (.ok ⟨path, text⟩, { p with world := w })
  | (.error e, w) => (.error (.ofOs s!"read {what} {path}" e), { p with world := w })

def shownReference (q : Request) (c : FailureClass) (p : Progress σ) :
    Except Failure (Option Prompts.Source) × Progress σ :=
  match c with
  | .outputMismatch =>
    match readSource "reference" q.referencePath p with
    | (.ok source, p) => (.ok (some source), p)
    | (.error e, p) => (.error e, p)
  | _ => (.ok none, p)

def prompt (q : Request) (c : FailureClass) (outcome : Outcome) (p : Progress σ) :
    Except Failure String × Progress σ :=
  match readSource "candidate" q.candidatePath p with
  | (.error e, p) => (.error e, p)
  | (.ok candidate, p) =>
    match shownReference q c p with
    | (.error e, p) => (.error e, p)
    | (.ok reference, p) =>
      (.ok (Prompts.repair ⟨c, candidate, outcome.diagnosticText, reference, q.instruction⟩), p)

def ask (s : Setup σ) (text : String) (p : Progress σ) :
    Except ClientError String × Progress σ :=
  let r := p.agent.chat s.client text s.settings.options p.world
  (r.1, { p.enter (.chat text r.1) r.2.2 with agent := r.2.1 })

def replace (q : Request) (code : String) (p : Progress σ) :
    Except Failure Unit × Progress σ :=
  let text := Artifact.sourceText code
  match p.world.onDisk fun d => Artifact.writeAtomic d q.candidatePath text with
  | (.ok (), w) => (.ok (), p.enter (.write text) w)
  | (.error e, w) => (.error (.ofOs s!"write candidate {q.candidatePath}" e), { p with world := w })

def attemptNote (number : Nat) (code : String) : String :=
  s!"Code produced by repair attempt {number}:\n" ++ Text.preview code notedLength

inductive Pass where
  | stopped (stop : Stop)
  | repaired

def cancelledStop (p : Progress σ) : Stop :=
  ⟨.cancelled, s!"cancelled after {p.attempts.length} attempts"⟩

def stopOfError (e : ClientError) : Stop :=
  ⟨if e.isTransient then .transport else .backend, e.message⟩

def apply (s : Setup σ) (q : Request) (c : FailureClass) (outcome : Outcome)
    (startedAt : World σ) (text code : String) (p : Progress σ) :
    Except Failure Pass × Progress σ :=
  let number := p.attempts.length + 1
  match replace q code p with
  | (.error e, p) => (.error e, p)
  | (.ok (), p) =>
    let p := { p with agent := p.agent.annotate (attemptNote number code) }
    let attempt : Attempt :=
      ⟨number, startedAt.now, p.world.clock - startedAt.clock, c, outcome, text, code⟩
    match withJournal s (fun j => j.writeAttempt attempt) p with
    | (.error e, p) => (.error e, p)
    | (.ok (), p) => (.ok .repaired, { p with attempts := p.attempts ++ [attempt] })

def fix (s : Setup σ) (q : Request) (c : FailureClass) (outcome : Outcome)
    (startedAt : World σ) (p : Progress σ) : Except Failure Pass × Progress σ :=
  match prompt q c outcome p with
  | (.error e, p) => (.error e, p)
  | (.ok text, p) =>
    match ask s text p with
    | (.error e, p) => (.ok (.stopped (stopOfError e)), p)
    | (.ok reply, p) =>
      match Reply.extract reply .repair with
      | .error e => (.ok (.stopped ⟨.responseParse, e.message⟩), p)
      | .ok extracted => apply s q c outcome startedAt text extracted.code p

def settle (s : Setup σ) (q : Request) (startedAt : World σ) (verdict : Verdict)
    (p : Progress σ) : Except Failure Pass × Progress σ :=
  match verdict with
  | .converged output =>
    match log s s!"verification {p.verifications}: converged" p with
    | (.error e, p) => (.error e, p)
    | (.ok (), p) => (.ok (.stopped ⟨.converged, output⟩), p)
  | .referenceBroken diagnostic =>
    match log s s!"verification {p.verifications}: {diagnostic}" p with
    | (.error e, p) => (.error e, p)
    | (.ok (), p) =>
      (.ok (.stopped ⟨.referenceBroken, diagnostic⟩), { p with lastDiagnostic := some diagnostic })
  | .failed c outcome =>
    let p := { p with lastDiagnostic := some outcome.diagnosticText }
    match log s s!"verification {p.verifications}: {c.tag}\n{outcome.diagnosticText}" p with
    | (.error e, p) => (.error e, p)
    | (.ok (), p) =>
      if p.world.cancelled then (.ok (.stopped (cancelledStop p)), p)
      else fix s q c outcome startedAt p

def pass (s : Setup σ) (q : Request) (p : Progress σ) : Except Failure Pass × Progress σ :=
  if p.world.cancelled then (.ok (.stopped (cancelledStop p)), p)
  else
    let startedAt := p.world
    match verify s q { p with verifications := p.verifications + 1 } with
    | (.error e, p) => (.error e, p)
    | (.ok verdict, p) => settle s q startedAt verdict p

def exhaustedStop (s : Setup σ) : Stop :=
  ⟨.exhausted, s!"exhausted after {s.settings.maxRetry} attempts"⟩

def loop (s : Setup σ) (q : Request) : Nat → Progress σ → Except Failure Stop × Progress σ
  | 0, p =>
    match pass s q p with
    | (.error e, p) => (.error e, p)
    | (.ok (.stopped stop), p) => (.ok stop, p)
    | (.ok .repaired, p) => (.ok (exhaustedStop s), p)
  | left + 1, p =>
    match pass s q p with
    | (.error e, p) => (.error e, p)
    | (.ok (.stopped stop), p) => (.ok stop, p)
    | (.ok .repaired, p) => loop s q left p

def report (stop : Stop) (startedAt : World σ) (p : Progress σ) : Report :=
  { success := stop.reason = .converged
    stop := stop.reason
    detail := stop.detail
    lastDiagnostic := p.lastDiagnostic
    verifications := p.verifications
    attempts := p.attempts
    durationMs := p.world.clock - startedAt.clock }

def startMessage (s : Setup σ) (q : Request) : String :=
  s!"repair started: candidate={q.candidatePath} reference={q.referencePath} " ++
    s!"max_retry={s.settings.maxRetry}"

def finishMessage (r : Report) : String :=
  s!"repair finished: {r.stop.label} after {r.attempts.length} attempts"

def finish (s : Setup σ) (startedAt : World σ) (stop : Stop) (p : Progress σ) :
    Except Failure Report × Progress σ :=
  let r := report stop startedAt p
  match log s (finishMessage r) p with
  | (.error e, p) => (.error e, p)
  | (.ok (), p) =>
    match withJournal s (fun j => j.writeReport r) p with
    | (.error e, p) => (.error e, p)
    | (.ok (), p) => (.ok r, p)

/-- Verifies the candidate and repairs it until its output is that of the reference. -/
def diagnoseAndFix (s : Setup σ) (q : Request) (agent : Agent) (w : World σ) :
    Except Failure Report × Progress σ :=
  match log s (startMessage s q) (.start agent w) with
  | (.error e, p) => (.error e, p)
  | (.ok (), p) =>
    match loop s q (s.settings.maxRetry - 1) p with
    | (.error e, p) => (.error e, p)
    | (.ok stop, p) => finish s w stop p

end Anneal.Repair
