import Anneal.Program.Machine
import Anneal.Settings.Basic
import Anneal.Toolchain

/-!
# Toolchains that run programs

A toolchain that compiles with a configured program and runs what it produced. Whatever happens to
a program becomes the result of a step: on success its output, else its errors or, where it left
none, how it ended.
-/

namespace Anneal.Program

variable {σ : Type}

def diagnostic (o : Output) (seconds : Nat) : String :=
  let errors := o.stderrText
  if o.timedOut then s!"timed out after {seconds}s\n{errors}"
  else if Text.isBlankText errors then
    match o.ending with
    | .exited code => s!"process exited with status {code}"
    | .signalled _ => "process terminated by signal"
  else errors

def stepOf (o : Output) (seconds : Nat) : StepResult :=
  if o.success then .success o.stdoutText
  else ⟨false, diagnostic o seconds, o.timedOut⟩

/-- The command that compiles a source. -/
def compileCommand (s : CompilerSettings) (source : String) : Command :=
  ⟨s.compiler, s.args ++ [source, "-o", executableFor source]⟩

def compileResult (s : CompilerSettings) : Except Failure Output → StepResult
  | .ok o => stepOf o s.compileSeconds
  | .error f => .failure (s!"failed to run compiler " ++ Json.backquoted s.compiler ++
      s!": {f.message}")

/-- Compiles a source, unless the compiler never comes back. -/
def compile (host : Host σ) (s : CompilerSettings) (source : String) (w : World σ) :
    Option (Except Failure StepResult × World σ) :=
  let order : Order := ⟨compileCommand s source, none, s.compileSeconds * 1000, s.outputLimit⟩
  ((Program.run host order).start w).map fun (r, w) => (.ok (compileResult s r), w)

def inputOf (stdin : Option String) (w : World σ) :
    Except String (Option Text.Bytes) × World σ :=
  match stdin with
  | none => (.ok none, w)
  | some path => match w.onDisk fun d => d.readBytes path with
    | (.ok bytes, w) => (.ok (some bytes), w)
    | (.error _, w) => (.error s!"Input file not found: {path}", w)

def runResult (s : CompilerSettings) (executable : String) : Except Failure Output → StepResult
  | .ok o => stepOf o s.runSeconds
  | .error f => .failure s!"failed to start {executable}: {f.message}"

def runStep (host : Host σ) (s : CompilerSettings) (executable : String) (stdin : Option String)
    (w : World σ) : Option (Except Failure StepResult × World σ) :=
  match inputOf stdin w with
  | (.error message, w) => some (.ok (.failure message), w)
  | (.ok input, w) =>
    let order : Order := ⟨⟨executable, []⟩, input, s.runSeconds * 1000, s.outputLimit⟩
    ((Program.run host order).start w).map fun (r, w) => (.ok (runResult s executable r), w)

theorem compile_isSome (machine : Machine σ) (s : CompilerSettings) (source : String)
    (w : World σ) : (compile machine.toHost s source w).isSome := by
  rw [compile, Option.isSome_map]
  exact run_returns machine _ w

theorem runStep_isSome (machine : Machine σ) (s : CompilerSettings) (executable : String)
    (stdin : Option String) (w : World σ) :
    (runStep machine.toHost s executable stdin w).isSome := by
  unfold runStep
  split
  · rfl
  · rw [Option.isSome_map]
    exact run_returns machine _ _

/-- The toolchain of a language with its settings. -/
def toolchain (machine : Machine σ) (l : Language) (s : CompilerSettings) : Toolchain σ where
  language := l
  compile source w := (compile machine.toHost s source w).get (compile_isSome machine s source w)
  run executable stdin w := (runStep machine.toHost s executable stdin w).get
    (runStep_isSome machine s executable stdin w)

end Anneal.Program
