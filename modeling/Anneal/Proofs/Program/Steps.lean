import Anneal.Program.Compiler
import Anneal.Proofs.Program.Children
import Anneal.Proofs.Text.Blank

/-! What a step of a compiling toolchain makes of its child process. However the child ends, and also
where it was never started or was lost sight of, the step has a result that tells of it. Only a pipe
that is held for ever keeps the step from coming back. -/

namespace Anneal.Program

open Anneal.Text

variable {σ : Type} {host : Host σ}

/-- What is shown of an output: its first bytes as text and, if bytes were dropped, their number. -/
def shown (name : String) (limit : Nat) (output : Bytes) : String :=
  (Capture.cut limit output).text name

/-- What was seen of the child process of a step, if it was seen to its end, and the world that the
step leaves. -/
inductive Child (host : Host σ) (c : Command) (stdin : Option String) (ms : Nat)
    (w : World σ) : Option Seen → World σ → Prop
  | unread {path : String} {e : OsError} {w' : World σ} (hs : stdin = some path)
      (hr : (w.onDisk fun d => d.readBytes path) = (.error e, w')) :
      Child host c stdin ms w none w'
  | unspoken {input : Option Bytes} {w' : World σ} (hi : inputOf stdin w = (.ok input, w'))
      (hn : c.hasNul = true) : Child host c stdin ms w none w'
  | unstarted {input : Option Bytes} {e : OsError} {w₁ w' : World σ}
      (hi : inputOf stdin w = (.ok input, w₁)) (hn : c.hasNul = false)
      (hs : host.spawn c input.isSome w₁ = (.error e, w')) : Child host c stdin ms w none w'
  | lost {input : Option Bytes} {pid : Nat} {w₁ w₂ w' : World σ}
      (hi : inputOf stdin w = (.ok input, w₁)) (hn : c.hasNul = false)
      (hs : host.spawn c input.isSome w₁ = (.ok pid, w₂)) (h : Lost host pid input ms w₂ w') :
      Child host c stdin ms w none w'
  | seen {input : Option Bytes} {pid : Nat} {seen : Seen} {w₁ w₂ w' : World σ}
      (hi : inputOf stdin w = (.ok input, w₁)) (hn : c.hasNul = false)
      (hs : host.spawn c input.isSome w₁ = (.ok pid, w₂))
      (h : Overseen host pid input ms w₂ seen w') : Child host c stdin ms w (some seen) w'

def Hangs (host : Host σ) (c : Command) (stdin : Option String) (ms : Nat) (w : World σ) : Prop :=
  ∃ input w₁ pid w₂, inputOf stdin w = (.ok input, w₁) ∧ c.hasNul = false ∧
    host.spawn c input.isSome w₁ = (.ok pid, w₂) ∧ Stuck host pid input ms w₂

/-- A step tells what became of its child process. -/
structure Classified (limit : Nat) (child : Option Seen) (step : StepResult) : Prop where
  ok_iff : step.ok = true ↔ ∃ seen ∈ child, seen.ending = .exited 0 ∧ seen.timedOut = false
  output : step.ok = true → ∃ seen ∈ child, step.text = shown "stdout" limit seen.stdout
  not_blank : step.ok = false → isBlankText step.text = false
  errors : step.ok = false → ∀ seen ∈ child,
    isBlankText (shown "stderr" limit seen.stderr) = false →
      ∃ before after, step.text = before ++ shown "stderr" limit seen.stderr ++ after
  timedOut_iff : step.timedOut = true ↔ ∃ seen ∈ child, seen.timedOut = true

/-- A step comes back with the tale of its child, or it hangs. -/
inductive Tells (host : Host σ) (c : Command) (stdin : Option String) (ms limit : Nat)
    (w : World σ) : Option (Except Failure StepResult × World σ) → Prop
  | step {child : Option Seen} {step : StepResult} {w' : World σ}
      (hc : Child host c stdin ms w child w') (h : Classified limit child step) :
      Tells host c stdin ms limit w (some (.ok step, w'))
  | never (h : Hangs host c stdin ms w) : Tells host c stdin ms limit w none

theorem isBlankText_append_eq_false {s : String} (h : isBlankText s = false) (t : String) :
    isBlankText (s ++ t) = false := by
  rw [isBlankText, String.toList_append, List.all_append, ← isBlankText, h, Bool.false_and]

theorem diagnostic_not_blank (o : Output) (seconds : Nat) :
    isBlankText (diagnostic o seconds) = false := by
  unfold diagnostic
  dsimp only
  split
  · exact isBlankText_append_eq_false (isBlankText_append_eq_false
      (isBlankText_append_eq_false (by decide) _) _) _
  · split
    · cases o.ending with
      | exited code => exact isBlankText_append_eq_false (by decide) _
      | signalled signal => exact (by decide : isBlankText "process terminated by signal" = false)
    next herrors => exact Bool.eq_false_iff.2 herrors

theorem diagnostic_shows_errors {o : Output} (h : isBlankText o.stderrText = false)
    (seconds : Nat) : ∃ before, diagnostic o seconds = before ++ o.stderrText := by
  unfold diagnostic
  dsimp only
  split
  · exact ⟨_, rfl⟩
  · rw [if_neg (by simp [h])]
    exact ⟨"", (String.empty_append).symm⟩

theorem failure_classified {limit : Nat} {text : String} (h : isBlankText text = false) :
    Classified limit none (.failure text) where
  ok_iff := by simp [StepResult.failure]
  output := by simp [StepResult.failure]
  not_blank _ := h
  errors _ := by simp
  timedOut_iff := by simp [StepResult.failure]

theorem success_iff {limit : Nat} {seen : Seen} :
    (seen.output limit).success = true ↔ seen.ending = .exited 0 ∧ seen.timedOut = false := by
  rw [Output.success, Bool.and_eq_true, Bool.not_eq_true', beq_iff_eq, and_comm]
  rfl

theorem stepOf_classified (limit : Nat) (seen : Seen) (seconds : Nat) :
    Classified limit (some seen) (stepOf (seen.output limit) seconds) := by
  unfold stepOf
  split
  next h =>
    have hended := success_iff.1 h
    exact {
      ok_iff := ⟨fun _ => ⟨seen, rfl, hended⟩, fun _ => rfl⟩
      output := fun _ => ⟨seen, rfl, rfl⟩
      not_blank := by simp [StepResult.success]
      errors := by simp [StepResult.success]
      timedOut_iff := by simp [StepResult.success, hended.2] }
  next h =>
    rw [success_iff] at h
    exact {
      ok_iff := by simpa using h
      output := by simp
      not_blank := fun _ => diagnostic_not_blank _ _
      errors := by
        rintro - _ ⟨⟩ herrors
        obtain ⟨before, hb⟩ :=
          diagnostic_shows_errors (o := seen.output limit) herrors seconds
        exact ⟨before, "", by rw [String.append_empty]; exact hb⟩
      timedOut_iff := by simp [Seen.output] }

/-- A step whose program is run by `host`, where a run that failed becomes a step that tells so. -/
theorem run_tells (host : Host σ) (order : Order) (seconds : Nat)
    (result : Except Failure Output → StepResult) (hok : ∀ o, result (.ok o) = stepOf o seconds)
    (herror : ∀ f, ∃ text, result (.error f) = .failure text ∧ isBlankText text = false)
    {stdin : Option String} {w w₁ : World σ} (hi : inputOf stdin w = (.ok order.input, w₁)) :
    Tells host order.command stdin order.timeoutMs order.limit w
      (((run host order).start w₁).map fun (r, w) => (.ok (result r), w)) := by
  have hfails (f : Failure) : Classified order.limit none (result (.error f)) := by
    obtain ⟨text, hr, ht⟩ := herror f
    rw [hr]
    exact failure_classified ht
  have hruns := run_runs host order w₁
  generalize (run host order).start w₁ = r at hruns ⊢
  cases hruns with
  | unspoken hn => exact .step (.unspoken hi hn) (hfails _)
  | unstarted hn hs => exact .step (.unstarted hi hn hs) (hfails _)
  | started hn hs h =>
    cases h with
    | stuck h => exact .never ⟨_, _, _, _, hi, hn, hs, h⟩
    | lost h => exact .step (.lost hi hn hs h) (hfails _)
    | seen h =>
      refine .step (.seen hi hn hs h) ?_
      rw [hok]
      exact stepOf_classified _ _ _

theorem inputOf_error {stdin : Option String} {message : String} {w w' : World σ}
    (h : inputOf stdin w = (.error message, w')) :
    ∃ path e, stdin = some path ∧ (w.onDisk fun d => d.readBytes path) = (.error e, w') ∧
      message = "Input file not found: " ++ path := by
  unfold inputOf at h
  split at h
  · cases h
  next path =>
    split at h
    · cases h
    next e _ hr =>
      cases h
      exact ⟨path, e, rfl, hr, rfl⟩

theorem runStep_tells (host : Host σ) (s : CompilerSettings) (executable : String)
    (stdin : Option String) (w : World σ) :
    Tells host ⟨executable, []⟩ stdin (s.runSeconds * 1000) s.outputLimit w
      (runStep host s executable stdin w) := by
  unfold runStep
  split
  next message w₁ hi =>
    obtain ⟨path, e, hs, hr, rfl⟩ := inputOf_error hi
    refine .step (.unread hs hr) (failure_classified ?_)
    exact isBlankText_append_eq_false (by decide) path
  next input w₁ hi =>
    refine run_tells host ⟨⟨executable, []⟩, input, s.runSeconds * 1000, s.outputLimit⟩
      s.runSeconds (runResult s executable) (fun _ => rfl) (fun f => ⟨_, rfl, ?_⟩) hi
    exact isBlankText_append_eq_false (isBlankText_append_eq_false
      (isBlankText_append_eq_false (by decide) _) _) _

theorem Tells.exists_step {c : Command} {stdin : Option String} {ms limit : Nat} {w : World σ}
    {r : Option (Except Failure StepResult × World σ)} (h : Tells host c stdin ms limit w r)
    (hr : r.isSome) : ∃ step child w', r.get hr = (.ok step, w') ∧
      Child host c stdin ms w child w' ∧ Classified limit child step := by
  cases h with
  | step hc h => exact ⟨_, _, _, rfl, hc, h⟩
  | never => cases hr

theorem toolchain_run (machine : Machine σ) (l : Language) (s : CompilerSettings)
    (executable : String) (stdin : Option String) (w : World σ) :
    ∃ step child w', (toolchain machine l s).run executable stdin w = (.ok step, w') ∧
      Child machine.toHost ⟨executable, []⟩ stdin (s.runSeconds * 1000) w child w' ∧
      Classified s.outputLimit child step :=
  (runStep_tells machine.toHost s executable stdin w).exists_step
    (runStep_isSome machine s executable stdin w)

end Anneal.Program
