import Anneal.Conversation.Agent
import Anneal.Proofs.Disk.Operations
import Anneal.Proofs.Program.Steps
import Anneal.Proofs.Repair.Check

/-! Surroundings in which the tools can be rehearsed to the end: a model that gives one reply, and a
machine whose compilers copy a source behind a mark and whose programs print what is behind it. -/

namespace Anneal

open Disk
open Anneal.Text (Bytes)

def replying {σ : Type} (reply : String) : Client σ :=
  ⟨fun _ => .ok .messages, fun _ _ _ w => (.ok reply, w)⟩

theorem chat_replying {σ : Type} (a : Agent) (reply text : String) (options : CompletionOptions)
    (w : World σ) : (a.chat (replying reply) text options w).2.2 = w := rfl

namespace Program

def contentOf (d : Disk) (path : String) : Bytes := (d.readBytesNow path).toOption.getD []

def mark : UInt8 := 0x7F

def copying : Machine Bytes where
  spawn c _ w := match c.args.reverse with
    | output :: "-o" :: source :: _ =>
      let w := (w.onDisk fun d => d.writeBytes output (mark :: contentOf d source)).2
      (.ok 0, { w with outside := [] })
    | _ => (.ok 0, { w with outside := (contentOf w.disk c.program).drop 1 })
  feed _ _ w := w
  waitTimeout _ _ w := (.ok (some (.exited 0)), w)
  kill _ w := (.ok (), w)
  wait _ w := (.ok (.exited 0), w)
  written _ w := (.done (.ok ()), w)
  reads _ channel w :=
    (.ofStream (match channel with | .stdout => w.outside | .stderr => []), w)
  settles := ⟨by simp, by simp [Reads.ofStream]⟩

theorem copying_oversee (order : Order) (pid : Nat) (w : World Bytes) :
    ∃ output, (oversee copying.toHost order pid).start w = some (.ok output, w) := by
  obtain ⟨command, _ | input, ms, limit⟩ := order
  · exact ⟨_, rfl⟩
  · exact ⟨_, rfl⟩

theorem copying_spawn (c : Command) (piped : Bool) (w : World Bytes) :
    (copying.spawn c piped w).1 = .ok 0 := by
  dsimp only [copying]
  split <;> rfl

def Command.outputs (c : Command) (home : Place) : List Place :=
  match c.args.reverse with
  | output :: "-o" :: _ => [placeOf home output]
  | _ => []

theorem copying_spawn_changes (c : Command) (piped : Bool) (w : World Bytes) :
    Changes (c.outputs w.disk.home) w.disk (copying.spawn c piped w).2.disk := by
  dsimp only [copying]
  split
  next output source rest hargs =>
    rw [Command.outputs, hargs]
    exact writeBytes_changes rfl
  next => exact .refl w.disk

theorem copying_run (order : Order) (w : World Bytes) :
    ∃ r w', (run copying.toHost order).start w = some (r, w') ∧
      Changes (order.command.outputs w.disk.home) w.disk w'.disk := by
  unfold run spawn
  cases order.command.hasNul with
  | true => exact ⟨_, w, start_bind_error (attempt_error rfl), .refl w.disk⟩
  | false =>
    have hchanges := copying_spawn_changes order.command order.input.isSome w
    have hpid := copying_spawn order.command order.input.isSome w
    cases hs : copying.spawn order.command order.input.isSome w with
    | mk r w' =>
      rw [hs] at hchanges hpid
      obtain rfl := hpid
      obtain ⟨output, hoversee⟩ := copying_oversee order 0 w'
      refine ⟨.ok output, w', ?_, hchanges⟩
      rw [start_bind_ok (attempt_ok (by rw [if_neg Bool.false_ne_true, hs]))]
      exact hoversee

variable (l : Language) (s : CompilerSettings)

theorem copying_compile_changes (source : String) (w : World Bytes) :
    Changes [placeOf w.disk.home (executableFor source)] w.disk
      ((toolchain copying l s).compile source w).2.disk := by
  obtain ⟨r, w', hrun, hchanges⟩ := copying_run
    ⟨compileCommand s source, none, s.compileSeconds * 1000, s.outputLimit⟩ w
  have hcompile : compile copying.toHost s source w = some (.ok (compileResult s r), w') := by
    rw [compile, hrun]
    rfl
  have houtputs : (compileCommand s source).outputs w.disk.home =
      [placeOf w.disk.home (executableFor source)] := by
    simp [Command.outputs, compileCommand]
  dsimp only [toolchain]
  rw [Option.get_of_eq_some _ hcompile, ← houtputs]
  exact hchanges

theorem inputOf_changes {stdin : Option String} {r : Except String (Option Bytes)} {σ : Type}
    {w w' : World σ} (h : inputOf stdin w = (r, w')) : Changes [] w.disk w'.disk := by
  unfold inputOf at h
  split at h
  · cases h
    exact .refl w.disk
  · split at h
    all_goals
      next hread =>
        cases h
        exact readBytes_changes (congrArg (fun p => (p.1, p.2.disk)) hread)

theorem copying_run_changes (executable : String) (stdin : Option String) (w : World Bytes) :
    Changes [] w.disk ((toolchain copying l s).run executable stdin w).2.disk := by
  obtain ⟨⟨r, w'⟩, hrun⟩ :=
    Option.isSome_iff_exists.1 (runStep_isSome copying s executable stdin w)
  dsimp only [toolchain]
  rw [Option.get_of_eq_some _ hrun]
  unfold runStep at hrun
  split at hrun
  next hi =>
    cases hrun
    exact inputOf_changes hi
  next input w₁ hi =>
    obtain ⟨r', w'', hstart, hchanges⟩ := copying_run
      ⟨⟨executable, []⟩, input, s.runSeconds * 1000, s.outputLimit⟩ w₁
    dsimp only at hrun
    rw [hstart] at hrun
    cases hrun
    exact (inputOf_changes hi).trans hchanges

end Program

namespace Repair

def copyingSettings (limit : Nat) : CompilerSettings := ⟨"compiler", [], 120, 10, limit⟩

def copyingSetup (limit : Nat) (reply : String) (journal : Option Journal) : Setup Bytes where
  client := replying reply
  candidate := Program.toolchain Program.copying .rust (copyingSettings limit)
  reference := Program.toolchain Program.copying .cpp (copyingSettings limit)
  settings := {}
  journal := journal

def copyingWorld (candidate reference : Bytes) : World Bytes where
  disk := ((Disk.empty.set ["tmp", "work", "main.rs"] (.file candidate false)).set
    ["tmp", "work", "main.cpp"] (.file reference false)).set ["tmp", "work", "log"] .directory
  cancelled := false
  clock := 0
  outside := []

structure Copies (s : Setup Bytes) : Prop where
  toolchain : ∀ side, ∃ l c, s.toolchain side = Program.toolchain Program.copying l c
  client : ∃ reply, s.client = replying reply

def Call.outputs (home : Place) : Call → List Place
  | .compile _ source _ => [placeOf home (executableFor source)]
  | _ => []

theorem Copies.changes {s : Setup Bytes} {q : Request} {e : Entry Bytes} (hs : Copies s)
    (he : e.Genuine s q) (hw : e.call.isWrite = false) :
    Changes (e.call.outputs e.before.disk.home) e.before.disk e.after.disk := by
  obtain ⟨call, before, after⟩ := e
  cases call with
  | compile side source r =>
    obtain ⟨l, c, ht⟩ := hs.toolchain side
    have hchanges := Program.copying_compile_changes l c source before
    rw [← ht, he.2] at hchanges
    exact hchanges
  | run side executable stdin r =>
    obtain ⟨l, c, ht⟩ := hs.toolchain side
    have hchanges := Program.copying_run_changes l c executable stdin before
    rw [← ht, he.2.2] at hchanges
    exact hchanges
  | chat text r =>
    obtain ⟨reply, hc⟩ := hs.client
    obtain ⟨a, a', hchat⟩ := he
    rw [hc] at hchat
    obtain rfl : before = after :=
      (chat_replying a reply text _ before).symm.trans (congrArg (fun r => r.2.2) hchat)
    exact .refl before.disk
  | write => cases hw

theorem copyingSetup_copies (limit : Nat) (reply : String) (journal : Option Journal) :
    Copies (copyingSetup limit reply journal) where
  toolchain side := by cases side <;> exact ⟨_, _, rfl⟩
  client := ⟨reply, rfl⟩

end Repair

end Anneal
