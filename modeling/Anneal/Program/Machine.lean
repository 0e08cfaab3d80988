import Anneal.Program.Run

/-!
# Machines

A machine is a host on which every call comes back: what holds the pipes of a program closes them in
the end. On a machine a program is always seen to its end, whatever fails.
-/

namespace Anneal.Program

variable {σ α β : Type}

structure Host.Settles (host : Host σ) : Prop where
  written : ∀ pid w, (host.written pid w).1 ≠ .never
  reads : ∀ pid channel w, (host.reads pid channel w).1.close ≠ .held

structure Machine (σ : Type) extends Host σ where
  settles : toHost.Settles

def Task.Returns (x : Task σ α) : Prop := ∀ w, (x.start w).isSome

theorem start_bind (x : Task σ α) (f : α → Task σ β) (w : World σ) :
    (x >>= f).start w = match x.start w with
      | none => none
      | some (.error e, w) => some (.error e, w)
      | some (.ok a, w) => (f a).start w := by
  simp only [Task.start, ExceptT.run_bind, StateT.run_bind]
  cases h : x.run.run w with
  | none => rfl
  | some r =>
    obtain ⟨r, w⟩ := r
    cases r <;> rfl

theorem start_bind_ok {x : Task σ α} {f : α → Task σ β} {a : α} {w w' : World σ}
    (h : x.start w = some (.ok a, w')) : (x >>= f).start w = (f a).start w' := by
  rw [start_bind, h]

theorem start_bind_error {x : Task σ α} {f : α → Task σ β} {e : Failure} {w w' : World σ}
    (h : x.start w = some (.error e, w')) : (x >>= f).start w = some (.error e, w') := by
  rw [start_bind, h]

theorem start_bind_none {x : Task σ α} {f : α → Task σ β} {w : World σ}
    (h : x.start w = none) : (x >>= f).start w = none := by
  rw [start_bind, h]

theorem Task.Returns.bind {x : Task σ α} {f : α → Task σ β} (hx : x.Returns)
    (hf : ∀ a, (f a).Returns) : (x >>= f).Returns := by
  intro w
  obtain ⟨⟨r, m⟩, h⟩ := Option.isSome_iff_exists.1 (hx w)
  cases r with
  | error e =>
    rw [start_bind_error h]
    rfl
  | ok a =>
    rw [start_bind_ok h]
    exact hf a m

theorem attempt_returns (context : String) (call : World σ → Except OsError α × World σ) :
    (attempt context call).Returns := fun _ => rfl

theorem join_returns {call : World σ → Joined α × World σ} (panicked : Failure)
    (finish : α → Except Failure β) (h : ∀ w, (call w).1 ≠ .never) :
    (join call panicked finish).Returns := by
  intro w
  have hw := h w
  unfold join Task.start
  revert hw
  simp only [ExceptT.run_mk, StateT.run]
  rcases call w with ⟨r, m⟩
  cases r with
  | done a => exact fun _ => rfl
  | panicked => exact fun _ => rfl
  | never => exact fun hw => absurd rfl hw

theorem awaitEnd_returns (host : Host σ) (pid ms : Nat) : (awaitEnd host pid ms).Returns := by
  refine (attempt_returns _ _).bind fun ending? => ?_
  cases ending? with
  | some ending => exact fun _ => rfl
  | none =>
    refine (attempt_returns _ _).bind fun _ => ?_
    exact (attempt_returns _ _).bind fun _ _ => rfl

theorem joinOutput_returns (machine : Machine σ) (limit pid : Nat) (channel : Channel) :
    (joinOutput machine.toHost limit pid channel).Returns := by
  refine join_returns _ _ fun w => ?_
  have hclose := machine.settles.reads pid channel w
  unfold drain
  split <;> simp_all

theorem run_returns (machine : Machine σ) (order : Order) :
    (run machine.toHost order).Returns := by
  obtain ⟨command, input, ms, limit⟩ := order
  refine (attempt_returns _ _).bind fun pid => ?_
  have houtputs (ended : Ending × Bool) : (do
      let stdout ← joinOutput machine.toHost limit pid .stdout
      let stderr ← joinOutput machine.toHost limit pid .stderr
      return (⟨ended.1, ended.2, stdout, stderr⟩ : Output)).Returns := by
    refine (joinOutput_returns machine _ _ _).bind fun _ => ?_
    exact (joinOutput_returns machine _ _ _).bind fun _ _ => rfl
  cases input with
  | none =>
    refine Task.Returns.bind (fun _ => rfl) fun _ => ?_
    refine (awaitEnd_returns _ _ _).bind fun ended => ?_
    exact Task.Returns.bind (fun _ => rfl) fun _ => houtputs ended
  | some bytes =>
    refine Task.Returns.bind (fun _ => rfl) fun _ => ?_
    refine (awaitEnd_returns _ _ _).bind fun ended => ?_
    exact (join_returns _ _ (machine.settles.written pid)).bind fun _ => houtputs ended

end Anneal.Program
