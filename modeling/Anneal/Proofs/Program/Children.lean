import Anneal.Program.Machine
import Anneal.Proofs.Program.Capture

/-! What becomes of a program that is run, told by what the host answered. The child may come to its
end, with all that it printed; a call for it may fail, and then it is lost sight of; or a thread may
never be joined, because its pipe is held. -/

namespace Anneal.Program

open Anneal.Text

variable {σ : Type} {host : Host σ} {pid ms limit : Nat} {input : Option Bytes}

structure Seen where
  ending : Ending
  timedOut : Bool
  stdout : Bytes
  stderr : Bytes

def Seen.output (limit : Nat) (seen : Seen) : Output :=
  ⟨seen.ending, seen.timedOut, .cut limit seen.stdout, .cut limit seen.stderr⟩

/-- The child came to its end by itself or, when its time was up, was killed. -/
inductive Ends (host : Host σ) (pid ms : Nat) (w : World σ) : Ending → Bool → World σ → Prop
  | itself {ending : Ending} {w' : World σ}
      (h : host.waitTimeout pid ms w = (.ok (some ending), w')) : Ends host pid ms w ending false w'
  | killed {ending : Ending} {w₁ w₂ w' : World σ} (h : host.waitTimeout pid ms w = (.ok none, w₁))
      (hk : host.kill pid w₁ = (.ok (), w₂)) (hw : host.wait pid w₂ = (.ok ending, w')) :
      Ends host pid ms w ending true w'

/-- The child was fed, as far as it read. -/
inductive Fed (host : Host σ) (pid : Nat) : Option Bytes → World σ → World σ → Prop
  | nothing (w : World σ) : Fed host pid none w w
  | written {bytes : Bytes} {r : Except OsError Unit} {w w' : World σ}
      (h : host.written pid w = (.done r, w')) : Fed host pid (some bytes) w w'

/-- The reads of an output came to its end and brought all of it. -/
def Emits (host : Host σ) (pid : Nat) (channel : Channel) (w : World σ) (output : Bytes)
    (w' : World σ) : Prop :=
  ∃ reads, host.reads pid channel w = (reads, w') ∧ reads.close = .closed ∧
    reads.pieces.flatten = output

def feeding (host : Host σ) (pid : Nat) (input : Option Bytes) (w : World σ) : World σ :=
  input.elim w fun bytes => host.feed pid bytes w

inductive Overseen (host : Host σ) (pid : Nat) (input : Option Bytes) (ms : Nat) (w : World σ) :
    Seen → World σ → Prop
  | mk {ending : Ending} {late : Bool} {out err : Bytes} {w₁ w₂ w₃ w' : World σ}
      (hend : Ends host pid ms (feeding host pid input w) ending late w₁)
      (hfed : Fed host pid input w₁ w₂) (hout : Emits host pid .stdout w₂ out w₃)
      (herr : Emits host pid .stderr w₃ err w') :
      Overseen host pid input ms w ⟨ending, late, out, err⟩ w'

inductive Unawaited (host : Host σ) (pid ms : Nat) (w : World σ) : World σ → Prop
  | wait {e : OsError} {w' : World σ} (h : host.waitTimeout pid ms w = (.error e, w')) :
      Unawaited host pid ms w w'
  | kill {e : OsError} {w₁ w' : World σ} (h : host.waitTimeout pid ms w = (.ok none, w₁))
      (hk : host.kill pid w₁ = (.error e, w')) : Unawaited host pid ms w w'
  | reap {e : OsError} {w₁ w₂ w' : World σ} (h : host.waitTimeout pid ms w = (.ok none, w₁))
      (hk : host.kill pid w₁ = (.ok (), w₂)) (hw : host.wait pid w₂ = (.error e, w')) :
      Unawaited host pid ms w w'

def Unread (host : Host σ) (pid : Nat) (channel : Channel) (w w' : World σ) : Prop :=
  ∃ reads, host.reads pid channel w = (reads, w') ∧
    ((∃ e, reads.close = .failed e) ∨ reads.close = .panicked)

/-- A call for a child that had been started failed. -/
inductive Lost (host : Host σ) (pid : Nat) (input : Option Bytes) (ms : Nat) (w : World σ) :
    World σ → Prop
  | unawaited {w' : World σ} (h : Unawaited host pid ms (feeding host pid input w) w') :
      Lost host pid input ms w w'
  | unfed {ending : Ending} {late : Bool} {w₁ w' : World σ}
      (hend : Ends host pid ms (feeding host pid input w) ending late w₁)
      (hi : input.isSome) (h : host.written pid w₁ = (.panicked, w')) :
      Lost host pid input ms w w'
  | stdout {ending : Ending} {late : Bool} {w₁ w₂ w' : World σ}
      (hend : Ends host pid ms (feeding host pid input w) ending late w₁)
      (hfed : Fed host pid input w₁ w₂) (h : Unread host pid .stdout w₂ w') :
      Lost host pid input ms w w'
  | stderr {ending : Ending} {late : Bool} {out : Bytes} {w₁ w₂ w₃ w' : World σ}
      (hend : Ends host pid ms (feeding host pid input w) ending late w₁)
      (hfed : Fed host pid input w₁ w₂) (hout : Emits host pid .stdout w₂ out w₃)
      (h : Unread host pid .stderr w₃ w') : Lost host pid input ms w w'

def Held (host : Host σ) (pid : Nat) (channel : Channel) (w : World σ) : Prop :=
  (host.reads pid channel w).1.close = .held

/-- A pipe of the child is never closed, though the child has ended. -/
inductive Stuck (host : Host σ) (pid : Nat) (input : Option Bytes) (ms : Nat) (w : World σ) : Prop
  | unfed {ending : Ending} {late : Bool} {w₁ : World σ}
      (hend : Ends host pid ms (feeding host pid input w) ending late w₁)
      (hi : input.isSome) (h : (host.written pid w₁).1 = .never)
  | stdout {ending : Ending} {late : Bool} {w₁ w₂ : World σ}
      (hend : Ends host pid ms (feeding host pid input w) ending late w₁)
      (hfed : Fed host pid input w₁ w₂) (h : Held host pid .stdout w₂)
  | stderr {ending : Ending} {late : Bool} {out : Bytes} {w₁ w₂ w₃ : World σ}
      (hend : Ends host pid ms (feeding host pid input w) ending late w₁)
      (hfed : Fed host pid input w₁ w₂) (hout : Emits host pid .stdout w₂ out w₃)
      (h : Held host pid .stderr w₃)

/-- What comes of seeing a child to its end. -/
inductive Sees (host : Host σ) (order : Order) (pid : Nat) (w : World σ) :
    Option (Except Failure Output × World σ) → Prop
  | stuck (h : Stuck host pid order.input order.timeoutMs w) : Sees host order pid w none
  | lost {f : Failure} {w' : World σ} (h : Lost host pid order.input order.timeoutMs w w') :
      Sees host order pid w (some (.error f, w'))
  | seen {seen : Seen} {w' : World σ}
      (h : Overseen host pid order.input order.timeoutMs w seen w') :
      Sees host order pid w (some (.ok (seen.output order.limit), w'))

inductive Runs (host : Host σ) (order : Order) (w : World σ) :
    Option (Except Failure Output × World σ) → Prop
  | unspoken {f : Failure} (hn : order.command.hasNul = true) : Runs host order w (some (.error f, w))
  | unstarted {f : Failure} {e : OsError} {w' : World σ} (hn : order.command.hasNul = false)
      (hs : host.spawn order.command order.input.isSome w = (.error e, w')) :
      Runs host order w (some (.error f, w'))
  | started {pid : Nat} {w₁ : World σ} {r : Option (Except Failure Output × World σ)}
      (hn : order.command.hasNul = false)
      (hs : host.spawn order.command order.input.isSome w = (.ok pid, w₁))
      (h : Sees host order pid w₁ r) : Runs host order w r

theorem attempt_ok {α : Type} {context : String} {call : World σ → Except OsError α × World σ}
    {a : α} {w w' : World σ} (h : call w = (.ok a, w')) :
    (attempt context call).start w = some (.ok a, w') := by
  show some ((call w).1.mapError (Failure.ofOs context), (call w).2) = _
  rw [h]
  rfl

theorem attempt_error {α : Type} {context : String}
    {call : World σ → Except OsError α × World σ} {e : OsError} {w w' : World σ}
    (h : call w = (.error e, w')) :
    (attempt context call).start w = some (.error (.ofOs context e), w') := by
  show some ((call w).1.mapError (Failure.ofOs context), (call w).2) = _
  rw [h]
  rfl

theorem start_join {α β : Type} (call : World σ → Joined α × World σ) (panicked : Failure)
    (finish : α → Except Failure β) (w : World σ) :
    (join call panicked finish).start w = match call w with
      | (.done a, w) => some (finish a, w)
      | (.panicked, w) => some (.error panicked, w)
      | (.never, _) => none := rfl

theorem start_awaitEnd (host : Host σ) (pid ms : Nat) (w : World σ) :
    (∃ ending late w', (awaitEnd host pid ms).start w = some (.ok (ending, late), w') ∧
      Ends host pid ms w ending late w') ∨
    ∃ f w', (awaitEnd host pid ms).start w = some (.error f, w') ∧ Unawaited host pid ms w w' := by
  unfold awaitEnd
  cases h : host.waitTimeout pid ms w with
  | mk r w₁ =>
    rcases r with e | _ | ending
    · exact .inr ⟨_, w₁, start_bind_error (attempt_error h), .wait h⟩
    · rw [start_bind_ok (attempt_ok h)]
      cases hk : host.kill pid w₁ with
      | mk r w₂ =>
        rcases r with e | _
        · exact .inr ⟨_, w₂, start_bind_error (attempt_error hk), .kill h hk⟩
        · dsimp only
          rw [start_bind_ok (attempt_ok hk)]
          cases hw : host.wait pid w₂ with
          | mk r w' =>
            rcases r with e | ending
            · exact .inr ⟨_, w', start_bind_error (attempt_error hw), .reap h hk hw⟩
            · exact .inl ⟨ending, true, w', start_bind_ok (attempt_ok hw), .killed h hk hw⟩
    · exact .inl ⟨ending, false, w₁, start_bind_ok (attempt_ok h), .itself h⟩

theorem start_joinInput (host : Host σ) (pid : Nat) (input : Option Bytes) (w : World σ) :
    ((joinInput host pid input).start w = none ∧ input.isSome ∧
      (host.written pid w).1 = .never) ∨
    (∃ f w', (joinInput host pid input).start w = some (.error f, w') ∧ input.isSome ∧
      host.written pid w = (.panicked, w')) ∨
    ∃ w', (joinInput host pid input).start w = some (.ok (), w') ∧ Fed host pid input w w' := by
  cases input with
  | none => exact .inr (.inr ⟨w, rfl, .nothing w⟩)
  | some bytes =>
    dsimp only [joinInput]
    rw [start_join]
    cases h : host.written pid w with
    | mk r w' =>
      cases r with
      | done r =>
        refine .inr (.inr ⟨w', ?_, .written h⟩)
        -- A broken pipe and any other fault of the writer count for nothing.
        dsimp only
        unfold afterInput
        split <;> rfl
      | panicked => exact .inr (.inl ⟨_, w', rfl, rfl, rfl⟩)
      | never => exact .inl ⟨rfl, rfl, rfl⟩

theorem start_joinOutput (host : Host σ) (limit pid : Nat) (channel : Channel) (w : World σ) :
    ((joinOutput host limit pid channel).start w = none ∧
      Held host pid channel w) ∨
    (∃ f w', (joinOutput host limit pid channel).start w = some (.error f, w') ∧
      Unread host pid channel w w') ∨
    ∃ output w', (joinOutput host limit pid channel).start w =
      some (.ok (.cut limit output), w') ∧ Emits host pid channel w output w' := by
  unfold joinOutput
  rw [start_join]
  cases h : host.reads pid channel w with
  | mk reads w' =>
    dsimp only [drain]
    cases hc : reads.close with
    | closed =>
      refine .inr (.inr ⟨reads.pieces.flatten, w', ?_, reads, h, hc, rfl⟩)
      simp only [Except.mapError, Capture.read_eq]
    | failed e => exact .inr (.inl ⟨_, w', rfl, reads, h, .inl ⟨e, hc⟩⟩)
    | panicked => exact .inr (.inl ⟨_, w', rfl, reads, h, .inr hc⟩)
    | held => exact .inl ⟨rfl, by rw [Held, h, hc]⟩

theorem start_feedInput (host : Host σ) (pid : Nat) (input : Option Bytes) (w : World σ) :
    (feedInput host pid input).start w = some (.ok (), feeding host pid input w) := by
  cases input <;> rfl

theorem oversee_sees (host : Host σ) (order : Order) (pid : Nat) (w : World σ) :
    Sees host order pid w ((oversee host order pid).start w) := by
  unfold oversee
  rw [start_bind_ok (start_feedInput host pid order.input w)]
  obtain ⟨ending, late, w₁, h₁, hend⟩ | ⟨f, w₁, h₁, hlost⟩ :=
    start_awaitEnd host pid order.timeoutMs (feeding host pid order.input w)
  case inr =>
    rw [start_bind_error h₁]
    exact .lost (.unawaited hlost)
  rw [start_bind_ok h₁]
  obtain ⟨h₂, hi, hnever⟩ | ⟨f, w₂, h₂, hi, hlost⟩ | ⟨w₂, h₂, hfed⟩ :=
    start_joinInput host pid order.input w₁
  case inl =>
    rw [start_bind_none h₂]
    exact .stuck (.unfed hend hi hnever)
  case inr.inl =>
    rw [start_bind_error h₂]
    exact .lost (.unfed hend hi hlost)
  rw [start_bind_ok h₂]
  obtain ⟨h₃, hheld⟩ | ⟨f, w₃, h₃, hlost⟩ | ⟨out, w₃, h₃, hout⟩ :=
    start_joinOutput host order.limit pid .stdout w₂
  case inl =>
    rw [start_bind_none h₃]
    exact .stuck (.stdout hend hfed hheld)
  case inr.inl =>
    rw [start_bind_error h₃]
    exact .lost (.stdout hend hfed hlost)
  rw [start_bind_ok h₃]
  obtain ⟨h₄, hheld⟩ | ⟨f, w₄, h₄, hlost⟩ | ⟨err, w₄, h₄, herr⟩ :=
    start_joinOutput host order.limit pid .stderr w₃
  case inl =>
    rw [start_bind_none h₄]
    exact .stuck (.stderr hend hfed hout hheld)
  case inr.inl =>
    rw [start_bind_error h₄]
    exact .lost (.stderr hend hfed hout hlost)
  rw [start_bind_ok h₄]
  exact .seen (.mk hend hfed hout herr)

theorem run_runs (host : Host σ) (order : Order) (w : World σ) :
    Runs host order w ((run host order).start w) := by
  unfold run spawn
  cases hn : order.command.hasNul with
  | true =>
    rw [start_bind_error (attempt_error (by rfl))]
    exact .unspoken hn
  | false =>
    cases hs : host.spawn order.command order.input.isSome w with
    | mk r w₁ =>
      cases r with
      | error e =>
        rw [start_bind_error (attempt_error (by rw [if_neg Bool.false_ne_true, hs]))]
        exact .unstarted hn hs
      | ok pid =>
        rw [start_bind_ok (attempt_ok (by rw [if_neg Bool.false_ne_true, hs]))]
        exact .started hn hs (oversee_sees host order pid w₁)

end Anneal.Program
