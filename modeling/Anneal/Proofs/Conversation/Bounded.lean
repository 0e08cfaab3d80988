import Anneal.Conversation.History
import Mathlib.Data.List.DropRight

/-! A bounded history against the list of everything that was ever recorded: it holds the end of
that list, however records, notes and resets follow each other. -/

namespace Anneal.History

inductive Op where
  | record (user assistant : String)
  | annotate (note : String)
  | reset
  deriving DecidableEq, Repr

def Op.apply (h : History) : Op → History
  | .record user assistant => h.record user assistant
  | .annotate note => (h.annotate note).2
  | .reset => h.reset

def run (h : History) (ops : List Op) : History := ops.foldl Op.apply h

def sinceReset (ops : List Op) : List Op := ops.rtakeWhile (· ≠ .reset)

def Op.note? : Op → Option String
  | .annotate note => some note
  | _ => none

def lastNote (ops : List Op) : Option String :=
  ((ops.takeWhile fun op => op.note?.isSome).filterMap Op.note?).getLast?

/-- Every exchange that is recorded, each with the last note before the next one. -/
def recorded : List Op → List Exchange
  | [] => []
  | .record user assistant :: ops => ⟨user, assistant, lastNote ops⟩ :: recorded ops
  | _ :: ops => recorded ops

/-- Exchanges as whole pairs, each with its note directly behind it. -/
def pairs : List Exchange → List Message
  | [] => []
  | e :: es => match e.note with
    | none => .user e.user :: .assistant e.assistant :: pairs es
    | some note => .user e.user :: .assistant e.assistant :: .system note :: pairs es

variable {ops : List Op} {note user assistant : String}

theorem lastNote_append_record :
    lastNote (ops ++ [.record user assistant]) = lastNote ops := by
  have hrecord : [Op.record user assistant].takeWhile (fun op => op.note?.isSome) = [] := rfl
  rw [lastNote, List.takeWhile_append, hrecord, List.append_nil]
  split
  next hall =>
    have htake : ops.takeWhile (fun op => op.note?.isSome) = ops :=
      (List.takeWhile_prefix _).eq_of_length hall
    rw [lastNote, htake]
  next => rfl

theorem lastNote_append_annotate : lastNote (ops ++ [.annotate note]) =
    if ∀ op ∈ ops, op.note?.isSome = true then some note else lastNote ops := by
  rw [lastNote, List.takeWhile_append]
  have htake : (ops.takeWhile (fun op => op.note?.isSome)).length = ops.length ↔
      ∀ op ∈ ops, op.note?.isSome = true := by
    rw [← List.takeWhile_eq_self_iff]
    constructor
    · exact (List.takeWhile_prefix _).eq_of_length
    · exact congrArg List.length
  simp only [htake]
  split
  · simp [Op.note?]
  · rfl

theorem recorded_append_record : recorded (ops ++ [.record user assistant]) =
    recorded ops ++ [⟨user, assistant, none⟩] := by
  induction ops with
  | nil => rfl
  | cons op ops ih =>
    cases op with
    | record => simp only [List.cons_append, recorded, ih, lastNote_append_record]
    | annotate => exact ih
    | reset => exact ih

theorem recorded_eq_nil_iff :
    recorded ops = [] ↔ ∀ user assistant, .record user assistant ∉ ops := by
  induction ops with
  | nil => simp [recorded]
  | cons op ops ih =>
    cases op with
    | annotate => simp [recorded, ih]
    | reset => simp [recorded, ih]
    | record user assistant =>
      constructor
      · intro h
        cases h
      · intro h
        exact absurd List.mem_cons_self (h user assistant)

theorem all_notes_iff (hreset : .reset ∉ ops) :
    (∀ op ∈ ops, op.note?.isSome = true) ↔ recorded ops = [] := by
  rw [recorded_eq_nil_iff]
  constructor
  · intro hall user assistant hmem
    cases hall _ hmem
  · intro hnone op hmem
    cases op with
    | annotate => rfl
    | record user assistant => exact absurd hmem (hnone user assistant)
    | reset => exact absurd hmem hreset

theorem recorded_append_annotate (hreset : .reset ∉ ops) :
    recorded (ops ++ [.annotate note]) = annotateList note (recorded ops) := by
  induction ops with
  | nil => rfl
  | cons op ops ih =>
    rw [List.mem_cons, not_or] at hreset
    obtain ⟨hop, hreset⟩ := hreset
    have hrest := ih hreset
    cases op with
    | annotate => exact hrest
    | reset => exact absurd rfl hop
    | record user assistant =>
      -- The note is this exchange's just if no exchange follows.
      rw [List.cons_append, recorded, hrest, recorded, lastNote_append_annotate]
      simp only [all_notes_iff hreset]
      cases recorded ops with
      | nil => rfl
      | cons e es => rfl

theorem sinceReset_append {op : Op} (h : op ≠ .reset) :
    sinceReset (ops ++ [op]) = sinceReset ops ++ [op] :=
  List.rtakeWhile_concat_pos _ _ _ (by simpa using h)

theorem sinceReset_append_reset : sinceReset (ops ++ [.reset]) = [] :=
  List.rtakeWhile_concat_neg _ _ _ (by simp)

theorem reset_notMem_sinceReset : .reset ∉ sinceReset ops := by
  intro h
  simpa using List.mem_rtakeWhile_imp h

def window (systemPrompt : String) (bound : Nat) (log : List Exchange) : History :=
  ⟨systemPrompt, log.rtake bound, bound⟩

variable {systemPrompt : String} {bound n : Nat} {log : List Exchange}

theorem drop_rtake : (if (log.rtake (n + 1)).length = n + 1 then (log.rtake (n + 1)).drop 1
    else log.rtake (n + 1)) = log.rtake n := by
  simp only [List.rtake, List.length_drop, List.drop_drop]
  split
  next hfull =>
    have hdrop : log.length - (n + 1) + 1 = log.length - n := by omega
    rw [hdrop]
  next hroom =>
    have hdrop : log.length - (n + 1) = log.length - n := by omega
    rw [hdrop]

theorem record_window (hb : 0 < bound) : (window systemPrompt bound log).record user assistant =
    window systemPrompt bound (log ++ [⟨user, assistant, none⟩]) := by
  obtain ⟨n, rfl⟩ : ∃ n, bound = n + 1 := ⟨bound - 1, by omega⟩
  unfold window record
  dsimp only
  rw [drop_rtake, List.rtake_concat_succ]

theorem annotateList_append (e : Exchange) :
    annotateList note (log ++ [e]) = log ++ [{ e with note := some note }] := by
  induction log with
  | nil => rfl
  | cons x log ih =>
    cases log with
    | nil => rfl
    | cons y log =>
      change x :: annotateList note (y :: log ++ [e]) = _
      rw [ih]
      rfl

theorem annotate_window (hb : 0 < bound) : ((window systemPrompt bound log).annotate note).2 =
    window systemPrompt bound (annotateList note log) := by
  obtain ⟨n, rfl⟩ : ∃ n, bound = n + 1 := ⟨bound - 1, by omega⟩
  rcases List.eq_nil_or_concat log with rfl | ⟨front, e, rfl⟩
  · simp [window, annotate, annotateList]
  · simp only [window, annotate, List.concat_eq_append, List.rtake_concat_succ,
      annotateList_append]

theorem window_eq_nil_iff (hb : 0 < bound) :
    (window systemPrompt bound log).exchanges = [] ↔ log = [] := by
  obtain ⟨n, rfl⟩ : ∃ n, bound = n + 1 := ⟨bound - 1, by omega⟩
  rcases List.eq_nil_or_concat log with rfl | ⟨front, e, rfl⟩
  · simp [window]
  · simp [window, List.rtake_concat_succ]

theorem length_rtake_le : (log.rtake bound).length ≤ bound := by
  rw [List.rtake, List.length_drop]
  omega

theorem flatMap_messages (es : List Exchange) : es.flatMap Exchange.messages = pairs es := by
  induction es with
  | nil => rfl
  | cons e es ih =>
    rw [List.flatMap_cons, ih, pairs, Exchange.messages]
    cases e.note <;> rfl

theorem messages_window : (window systemPrompt bound log).messages =
    .system systemPrompt :: pairs (log.rtake bound) := by
  rw [messages, flatMap_messages, window]

theorem apply_window (hb : 0 < bound) (op : Op) :
    op.apply (window systemPrompt bound (recorded (sinceReset ops))) =
      window systemPrompt bound (recorded (sinceReset (ops ++ [op]))) := by
  cases op with
  | record user assistant =>
    rw [sinceReset_append (by simp), recorded_append_record, Op.apply, record_window hb]
  | annotate note =>
    rw [sinceReset_append (by simp), recorded_append_annotate reset_notMem_sinceReset, Op.apply,
      annotate_window hb]
  | reset =>
    rw [sinceReset_append_reset]
    simp [Op.apply, reset, window, recorded]

theorem run_new (systemPrompt : String) (maxHistory : Nat) (ops : List Op) :
    run (.new systemPrompt maxHistory) ops =
      window systemPrompt (max maxHistory 1) (recorded (sinceReset ops)) := by
  induction ops using List.reverseRecOn with
  | nil => simp [run, new, window, sinceReset, recorded]
  | append_singleton ops op ih =>
    have hb : 0 < max maxHistory 1 := by omega
    have hrun : run (.new systemPrompt maxHistory) (ops ++ [op]) =
        op.apply (run (.new systemPrompt maxHistory) ops) := List.foldl_append
    rw [hrun, ih, apply_window hb]

/-- A bounded history holds the end of what was recorded since the last reset. -/
theorem bounded_history_keeps_the_end (systemPrompt : String) (maxHistory : Nat)
    (ops : List Op) :
    let h := run (.new systemPrompt maxHistory) ops
    let kept := (recorded (sinceReset ops)).rtake (max maxHistory 1)
    h.exchanges = kept ∧ kept.length ≤ max maxHistory 1 ∧
    (∀ note, (h.annotate note).1 = false ↔
      ∀ user assistant, .record user assistant ∉ sinceReset ops) ∧
    h.messages = .system systemPrompt :: pairs kept ∧
    ∀ pending, h.messagesWith pending = h.messages ++ [.user pending] := by
  intro h kept
  have hb : 0 < max maxHistory 1 := by omega
  have hrun : h = window systemPrompt (max maxHistory 1) (recorded (sinceReset ops)) :=
    run_new systemPrompt maxHistory ops
  rw [hrun]
  refine ⟨rfl, length_rtake_le, fun note => ?_, messages_window, fun pending => rfl⟩
  rw [annotate, Bool.not_eq_false', List.isEmpty_iff, window_eq_nil_iff hb, recorded_eq_nil_iff]

end Anneal.History
