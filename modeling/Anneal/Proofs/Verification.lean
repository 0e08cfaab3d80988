import Anneal.Proofs.Json.Records
import Anneal.Proofs.Timestamp
import Anneal.Verification

/-! Attempts and reports are read back from what is written of them, as long as their numbers fit
into the words of their fields and their moments lie in the calendar. -/

namespace Anneal

open Anneal.Json Anneal.Json.Decode

theorem Stage.ofJson_tag (s : Stage) : Stage.ofJson (.str s.tag) = .ok s := by
  cases s <;> rfl

theorem FailureClass.ofJson_tag (c : FailureClass) :
    FailureClass.ofJson (.str c.tag) = .ok c := by
  cases c <;> rfl

theorem StopReason.ofJson_tag (r : StopReason) : StopReason.ofJson (.str r.tag) = .ok r := by
  cases r <;> rfl

theorem Timestamp.Valid.ofJson_text {t : Timestamp} (h : t.Valid) :
    Timestamp.ofJson (.str t.text) = .ok t := by
  rw [Timestamp.ofJson, h.parse_text]

section Optional

variable (s : Option String)

theorem plain_ofOptionText (depth : Nat) : Plain depth (ofOptionText s) := by
  cases s with
  | none => exact .null depth
  | some s => exact .str depth s

theorem extends_ofOptionText : Extends (ofOptionText s) (normal (ofOptionText s)) := by
  cases s with
  | none => exact .null
  | some s => exact .str s

theorem takes_ofOptionText : Takes (optional string) (ofOptionText s) s := by
  cases s with
  | none =>
    rintro _ ⟨⟩
    rfl
  | some s => exact takes_str rfl

end Optional

theorem Outcome.plain (o : Outcome) (depth : Nat) : Plain (depth + 1) o.toJson := by
  refine .obj fun e he => ?_
  simp only [List.mem_cons, List.not_mem_nil, or_false] at he
  rcases he with rfl | rfl | rfl | rfl
  · exact .str depth _
  · exact .bool depth _
  · exact .str depth _
  · exact plain_ofOptionText _ depth

theorem Outcome.extends_normal (o : Outcome) : Extends o.toJson (normal o.toJson) := by
  refine .obj_normal (by simp [Keyed.keys]) fun e he => ?_
  simp only [List.mem_cons, List.not_mem_nil, or_false] at he
  rcases he with rfl | rfl | rfl | rfl
  · exact .str _
  · exact .bool _
  · exact .str _
  · exact extends_ofOptionText _

theorem Outcome.takes (o : Outcome) : Takes Outcome.ofJson o.toJson o := by
  intro j hj
  obtain ⟨fields, rfl, h⟩ := hj.of_obj
  have stage : Found fields "stage" Stage.ofJson o.stage :=
    (takes_str o.stage.ofJson_tag).found h (List.mem_of_getElem? (i := 0) rfl)
  have passed : Found fields "passed" bool o.passed :=
    (takes_bool _).found h (List.mem_of_getElem? (i := 1) rfl)
  have captured : Found fields "captured_output" string o.capturedOutput :=
    Takes.found (takes_str rfl) h (List.mem_of_getElem? (i := 2) rfl)
  have diagnostic : Found fields "diagnostic" (optional string) o.diagnostic :=
    (takes_ofOptionText _).found h (List.mem_of_getElem? (i := 3) rfl)
  apply record_obj
  · simp only [List.forall_mem_cons]
    exact ⟨stage.check, passed.check, captured.check, diagnostic.check, List.forall_mem_nil _⟩
  · rw [stage.required, passed.required, captured.required, diagnostic.withDefault]
    rfl

namespace Attempt

/-- The numbers of an attempt fit into their words. -/
structure Fits (a : Attempt) : Prop where
  number : a.number < Word.bound 32
  startedAt : a.startedAt.Valid
  duration : a.durationMs < Word.bound 64

theorem fits_word32 {n : Nat} (h : n < Word.bound 32) : n < Word.bound 64 :=
  Nat.lt_trans h (by decide)

variable {a : Attempt}

theorem Fits.plain (h : a.Fits) (depth : Nat) : Plain (depth + 2) a.toJson := by
  refine .obj fun e he => ?_
  simp only [List.mem_cons, List.not_mem_nil, or_false] at he
  rcases he with rfl | rfl | rfl | rfl | rfl | rfl | rfl
  · exact .int _ (inRange_natCast (fits_word32 h.number))
  · exact .str _ _
  · exact .int _ (inRange_natCast h.duration)
  · exact .str _ _
  · exact a.outcome.plain depth
  · exact .str _ _
  · exact .str _ _

theorem extends_normal (a : Attempt) : Extends a.toJson (normal a.toJson) := by
  refine .obj_normal (by simp [Keyed.keys]) fun e he => ?_
  simp only [List.mem_cons, List.not_mem_nil, or_false] at he
  rcases he with rfl | rfl | rfl | rfl | rfl | rfl | rfl
  · exact .int _
  · exact .str _
  · exact .int _
  · exact .str _
  · exact a.outcome.extends_normal
  · exact .str _
  · exact .str _

theorem Fits.takes (h : a.Fits) : Takes Attempt.ofJson a.toJson a := by
  intro j hj
  obtain ⟨fields, rfl, hfields⟩ := hj.of_obj
  have number : Found fields "attempt" word32 a.number :=
    (takes_word h.number).found hfields (List.mem_of_getElem? (i := 0) rfl)
  have startedAt : Found fields "started_at" Timestamp.ofJson a.startedAt :=
    (takes_str h.startedAt.ofJson_text).found hfields (List.mem_of_getElem? (i := 1) rfl)
  have duration : Found fields "duration_ms" word64 a.durationMs :=
    (takes_word h.duration).found hfields (List.mem_of_getElem? (i := 2) rfl)
  have failureClass : Found fields "failure_class" FailureClass.ofJson a.failureClass :=
    (takes_str a.failureClass.ofJson_tag).found hfields (List.mem_of_getElem? (i := 3) rfl)
  have outcome : Found fields "outcome" Outcome.ofJson a.outcome :=
    a.outcome.takes.found hfields (List.mem_of_getElem? (i := 4) rfl)
  have prompt : Found fields "prompt" string a.prompt :=
    Takes.found (takes_str rfl) hfields (List.mem_of_getElem? (i := 5) rfl)
  have newCode : Found fields "new_code" string a.newCode :=
    Takes.found (takes_str rfl) hfields (List.mem_of_getElem? (i := 6) rfl)
  apply record_obj
  · simp only [List.forall_mem_cons]
    exact ⟨number.check, startedAt.check, duration.check, failureClass.check, outcome.check,
      prompt.check, newCode.check, List.forall_mem_nil _⟩
  · rw [number.required, startedAt.required, duration.required, failureClass.required,
      outcome.required, prompt.required, newCode.required]
    rfl

theorem Fits.records (h : a.Fits) : Records Attempt.ofJson (a.toJson.pretty ++ "\n") a :=
  ⟨_, parse?_pretty (h.plain _), h.takes _ a.extends_normal⟩

end Attempt

namespace Report

structure Fits (r : Report) : Prop where
  verifications : r.verifications < Word.bound 32
  attempts : ∀ a ∈ r.attempts, a.Fits
  duration : r.durationMs < Word.bound 64

variable {r : Report}

theorem Fits.plain (h : r.Fits) (depth : Nat) : Plain (depth + 4) r.toJson := by
  refine .obj fun e he => ?_
  simp only [List.mem_cons, List.not_mem_nil, or_false] at he
  rcases he with rfl | rfl | rfl | rfl | rfl | rfl | rfl
  · exact .bool _ _
  · exact .str _ _
  · exact .str _ _
  · exact plain_ofOptionText _ _
  · exact .int _ (inRange_natCast (Attempt.fits_word32 h.verifications))
  · refine .arr fun j hj => ?_
    obtain ⟨a, ha, rfl⟩ := List.mem_map.1 hj
    exact (h.attempts a ha).plain depth
  · exact .int _ (inRange_natCast h.duration)

theorem extends_normal (r : Report) : Extends r.toJson (normal r.toJson) := by
  refine .obj_normal (by simp [Keyed.keys]) fun e he => ?_
  simp only [List.mem_cons, List.not_mem_nil, or_false] at he
  rcases he with rfl | rfl | rfl | rfl | rfl | rfl | rfl
  · exact .bool _
  · exact .str _
  · exact .str _
  · exact extends_ofOptionText _
  · exact .int _
  · refine .arr_normal fun j hj => ?_
    obtain ⟨a, ha, rfl⟩ := List.mem_map.1 hj
    exact a.extends_normal
  · exact .int _

theorem Fits.takes (h : r.Fits) : Takes Report.ofJson r.toJson r := by
  intro j hj
  obtain ⟨fields, rfl, hfields⟩ := hj.of_obj
  have success : Found fields "success" bool r.success :=
    (takes_bool _).found hfields (List.mem_of_getElem? (i := 0) rfl)
  have stop : Found fields "stop" StopReason.ofJson r.stop :=
    (takes_str r.stop.ofJson_tag).found hfields (List.mem_of_getElem? (i := 1) rfl)
  have detail : Found fields "detail" string r.detail :=
    Takes.found (takes_str rfl) hfields (List.mem_of_getElem? (i := 2) rfl)
  have diagnostic : Found fields "last_diagnostic" (optional string) r.lastDiagnostic :=
    (takes_ofOptionText _).found hfields (List.mem_of_getElem? (i := 3) rfl)
  have verifications : Found fields "verifications" word32 r.verifications :=
    (takes_word h.verifications).found hfields (List.mem_of_getElem? (i := 4) rfl)
  have attempts : Found fields "attempts" (list Attempt.ofJson) r.attempts :=
    (takes_list fun a ha => (h.attempts a ha).takes).found hfields
      (List.mem_of_getElem? (i := 5) rfl)
  have duration : Found fields "duration_ms" word64 r.durationMs :=
    (takes_word h.duration).found hfields (List.mem_of_getElem? (i := 6) rfl)
  apply record_obj
  · simp only [List.forall_mem_cons]
    exact ⟨success.check, stop.check, detail.check, diagnostic.check, verifications.check,
      attempts.check, duration.check, List.forall_mem_nil _⟩
  · rw [success.required, stop.required, detail.required, diagnostic.withDefault,
      verifications.required, attempts.required, duration.required]
    rfl

theorem Fits.records (h : r.Fits) : Records Report.ofJson (r.toJson.pretty ++ "\n") r :=
  ⟨_, parse?_pretty (h.plain _), h.takes _ r.extends_normal⟩

end Report
end Anneal
