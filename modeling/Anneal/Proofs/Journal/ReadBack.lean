import Anneal.Proofs.Journal.Kept
import Anneal.Proofs.Verification

/-! Reports and attempts come back from the files of a journal as they were. Fields that a reader
does not know and the order of the fields make no difference. -/

namespace Anneal.Journal

open Anneal.Json Anneal.Json.Decode

variable {α σ : Type}

/-- A record that comes back from its file, and from every other form of it. -/
structure ComesBack (decode : Decoder α) (toJson : α → Json) (Fits : α → Prop)
    (write : α → World σ → Except Failure String × World σ) (v : α) : Prop where
  file : ∀ {path : String} {w w' : World σ}, write v w = (.ok path, w') →
    ∃ text, w'.disk.readTextNow path = .ok text ∧ Records decode text v
  extended : ∀ {text : String} {j : Json}, parse? text = some j → Extends (toJson v) j →
    Records decode text v
  unique : ∀ v', Fits v' → (toJson v').pretty = (toJson v).pretty → v' = v

theorem writeRecord_path {path p : String} {record : Json} {w w' : World σ}
    (h : writeRecord path record w = (.ok p, w')) : p = path := by
  unfold writeRecord at h
  split at h <;> cases h
  rfl

theorem readTextNow_of_writeRecord {path p : String} {record : Json} {w w' : World σ}
    (h : writeRecord path record w = (.ok p, w')) :
    w'.disk.readTextNow p = .ok (record.pretty ++ "\n") := by
  obtain rfl := writeRecord_path h
  obtain ⟨d, hputs, rfl⟩ := writeRecord_ok h
  exact hputs.holds.readText

section

variable {decode : Decoder α} {toJson : α → Json} {Fits : α → Prop}
  {write : α → World σ → Except Failure String × World σ} {path : α → String}

theorem comesBack (hwrite : ∀ v w, write v w = writeRecord (path v) (toJson v) w)
    (hrecords : ∀ v, Fits v → Records decode ((toJson v).pretty ++ "\n") v) {v : α} (hv : Fits v)
    (htakes : Takes decode (toJson v) v) : ComesBack decode toJson Fits write v where
  file h := ⟨_, readTextNow_of_writeRecord (hwrite v _ ▸ h), hrecords v hv⟩
  extended hj h := ⟨_, hj, htakes _ h⟩
  unique v' hv' h := (h ▸ hrecords v' hv').unique (hrecords v hv)

end

theorem records_come_back (j : Journal) :
    (∀ r : Report, r.Fits →
      ComesBack Report.ofJson Report.toJson Report.Fits (j.writeReport (σ := σ)) r) ∧
    ∀ a : Attempt, a.Fits →
      ComesBack Attempt.ofJson Attempt.toJson Attempt.Fits (j.writeAttempt (σ := σ)) a :=
  ⟨fun _ hr => comesBack (fun _ _ => rfl) (fun _ h => h.records) hr hr.takes,
    fun _ ha => comesBack (fun _ _ => rfl) (fun _ h => h.records) ha ha.takes⟩

def leapReport : Report where
  success := false
  stop := .exhausted
  detail := "exhausted after 1 attempt"
  lastDiagnostic := some "error[E0308]: \"mismatched types\"\n\t^"
  verifications := 2
  attempts :=
    [{ number := 1
       startedAt := ⟨2016, 12, 31, 23, 59, 60, 120000⟩
       durationMs := 18446744073709551615
       failureClass := .compileError
       outcome := .fail .compile "" "error: expected \\;"
       prompt := "Fix it."
       newCode := "" }]
  durationMs := 0

theorem leapReport_fits : leapReport.Fits where
  verifications := by decide
  attempts a ha := by
    rw [List.mem_singleton.1 ha]
    have hdate : Timestamp.IsDate 2016 12 31 := ⟨by decide, by decide, by decide, by decide⟩
    exact ⟨by decide, ⟨hdate, by decide, by decide, by decide, by decide, by decide⟩, by decide⟩
  duration := by decide

theorem leapReport_comes_back : leapReport.Fits ∧ (∀ a ∈ leapReport.attempts, a.Fits ∧
      ComesBack Attempt.ofJson Attempt.toJson Attempt.Fits
        (Journal.writeAttempt ⟨"s", "log"⟩ (σ := Unit)) a) ∧
    ComesBack Report.ofJson Report.toJson Report.Fits
      (Journal.writeReport ⟨"s", "log"⟩ (σ := Unit)) leapReport :=
  ⟨leapReport_fits,
    fun a ha => ⟨leapReport_fits.attempts a ha,
      (records_come_back ⟨"s", "log"⟩).2 a (leapReport_fits.attempts a ha)⟩,
    (records_come_back ⟨"s", "log"⟩).1 leapReport leapReport_fits⟩

end Anneal.Journal
