import Anneal.Proofs.Repair.Faithful

/-! Repairs that share a journal. Each counts its attempts from one, so the file of a number holds
the attempt of the last repair that recorded so many; an earlier attempt of that number is lost. -/

namespace Anneal.Repair

open Disk Journal

variable {σ : Type} {j : Journal} {d : Disk}

/-- A repair that came to a report. -/
structure Repaired (σ : Type) where
  setup : Setup σ
  request : Request
  agent : Agent
  start : World σ
  report : Report
  final : Progress σ
  ran : diagnoseAndFix setup request agent start = (.ok report, final)

structure Repaired.Undisturbed (j : Journal) (c : Repaired σ) : Prop where
  journal : c.setup.journal = some j
  candidate : ¬ Below (placeOf c.start.disk.home j.dir)
    (placeOf c.start.disk.home c.request.candidatePath)
  aloof : ∀ e ∈ c.final.entries, e.call.isWrite = false →
    Same (placeOf c.start.disk.home j.dir) e.before.disk e.after.disk
  dated : Dated c.start ∧ ∀ e ∈ c.final.entries, Dated e.after
  budget : c.setup.settings.maxRetry < Word.bound 32

/-- Repairs one after another. Nothing below the directory changes between two of them. -/
inductive Shared (j : Journal) : List (Repaired σ) → Disk → Prop
  | start (d : Disk) : Shared j [] d
  | next {calls : List (Repaired σ)} {d : Disk} {c : Repaired σ} (h : Shared j calls d)
      (hd : Same (placeOf d.home j.dir) d c.start.disk) (hc : c.Undisturbed j) :
      Shared j (calls ++ [c]) c.final.world.disk

/-- The attempt at a place of the last report that is long enough to have one there. -/
def latest (calls : List (Repaired σ)) (k : Nat) : Option Attempt :=
  (calls.filterMap fun c => c.report.attempts[k]?).getLast?

theorem latest_concat (calls : List (Repaired σ)) (c : Repaired σ) (k : Nat) :
    latest (calls ++ [c]) k = (c.report.attempts[k]?).or (latest calls k) := by
  have hone : [c].filterMap (fun c => c.report.attempts[k]?) =
      (c.report.attempts[k]?).toList := by
    cases hk : c.report.attempts[k]? <;> simp [hk]
  rw [latest, List.filterMap_append, hone]
  cases c.report.attempts[k]? with
  | none =>
    rw [Option.toList_none, List.append_nil]
    rfl
  | some a =>
    rw [Option.toList_some, List.getLast?_concat]
    rfl

theorem Repaired.Undisturbed.ended {c : Repaired σ} (h : c.Undisturbed j) :
    Ended c.setup c.request j c.start.disk c.report c.final :=
  diagnoseAndFix_ended c.ran h.journal h.dated.1 h.budget (fun hb => absurd hb h.candidate)
    fun e he => ⟨h.aloof e he, h.dated.2 e he⟩

section Ended

variable {s : Setup σ} {q : Request} {d₀ : Disk} {r : Report} {p : Progress σ}

theorem Ended.untouched (h : Ended s q j d₀ r p) {number : Nat}
    (hn : number = 0 ∨ r.attempts.length < number) :
    p.world.disk.node? (placeOf d₀.home (j.attemptPath number)) =
      d₀.node? (placeOf d₀.home (j.attemptPath number)) := by
  obtain ⟨_, _, -, -, hc⟩ := h.closed
  refine hc.others _ ((Keeps.attempt number).below d₀.home) ?_ ?_ ?_
  · exact (logPath_ne_attemptPath j d₀.home number).symm
  · exact (reportPath_ne_attemptPath j d₀.home number).symm
  · intro a ha
    have hnumber : a.number ∈ r.attempts.map Attempt.number := List.mem_map_of_mem ha
    rw [h.numbered, List.mem_range'_1] at hnumber
    exact attemptPath_ne (by omega) j d₀.home

theorem Ended.home (h : Ended s q j d₀ r p) : p.world.disk.home = d₀.home := by
  obtain ⟨_, _, -, -, hc⟩ := h.closed
  exact hc.home

theorem Ended.stored (h : Ended s q j d₀ r p) {k : Nat} {content : Text.Bytes}
    (hk : r.attempts[k]? = none) (hs : Stored d₀ (j.attemptPath (k + 1)) content) :
    Stored p.world.disk (j.attemptPath (k + 1)) content := by
  have hlength := List.getElem?_eq_none_iff.1 hk
  exact hs.of_node h.home (h.untouched (.inr (by omega)))

end Ended

theorem Shared.stored {calls : List (Repaired σ)} (h : Shared j calls d) {k : Nat} {a : Attempt}
    (ha : latest calls k = some a) :
    Stored d (j.attemptPath (k + 1)) (Text.encode (attemptText a)) ∧ a.Fits := by
  induction h with
  | start => cases ha
  | @next calls d c _ hd hc ih =>
    have hended := hc.ended
    rw [latest_concat] at ha
    cases hk : c.report.attempts[k]? with
    | some b =>
      rw [hk] at ha
      obtain rfl : b = a := Option.some.inj ha
      obtain ⟨_, _, -, -, hclosed⟩ := hended.closed
      have hmem := List.mem_of_getElem? hk
      have hstored := (hclosed.attempt b hmem).stored
      rw [hended.number hk] at hstored
      exact ⟨hstored, hended.fits.attempts b hmem⟩
    | none =>
      rw [hk, Option.none_or] at ha
      obtain ⟨hstored, hfits⟩ := ih ha
      have hstart := hstored.same hd ((Keeps.attempt (k + 1)).below d.home)
      exact ⟨hended.stored hk hstart, hfits⟩

theorem Shared.reportHeld {calls : List (Repaired σ)} (h : Shared j calls d) (hne : calls ≠ []) :
    ∃ content, d.Holds j.reportPath content := by
  cases h with
  | start => exact absurd rfl hne
  | next _ _ hc =>
    obtain ⟨_, _, -, -, hclosed⟩ := hc.ended.closed
    exact ⟨_, hclosed.report⟩

/-- The file of a number is read back as the attempt of the last repair that recorded so many. -/
theorem shared_journal_keeps_latest {calls : List (Repaired σ)} (h : Shared j calls d) {k : Nat}
    {a : Attempt} (ha : latest calls k = some a) :
    ∃ text, d.readTextNow (j.attemptPath (k + 1)) = .ok text ∧
      Json.Records Attempt.ofJson text a := by
  obtain ⟨hstored, hfits⟩ := h.stored ha
  have hne : calls ≠ [] := by
    rintro rfl
    cases ha
  obtain ⟨content, hreport⟩ := h.reportHeld hne
  have hholds := hstored.holds (IsName.ordinary (.inr (.inr ⟨k + 1, rfl⟩)))
    (IsName.ordinary (.inr (.inl rfl))) hreport
  exact ⟨_, hholds.readText, hfits.records⟩

def retry (d : Disk) (code : String) : Except Failure Report × Progress Scripted.Script :=
  diagnoseAndFix oneAttempt rehearsalRequest rehearsalAgent (failingWorld d code)

theorem retry_repaired (d : Disk) (code : String) (hhome : d.home = rehearsalDisk.home)
    (hcodes : (retry d code).1.toOption.map (fun r => r.attempts.map Attempt.newCode) = some [code])
    (hdated : ∀ e ∈ (retry d code).2.entries,
      Timestamp.isCalendarYear e.after.now.year = true) :
    ∃ c : Repaired Scripted.Script, c.start.disk = d ∧ c.final = (retry d code).2 ∧
      c.Undisturbed ⟨"s", "log"⟩ ∧ c.report.attempts.map Attempt.newCode = [code] := by
  obtain ⟨r, p, hrun, hr⟩ := exists_report hcodes
  rw [hrun] at hdated ⊢
  refine ⟨⟨oneAttempt, rehearsalRequest, rehearsalAgent, failingWorld d code, r, p, hrun⟩, rfl, rfl,
    ⟨rfl, ?_, ?_, ⟨?_, hdated⟩, ?_⟩, hr⟩
  · show ¬ Below (placeOf d.home "log") (placeOf d.home "main.rs")
    rw [hhome]
    decide +kernel
  · intro e he hw
    have hgenuine : e.Genuine rehearsal rehearsalRequest := diagnoseAndFix_genuine hrun e he
    rw [rehearsal_still hgenuine hw]
    exact .refl _
  · show Timestamp.isCalendarYear (Timestamp.ofMillis 0).year = true
    decide +kernel
  · show oneAttempt.settings.maxRetry < Word.bound 32
    decide

theorem exists_retries : ∃ c₁ c₂ : Repaired Scripted.Script,
    c₁.start.disk = rehearsalDisk ∧ c₂.start.disk = c₁.final.world.disk ∧
      c₁.Undisturbed ⟨"s", "log"⟩ ∧ c₂.Undisturbed ⟨"s", "log"⟩ ∧
      Shared ⟨"s", "log"⟩ [c₁, c₂] c₂.final.world.disk ∧
      c₁.report.attempts.map Attempt.newCode = ["fn first() \x7b\x7d"] ∧
      c₂.report.attempts.map Attempt.newCode = ["fn second() \x7b\x7d"] := by
  obtain ⟨c₁, hs₁, hf₁, hu₁, hc₁⟩ := retry_repaired rehearsalDisk
    "fn first() \x7b\x7d" rfl (by decide +kernel) (by decide +kernel)
  have hhome : c₁.final.world.disk.home = rehearsalDisk.home := by rw [hu₁.ended.home, hs₁]
  obtain ⟨c₂, hs₂, -, hu₂, hc₂⟩ := retry_repaired c₁.final.world.disk
    "fn second() \x7b\x7d" hhome (by rw [hf₁]; decide +kernel)
    (by rw [hf₁]; decide +kernel)
  have hfirst : Shared ⟨"s", "log"⟩ [c₁] c₁.final.world.disk :=
    .next (.start c₁.start.disk) (.refl _) hu₁
  exact ⟨c₁, c₂, hs₁, hs₂, hu₁, hu₂, .next hfirst (hs₂ ▸ .refl _) hu₂, hc₁, hc₂⟩

theorem retries_keep_latest : ∃ (calls : List (Repaired Scripted.Script)) (d : Disk) (a : Attempt),
    Shared ⟨"s", "log"⟩ calls d ∧ latest calls 0 = some a ∧
      ∃ text, d.readTextNow (Journal.attemptPath ⟨"s", "log"⟩ 1) = .ok text ∧
        Json.Records Attempt.ofJson text a := by
  obtain ⟨c₁, c₂, -, -, -, -, hshared, -, hcode⟩ := exists_retries
  obtain ⟨a, hone, -⟩ := List.map_eq_singleton_iff.1 hcode
  have hlatest : latest [c₁, c₂] 0 = some a := by
    rw [show [c₁, c₂] = [c₁] ++ [c₂] from rfl, latest_concat, hone]
    rfl
  exact ⟨_, _, a, hshared, hlatest, shared_journal_keeps_latest hshared hlatest⟩

/-- The second repair writes its attempt over that of the first. -/
theorem retry_loses_attempt : ∃ (calls : List (Repaired Scripted.Script)) (d : Disk),
    Shared ⟨"s", "log"⟩ calls d ∧ ∃ c ∈ calls, ∃ a ∈ c.report.attempts, ∀ number text,
      d.readTextNow (Journal.attemptPath ⟨"s", "log"⟩ number) = .ok text →
        ¬ Json.Records Attempt.ofJson text a := by
  obtain ⟨c₁, c₂, hs₁, hs₂, hu₁, hu₂, hshared, hcode₁, hcode₂⟩ := exists_retries
  have hended₁ := hu₁.ended
  have hended₂ := hu₂.ended
  obtain ⟨a, hone₁, ha⟩ := List.map_eq_singleton_iff.1 hcode₁
  obtain ⟨b, hone₂, hb⟩ := List.map_eq_singleton_iff.1 hcode₂
  refine ⟨[c₁, c₂], _, hshared, c₁, List.mem_cons_self, a, hone₁ ▸ List.mem_cons_self, ?_⟩
  intro number text hread hrecords
  by_cases hn : number = 1
  · subst hn
    obtain ⟨_, hheld, hrecorded⟩ :=
      hended₂.attempt (k := 0) (a := b) (by rw [hone₂, List.getElem?_cons_zero])
    obtain rfl := Except.ok.inj (hread.symm.trans hheld)
    have hcodes := ha.symm.trans (congrArg Attempt.newCode (hrecords.unique hrecorded) |>.trans hb)
    exact absurd hcodes (by decide)
  · obtain ⟨content, hholds, -⟩ := readTextNow_eq_ok.1 hread
    have hempty : ∀ e ∈ rehearsalDisk.nodes, ¬ Below (placeOf rehearsalDisk.home "log") e.1 := by
      decide +kernel
    have hhome : c₁.final.world.disk.home = rehearsalDisk.home := by rw [hended₁.home, hs₁]
    have hout₁ : number = 0 ∨ c₁.report.attempts.length < number := by
      rw [hone₁, List.length_singleton]
      omega
    have hout₂ : number = 0 ∨ c₂.report.attempts.length < number := by
      rw [hone₂, List.length_singleton]
      omega
    have hbelow : Below (placeOf rehearsalDisk.home (Journal.dir ⟨"s", "log"⟩))
        (placeOf rehearsalDisk.home (Journal.attemptPath ⟨"s", "log"⟩ number)) :=
      (Keeps.attempt number).below rehearsalDisk.home
    refine hholds.node ?_
    rw [hended₂.home, hended₂.untouched hout₂, hs₂, hhome, ← hs₁, hended₁.untouched hout₁, hs₁]
    exact node?_eq_none_of_nodes hempty hbelow

end Anneal.Repair
