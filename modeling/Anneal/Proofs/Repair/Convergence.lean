import Anneal.Proofs.Repair.Ending
import Anneal.Proofs.Repair.Traced
import Anneal.Scripted

/-! A repair converges exactly when the last verification found both programs to agree, and it goes
no further than that. -/

namespace Anneal.Repair

variable {σ : Type} {s : Setup σ} {q : Request} {m p : Progress σ} {stop : Stop}

/-- The stop tells whether the last verification agrees, no earlier one does, and nothing follows
one that does. -/
structure Convergent (s : Setup σ) (stop : Stop) (entries : List (Entry σ)) : Prop where
  converged_iff : stop.reason = .converged ↔
    ∃ v output, (verifications entries).getLast? = some v ∧ Agrees s v output
  detail : ∀ v output, (verifications entries).getLast? = some v → Agrees s v output →
    stop.detail = output
  first : ∀ v ∈ (verifications entries).dropLast, ∀ output, ¬ Agrees s v output
  final : ∀ v ∈ verifications entries, ∀ output, Agrees s v output →
    entries = v.earlier ++ v.own ∧ ∀ e ∈ v.own, e.call.isChat = false ∧ e.call.isWrite = false

theorem Sound.disagrees (h : Sound s q p) :
    ∀ v ∈ verifications p.entries, ∀ output, ¬ Agrees s v output := by
  have hall : List.Forall₂ (fun v a => (∀ output, ¬ Agrees s v output) ∧ Recorded s q v a)
      (verifications p.entries) p.attempts :=
    h.recorded.imp fun v a ha => ⟨ha.judged.not_agrees, ha⟩
  exact ((List.forall₂_and_left _ _).1 hall).1

theorem convergent_of_disagrees (h : stop.reason ≠ .converged)
    (hd : ∀ v ∈ verifications p.entries, ∀ output, ¬ Agrees s v output) :
    Convergent s stop p.entries where
  converged_iff := by
    constructor
    · exact fun hc => absurd hc h
    · rintro ⟨v, output, hv, ha⟩
      exact absurd ha (hd v (List.mem_of_getLast? hv) output)
  detail v output hv ha := absurd ha (hd v (List.mem_of_getLast? hv) output)
  first v hv output ha := hd v (List.dropLast_subset _ hv) output ha
  final v hv output ha := absurd ha (hd v hv output)

theorem Leads.converged_iff {verdict : Verdict} {follow : List Call}
    (h : Leads p verdict follow (.stopped stop)) :
    stop.reason = .converged ↔ ∃ output, verdict = .converged output := by
  cases h with
  | refused c outcome text e =>
    have he : (stopOfError e).reason ≠ .converged := by
      unfold stopOfError
      split <;> simp
    simp [he]
  | _ => simp [cancelledStop]

theorem convergent_of_stopped {verdict : Verdict} {follow : List Call} {own : List (Entry σ)}
    (hm : Sound s q m) (hr : Round s m verdict follow own p)
    (hl : Leads m verdict follow (.stopped stop)) : Convergent s stop p.entries := by
  -- The verdict is about the last verification; all before it were followed by a fix.
  have hlast (v : Verification σ) : (verifications p.entries).getLast? = some v ↔
      ⟨m.entries, own⟩ = v := by
    rw [hr.verifications, List.getLast?_concat, Option.some.injEq]
  refine ⟨?_, ?_, ?_, ?_⟩
  · rw [hl.converged_iff]
    constructor
    · rintro ⟨output, hv⟩
      exact ⟨_, output, (hlast _).2 rfl, (hr.judged.agrees output).2 hv⟩
    · rintro ⟨v, output, hv, ha⟩
      obtain rfl := (hlast v).1 hv
      exact ⟨output, (hr.judged.agrees output).1 ha⟩
  · intro v output hv ha
    obtain rfl := (hlast v).1 hv
    obtain rfl := (hr.judged.agrees output).1 ha
    cases hl
    rfl
  · rw [hr.verifications, List.dropLast_concat]
    exact hm.disagrees
  · intro v hv output ha
    rw [hr.verifications, List.mem_append, List.mem_singleton] at hv
    obtain hv | rfl := hv
    · exact absurd ha (hm.disagrees v hv output)
    · obtain rfl := (hr.judged.agrees output).1 ha
      refine ⟨hr.entries, fun e he => ?_⟩
      obtain ⟨calls, hcalls, hapart⟩ := hr.calls
      cases hl
      rw [List.append_nil] at hcalls
      have := hapart e.call (hcalls ▸ List.mem_map_of_mem he)
      cases hc : e.call <;> simp_all [Call.isApart, Call.isChat, Call.isWrite]

theorem Last.convergent (h : Last s q (Sound s q) (.ok stop) p) :
    Convergent s stop p.entries := by
  obtain ⟨m, pr, hm, -, hp, hc⟩ := h.exists_pass
  cases hc with
  | stopped =>
    obtain ⟨rfl, hpr⟩ | ⟨verdict, follow, own, hr, hl, -⟩ := hm.round hp
    · cases hpr
      exact convergent_of_disagrees (by simp [cancelledStop]) hm.disagrees
    · exact convergent_of_stopped hm hr hl
  | exhausted =>
    exact convergent_of_disagrees (by simp [exhaustedStop]) (hm.repaired hp).disagrees

theorem diagnoseAndFix_convergent {agent : Agent} {w : World σ} {r : Report}
    (h : diagnoseAndFix s q agent w = (.ok r, p)) :
    Convergent s ⟨r.stop, r.detail⟩ p.entries := by
  cases diagnoseAndFix_sound h with
  | finished hl hj => exact hl.convergent

theorem success_iff {agent : Agent} {w : World σ} {r : Report}
    (h : diagnoseAndFix s q agent w = (.ok r, p)) : r.success = true ↔ r.stop = .converged := by
  cases diagnoseAndFix_sound h with
  | finished hl hj => exact decide_eq_true_iff

/-- Success means that the last verification, and no other, found the candidate to compile, to run
and to print what the comparison accepts as the output of the reference, by what the toolchains
answered in this repair. -/
theorem success_iff_last_agrees {agent : Agent} {w : World σ} {r : Report}
    (h : diagnoseAndFix s q agent w = (.ok r, p)) :
    Traced s q w p.entries p.world ∧ (r.success = true ↔ r.stop = .converged) ∧
      Convergent s ⟨r.stop, r.detail⟩ p.entries :=
  ⟨diagnoseAndFix_traced h, success_iff h, diagnoseAndFix_convergent h⟩

theorem exists_report {α : Type} {result : Except Failure Report × Progress σ} {f : Report → α}
    {a : α} (h : result.1.toOption.map f = some a) : ∃ r p, result = (.ok r, p) ∧ f r = a := by
  obtain ⟨r | r, p⟩ := result
  · cases h
  · exact ⟨r, p, rfl, Option.some.inj h⟩

open Scripted in
def rehearsalScript : Script where
  replies _ := ⟨[.ok (modifiedCodeReply "fn main() \x7b println!(\"6\"); \x7d")], []⟩
  results
    | .rust => ⟨[.success "", .success ""], [.success "5\n", .success "6\n"], 0, 0, []⟩
    | .cpp => ⟨[.success ""], [.success "6"], 0, 0, []⟩
  cancelAt := none

def rehearsal : Setup Scripted.Script where
  client := Scripted.client .repair .messages
  candidate := Scripted.toolchain .rust
  reference := Scripted.toolchain .cpp
  settings := {}
  journal := some ⟨"s", "log"⟩

def rehearsalRequest : Request := ⟨"main.rs", "main.cpp", some "Keep it short.", none⟩

def rehearsalAgent : Agent := .new "scripted" "You repair programs." 4

def rehearsalDisk : Disk :=
  ((Disk.empty.set ["tmp", "work", "main.rs"] (.file (Text.encode "fn main() {}\n") false)).set
    ["tmp", "work", "main.cpp"] (.file (Text.encode "int main() {}\n") false)).set
    ["tmp", "work", "log"] .directory

def rehearsalWorld : World Scripted.Script := ⟨rehearsalDisk, false, 0, rehearsalScript⟩

theorem rehearsal_agrees :
    ∃ r p, diagnoseAndFix rehearsal rehearsalRequest rehearsalAgent rehearsalWorld = (.ok r, p) ∧
      Traced rehearsal rehearsalRequest rehearsalWorld p.entries p.world ∧
      (r.success = true ↔ r.stop = .converged) ∧
      Convergent rehearsal ⟨r.stop, r.detail⟩ p.entries := by
  have h : (diagnoseAndFix rehearsal rehearsalRequest rehearsalAgent
      rehearsalWorld).1.toOption.map Report.stop = some .converged := by decide +kernel
  obtain ⟨r, p, hrun, -⟩ := exists_report h
  exact ⟨r, p, hrun, success_iff_last_agrees hrun⟩

end Anneal.Repair
