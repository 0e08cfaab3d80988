import Anneal.Journal
import Anneal.Proofs.Disk.Operations

/-! The files of a journal. Its operations touch no others, and they have names of their own. -/

namespace Anneal.Journal

open Disk

variable {σ : Type}

inductive Keeps (j : Journal) : String → Prop
  | log : j.Keeps j.logPath
  | report : j.Keeps j.reportPath
  | attempt (number : Nat) : j.Keeps (j.attemptPath number)

theorem event_writes (j : Journal) (message : String) (w : World σ) :
    ∃ path d, j.Keeps path ∧ Changes [placeOf w.disk.home path] w.disk d ∧
      (j.event message w).2 = { w with disk := d } := by
  refine ⟨j.logPath, (w.disk.appendText j.logPath (entry w.now message)).2, .log,
    appendText_changes rfl, ?_⟩
  unfold event World.onDisk
  dsimp only
  generalize w.disk.appendText j.logPath (entry w.now message) = r
  rcases r with ⟨_ | _, d⟩ <;> rfl

theorem writeRecord_writes (path : String) (record : Json) (w : World σ) :
    ∃ d, Changes [placeOf w.disk.home path] w.disk d ∧
      (writeRecord path record w).2 = { w with disk := d } := by
  refine ⟨(w.disk.writeText path (record.pretty ++ "\n")).2, writeBytes_changes rfl, ?_⟩
  unfold writeRecord World.onDisk
  dsimp only
  generalize w.disk.writeText path (record.pretty ++ "\n") = r
  rcases r with ⟨_ | _, d⟩ <;> rfl

def IsName (name : String) : Prop :=
  name = "session.log" ∨ name = "report.json" ∨ ∃ number : Nat, name = s!"attempt-{number}.json"

theorem attemptName_toList (number : Nat) :
    s!"attempt-{number}.json".toList =
      "attempt-".toList ++ Nat.toDigits 10 number ++ ".json".toList := by
  show (("" ++ "attempt-") ++ Nat.repr number ++ ".json").toList = _
  simp [Nat.repr]

theorem IsName.ordinary {name : String} (h : IsName name) : Ordinary name := by
  have hhead {name : String} {c : Char} (hn : name.toList.head? = some c) (hc : c ≠ '.') :
      name ≠ "." ∧ name ≠ ".." := by
    constructor <;> rintro rfl <;> exact hc (Option.some.inj hn).symm
  rcases h with rfl | rfl | ⟨number, rfl⟩
  · exact ⟨by decide, by decide, by decide, by decide⟩
  · exact ⟨by decide, by decide, by decide, by decide⟩
  · have hcs := attemptName_toList number
    obtain ⟨hdot, hdots⟩ := hhead (c := 'a') (by rw [hcs]; rfl) (by decide)
    refine ⟨by simp, ?_, hdot, hdots⟩
    rw [hcs, List.mem_append, List.mem_append]
    rintro ((h | h) | h)
    · exact absurd h (by decide)
    · exact absurd (Nat.isDigit_of_mem_toDigits (by decide) (by decide) h) (by decide)
    · exact absurd h (by decide)

theorem Keeps.placeOf {j : Journal} {path : String} (h : j.Keeps path) (home : Place) :
    ∃ name, IsName name ∧ placeOf home path = placeOf home j.dir ++ [name] := by
  have hjoin {name : String} (hn : IsName name) : ∃ name', IsName name' ∧
      Disk.placeOf home (Path.join j.dir name) = Disk.placeOf home j.dir ++ [name'] :=
    ⟨name, hn, placeOf_join hn.ordinary home⟩
  cases h with
  | log => exact hjoin (.inl rfl)
  | report => exact hjoin (.inr (.inl rfl))
  | attempt number => exact hjoin (.inr (.inr ⟨number, rfl⟩))

theorem Keeps.placeOf_ne {j : Journal} {path other name : String} (h : j.Keeps path)
    (ho : Path.fileName? other = some name) (hn : ¬ IsName name) (home : Place) :
    Disk.placeOf home other ≠ Disk.placeOf home path := by
  obtain ⟨name', hname', hp⟩ := h.placeOf home
  rw [hp, placeOf_fileName ho home]
  intro he
  exact hn (List.singleton_inj.1 (List.append_inj_right' he rfl) ▸ hname')

end Anneal.Journal
