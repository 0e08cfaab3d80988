import Anneal.Proofs.Artifact
import Anneal.Proofs.Repair.Records
import Anneal.Proofs.Repair.Traced
import Anneal.Proofs.Text.Utf8

/-! The file of the candidate during a repair. Where the calls that the repair makes leave it alone
and the journal is kept in other files, it changes in the writes of the repair only. -/

namespace Anneal.Repair

open Disk
open Anneal.Text (Bytes)

variable {σ : Type} {s : Setup σ} {q : Request} {w w' : World σ} {home : Place}
  {content : Bytes} {first text : String} {es : List (Entry σ)}

structure Found (q : Request) (home : Place) (content : Bytes) (w : World σ) : Prop where
  home : w.disk.home = home
  holds : w.disk.Holds q.candidatePath content

/-- A call of a tool or of the model that leaves the candidate alone. The repair's own writes are
not asked about. -/
def Entry.Spares (q : Request) (e : Entry σ) : Prop :=
  e.call.isWrite = false → ∀ home content, Found q home content e.before →
    Found q home content e.after

def Setup.JournalApart (s : Setup σ) (q : Request) (home : Place) : Prop :=
  ∀ j path, s.journal = some j → j.Keeps path → placeOf home q.candidatePath ≠ placeOf home path

theorem Found.changes {places : List Place} (h : Found q home content w)
    (hd : Changes places w.disk w'.disk) (hp : placeOf home q.candidatePath ∉ places) :
    Found q home content w' where
  home := hd.home.trans h.home
  holds := h.holds.changes hd (h.home.symm ▸ hp)

theorem Found.between (hj : s.JournalApart q home) (hb : Between s q w w')
    (h : Found q home content w) : Found q home content w' := by
  cases hb with
  | reads hr =>
    obtain ⟨d, hd, rfl⟩ := hr
    exact h.changes hd List.not_mem_nil
  | journaled hk =>
    obtain ⟨d, paths, hkeeps, hd, rfl⟩ := hk
    refine h.changes hd fun hm => ?_
    obtain ⟨path, hpath, he⟩ := List.mem_map.1 hm
    obtain ⟨j, hjournal, hpath⟩ := hkeeps path hpath
    rw [h.home] at he
    exact hj j path hjournal hpath he.symm
  | unwritten hw =>
    obtain ⟨d, hd, rfl⟩ := onDisk_eq hw
    exact ⟨(Artifact.writeAtomic_changes hd).home.trans h.home,
      Artifact.writeAtomic_keeps h.holds hd⟩

theorem Found.written (h : Found q home content w)
    (hw : (w.onDisk fun d => Artifact.writeAtomic d q.candidatePath text) = (.ok (), w')) :
    Found q home (Text.encode text) w' := by
  obtain ⟨d, hd, rfl⟩ := onDisk_eq hw
  exact ⟨(Artifact.writeAtomic_changes hd).home.trans h.home, Artifact.writeAtomic_holds hd⟩

def writes (calls : List Call) : List String :=
  calls.filterMap fun
    | .write text => some text
    | _ => none

def lastWritten (first : String) (es : List (Entry σ)) : String :=
  (writes (callsOf es)).getLast?.getD first

theorem writes_append (cs ds : List Call) : writes (cs ++ ds) = writes cs ++ writes ds :=
  List.filterMap_append

theorem writes_eq_nil {calls : List Call} (h : ∀ c ∈ calls, c.isApart = false) :
    writes calls = [] := by
  refine List.filterMap_eq_nil_iff.2 fun c hc => ?_
  have := h c hc
  cases c <;> simp_all [Call.isApart]

theorem lastWritten_cons {e : Entry σ} (h : e.call.isWrite = false) (es : List (Entry σ)) :
    lastWritten first (e :: es) = lastWritten first es := by
  obtain ⟨call, before, after⟩ := e
  cases call <;> first | rfl | cases h

theorem lastWritten_write (es : List (Entry σ)) (w w' : World σ) :
    lastWritten first (⟨.write text, w, w'⟩ :: es) = lastWritten text es := by
  show (text :: writes (callsOf es)).getLast?.getD first = _
  rw [List.getLast?_cons, Option.getD_some]
  rfl

theorem lastWritten_append {fs : List (Entry σ)} (h : writes (callsOf fs) = []) :
    lastWritten first (es ++ fs) = lastWritten first es := by
  rw [lastWritten, callsOf_append, writes_append, h, List.append_nil]
  rfl

/-- The candidate holds what was written last, at any time of a repair whose calls leave it alone. -/
theorem Traced.found (hj : s.JournalApart q home) (h : Traced s q w es w')
    (hes : ∀ e ∈ es, e.Spares q) (hw : Found q home (Text.encode first) w) :
    Found q home (Text.encode (lastWritten first es)) w' := by
  induction h generalizing first with
  | done => exact hw
  | between hb _ ih => exact ih hes (.between hj hb hw)
  | @call e es w' he _ ih =>
    obtain ⟨hspares, hrest⟩ := List.forall_mem_cons.1 hes
    cases hwrite : e.call.isWrite with
    | false =>
      rw [lastWritten_cons hwrite]
      exact ih hrest (hspares hwrite _ _ hw)
    | true =>
      obtain ⟨call, before, after⟩ := e
      cases call with
      | write text =>
        rw [lastWritten_write]
        exact ih hrest (hw.written he)
      | _ => cases hwrite

end Anneal.Repair
