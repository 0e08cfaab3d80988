import Anneal.Proofs.Artifact
import Anneal.Proofs.Disk.Names
import Anneal.Proofs.Disk.Way

/-! Replacing a file as others see it. They may look at the disk between any two operations, and
while the text is being written. Up to the renaming, the path leads to what was there before; behind
it, to the whole new text. -/

namespace Anneal.Artifact

open Disk
open Anneal.Text (Bytes)

variable {d m n d' : Disk} {path text name : String} {r : Except OsError Unit}

def parentStates (d : Disk) (path : String) : List Disk :=
  match Path.parent? path with
  | none => [d]
  | some parent =>
    if parent.isEmpty then [d] else d.chainStates (ancestors parent.length parent)

def writeStates (d : Disk) (path : String) (content : Bytes) : List Disk :=
  (List.range (content.length + 1)).map
      (fun n => (d.ticked.putNow path fun _ => content.take n).2) ++
    [(d.writeBytes path content).2]

/-- The disks that others may see while a text is put at a path, from the first to the last. -/
def states (d : Disk) (path text : String) : List Disk :=
  parentStates d path ++ match makeParent d path with
    | (.error _, _) => []
    | (.ok (), m) =>
      writeStates m (temporary path) (Text.encode text) ++
        match m.writeText (temporary path) text with
        | (.error _, _) => []
        | (.ok (), n) => [(n.rename (temporary path) path).2]

theorem parentStates_getLast? (d : Disk) (path : String) :
    (parentStates d path).getLast? = some (makeParent d path).2 := by
  unfold parentStates makeParent
  cases Path.parent? path with
  | none => rfl
  | some parent =>
    dsimp only
    split
    · rfl
    · exact chainStates_getLast? _ _

/-- The last of the disks is the one that is left. -/
theorem states_getLast? (d : Disk) (path text : String) :
    (states d path text).getLast? = some (writeAtomic d path text).2 := by
  have hparent := parentStates_getLast? d path
  unfold states writeAtomic
  cases hm : makeParent d path with
  | mk r m =>
    rw [hm] at hparent
    cases r with
    | error e => simpa using hparent
    | ok u =>
      dsimp only
      cases hn : m.writeText (temporary path) text with
      | mk r n =>
        have hwritten : (m.writeBytes (temporary path) (Text.encode text)).2 = n :=
          congrArg Prod.snd hn
        cases r <;> simp [writeStates, List.getLast?_append, hwritten]

structure Underway (d : Disk) (path : String) (m : Disk) : Prop where
  changes : Changes [placeOf d.home (temporary path)] d m
  file : ∀ p, p ≠ placeOf d.home (temporary path) → m.file? p = d.file? p
  node : ∀ name, Path.fileName? path = some name → Settled d path →
    m.node? (placeOf d.home path) = d.node? (placeOf d.home path)

theorem parentStates_makes (h : m ∈ parentStates d path) :
    ∃ paths, (∀ other ∈ paths, Above path other) ∧ Makes paths d m := by
  have hnone (h : m ∈ [d]) : ∃ paths, (∀ other ∈ paths, Above path other) ∧ Makes paths d m := by
    obtain rfl := List.mem_singleton.1 h
    exact ⟨[], List.forall_mem_nil _, .none⟩
  unfold parentStates at h
  split at h
  · exact hnone h
  next parent hp =>
    split at h
    · exact hnone h
    · exact ⟨_, fun _ ho => above_of_ancestor hp ho,
        makes_of_mem_chainStates .none (List.Subset.refl _) h⟩

theorem underway_parent (h : m ∈ parentStates d path) : Underway d path m := by
  obtain ⟨paths, habove, hmakes⟩ := parentStates_makes h
  exact ⟨hmakes.changes, fun p _ => hmakes.file? p,
    fun _ hname hs => hs.node hname habove hmakes⟩

theorem Underway.within (h : Underway d path m)
    (hw : Within [placeOf m.home (temporary path)] m n)
    (hc : Changes [placeOf m.home (temporary path)] m n) : Underway d path n := by
  rw [h.changes.home] at hw hc
  refine ⟨h.changes.trans hc, fun p hp => ?_, fun name hname hs => ?_⟩
  · rw [file?_of_node (hw.node p (by simpa using hp)), h.file p hp]
  · rw [hw.node _ (by simpa using (placeOf_temporary_ne d.home path).symm),
      h.node name hname hs]

theorem Underway.write {content : Bytes} (h : Underway d path m)
    (hn : n ∈ writeStates m (temporary path) content) : Underway d path n := by
  obtain hn | hn := List.mem_append.1 hn
  · obtain ⟨k, -, rfl⟩ := List.mem_map.1 hn
    exact h.within (putNow_within m _ _) (putNow_ticked_changes m _ _)
  · obtain rfl := List.mem_singleton.1 hn
    exact h.within (writeBytes_within rfl) (writeBytes_changes rfl)

theorem Underway.written (h : Underway d path m)
    (hn : m.writeText (temporary path) text = (r, n)) : Underway d path n :=
  h.within (writeBytes_within hn) (writeBytes_changes hn)

theorem Underway.file? (h : Underway d path m) :
    m.file? (placeOf d.home path) = d.file? (placeOf d.home path) :=
  h.file _ (placeOf_temporary_ne d.home path).symm

theorem Underway.read {content : Bytes} (h : Underway d path m) (hd : d.Holds path content) :
    m.Holds path content := by
  refine hd.changes h.changes ?_
  rw [List.mem_singleton]
  exact (placeOf_temporary_ne d.home path).symm

structure Replaced (d : Disk) (path text : String) (d' : Disk) : Prop where
  changes : Changes [placeOf d.home (temporary path), placeOf d.home path] d d'
  holds : d'.Holds path (Text.encode text)
  gone : d'.node? (placeOf d.home (temporary path)) = none
  file : ∀ p, p ≠ placeOf d.home path → p ≠ placeOf d.home (temporary path) →
    d'.file? p = d.file? p

theorem Underway.rename (h : Underway d path m)
    (hm : m.Holds (temporary path) (Text.encode text))
    (hr : m.rename (temporary path) path = (r, d')) :
    (∃ e, r = .error e ∧ Underway d path d') ∨ r = .ok () ∧ Replaced d path text d' := by
  have hhome := h.changes.home
  cases r with
  | error e =>
    obtain rfl := rename_error hr
    exact .inl ⟨e, rfl, h.within (within_ticked m) (changes_ticked m)⟩
  | ok u =>
    have hwithin := rename_within hr
    have hchanges := rename_changes hr
    have hgone := rename_leaves hr (placeOf_temporary_ne m.home path)
    rw [hhome] at hwithin hchanges hgone
    refine .inr ⟨rfl, (h.changes.mono (by simp)).trans hchanges, rename_holds hr hm, hgone,
      fun p hpath htmp => ?_⟩
    rw [file?_of_node (hwithin.node p (by simp [hpath, htmp])), h.file p htmp]

theorem makeParent_underway (h : makeParent d path = (r, m)) : Underway d path m := by
  have hlast := parentStates_getLast? d path
  rw [h] at hlast
  exact underway_parent (List.mem_of_getLast? hlast)

theorem writeAtomic_spec (h : writeAtomic d path text = (r, d')) :
    (∃ e, r = .error e ∧ Underway d path d') ∨ r = .ok () ∧ Replaced d path text d' := by
  unfold writeAtomic at h
  split at h
  next hm =>
    cases h
    exact .inl ⟨_, rfl, makeParent_underway hm⟩
  next m hm =>
    have hparent := makeParent_underway hm
    split at h
    next hn =>
      cases h
      exact .inl ⟨_, rfl, hparent.written hn⟩
    next n hn => exact (hparent.written hn).rename (writeBytes_holds hn) h

theorem mem_states (h : m ∈ states d path text) :
    Underway d path m ∨ Replaced d path text m := by
  obtain h | h := List.mem_append.1 h
  · exact .inl (underway_parent h)
  split at h
  next => cases h
  next k hk =>
    have hparent := makeParent_underway hk
    obtain h | h := List.mem_append.1 h
    · exact .inl (hparent.write h)
    split at h
    next => cases h
    next l hl =>
      obtain rfl := List.mem_singleton.1 h
      obtain ⟨-, -, hend⟩ | ⟨-, hend⟩ := (hparent.written hl).rename (writeBytes_holds hl) rfl
      · exact .inl hend
      · exact .inr hend

/-- The file at the path, or that there is none, is as it was. Where the directories above the path
cannot come to lie there, so is whatever else is there. -/
structure Kept (d : Disk) (path : String) (m : Disk) : Prop where
  file : m.file? (placeOf d.home path) = d.file? (placeOf d.home path)
  read : ∀ content, d.Holds path content → m.Holds path content
  node : Settled d path → m.node? (placeOf d.home path) = d.node? (placeOf d.home path)

theorem Underway.kept (hname : Path.fileName? path = some name) (h : Underway d path m) :
    Kept d path m :=
  ⟨h.file?, fun _ hd => h.read hd, h.node name hname⟩

/-- Whichever of its operations fail, a replacement puts the whole text at the path, below
directories that are all there, or leaves what was there; nobody sees anything else on the way. All
other files but the one beside the path stay as they are. -/
theorem writeAtomic_all_or_nothing (hname : Path.fileName? path = some name)
    (h : writeAtomic d path text = (r, d')) :
    let place := placeOf d.home path
    let sibling := place.dropLast ++ [name ++ ".tmp"]
    (r = .ok () → d'.Holds path (Text.encode text) ∧
      (d.node? [] = some .directory →
        ∀ parent, Above path parent → parent.isEmpty = false → d'.isDir parent = true) ∧
      d'.node? sibling = none) ∧
    (∀ e, r = .error e → Kept d path d') ∧
    (states d path text).getLast? = some d' ∧
    (∀ m ∈ states d path text, Kept d path m ∨ m.Holds path (Text.encode text)) ∧
    ∀ m ∈ states d path text, ∀ p, p ≠ place → p ≠ sibling → m.file? p = d.file? p := by
  intro place sibling
  have hsibling : placeOf d.home (temporary path) = sibling := placeOf_temporary hname d.home
  have hlast := states_getLast? d path text
  rw [h] at hlast
  refine ⟨?_, ?_, hlast, fun m hm => ?_, fun m hm p hp hs => ?_⟩
  · rintro rfl
    obtain ⟨_, hr, -⟩ | ⟨-, hend⟩ := writeAtomic_spec h
    · cases hr
    · obtain ⟨t, _, hl, -⟩ := holds_iff.1 hend.holds
      refine ⟨hend.holds, fun hroot parent ha hne => ?_, hsibling ▸ hend.gone⟩
      exact isDir_above (hend.changes.directory _ hroot) hname hl ha hne
  · rintro e rfl
    obtain ⟨_, -, hend⟩ | ⟨hr, -⟩ := writeAtomic_spec h
    · exact hend.kept hname
    · cases hr
  · obtain hm | hm := mem_states hm
    · exact .inl (hm.kept hname)
    · exact .inr hm.holds
  · rw [← hsibling] at hs
    obtain hm | hm := mem_states hm
    · exact hm.file p hs
    · exact hm.file p hp hs

def staleDisk : Disk :=
  { Disk.empty with
    nodes := Disk.empty.nodes ++
      [(["tmp", "work", "out"], .directory),
        (["tmp", "work", "out", "main.rs"], .file (Text.encode "old\n") false),
        (["tmp", "work", "out", "main.rs.tmp"], .file (Text.encode "left behind") false)]
    outage := fun k => if k = 2 then some ⟨.permissionDenied, 0⟩ else none }

theorem staleDisk_keeps_old :
    let old := Text.encode "old\n"
    let after := writeAtomic staleDisk "out/main.rs" "new\n"
    after.1 = .error .permissionDenied ∧ after.2.Holds "out/main.rs" old ∧
      ∀ m ∈ states staleDisk "out/main.rs" "new\n",
        m.Holds "out/main.rs" old ∨ m.Holds "out/main.rs" (Text.encode "new\n") := by
  intro old after
  have hname : Path.fileName? "out/main.rs" = some "main.rs" := by decide +kernel
  have hold : staleDisk.readBytesNow "out/main.rs" = .ok old := by decide +kernel
  have herror : after.1 = .error .permissionDenied := by decide +kernel
  obtain ⟨-, hkept, -, hseen, -⟩ := writeAtomic_all_or_nothing hname
    (show writeAtomic staleDisk "out/main.rs" "new\n" = (after.1, after.2) from rfl)
  refine ⟨herror, (hkept _ herror).read old hold, fun m hm => ?_⟩
  obtain hm | hm := hseen m hm
  · exact .inl (hm.read old hold)
  · exact .inr hm

/-- The directory that is created on the way to a path may lie where the path leads, if it turns
back. -/
theorem turning_back_leaves_directory :
    let after := writeAtomic Disk.empty "x/../x" "new\n"
    Path.fileName? "x/../x" = some "x" ∧ Disk.empty.exists? "x/../x" = false ∧
      after.1 = .error .isDirectory ∧ after.2.isDir "x/../x" = true := by
  decide +kernel

end Anneal.Artifact
