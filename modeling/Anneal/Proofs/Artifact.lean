import Anneal.Proofs.Disk.Operations

/-! Replacing an artifact: the path holds the new text, or all files but the one beside the path are
as they were. -/

namespace Anneal.Artifact

open Anneal.Disk

variable {d d' : Disk} {path text : String} {places : List Place}

theorem makeParent_changes {r : Except OsError Unit} (h : makeParent d path = (r, d')) :
    Changes places d d' := by
  unfold makeParent at h
  split at h
  · cases h
    exact .refl d
  · split at h
    · cases h
      exact .refl d
    · exact (makeChain_makes h).changes

theorem writeAtomic_holds (h : writeAtomic d path text = (.ok (), d')) :
    d'.Holds path (Text.encode text) := by
  unfold writeAtomic at h
  split at h
  · cases h
  · split at h
    · cases h
    next hw => exact rename_holds h (writeBytes_holds hw)

theorem writeAtomic_changes {r : Except OsError Unit} (h : writeAtomic d path text = (r, d')) :
    Changes [placeOf d.home (temporary path), placeOf d.home path] d d' := by
  unfold writeAtomic at h
  split at h
  next hp =>
    cases h
    exact makeParent_changes hp
  next m hp =>
    have hp : Changes [placeOf d.home (temporary path), placeOf d.home path] d m :=
      makeParent_changes hp
    split at h
    next m' hw =>
      cases h
      exact hp.trans (hp.home ▸ (writeBytes_changes hw).mono (by simp))
    next m' hw =>
      have hw := writeBytes_changes hw
      rw [hp.home] at hw
      have hm' := hp.trans (hw.mono (by simp))
      refine hm'.trans ?_
      rw [← hm'.home]
      exact rename_changes h

theorem writeAtomic_changes_of_error {e : OsError}
    (h : writeAtomic d path text = (.error e, d')) :
    Changes [placeOf d.home (temporary path)] d d' := by
  unfold writeAtomic at h
  split at h
  next hp =>
    cases h
    exact makeParent_changes hp
  next m hp =>
    have hp : Changes [placeOf d.home (temporary path)] d m := makeParent_changes hp
    split at h
    next hw =>
      cases h
      exact hp.trans (hp.home ▸ writeBytes_changes hw)
    next m' hw =>
      exact (hp.trans (hp.home ▸ writeBytes_changes hw)).trans (rename_changes_of_error h)

theorem writeAtomic_keeps {content : Text.Bytes} {e : OsError} (hd : d.Holds path content)
    (h : writeAtomic d path text = (.error e, d')) : d'.Holds path content := by
  refine hd.changes (writeAtomic_changes_of_error h) ?_
  rw [List.mem_singleton]
  exact (placeOf_temporary_ne d.home path).symm

end Anneal.Artifact
