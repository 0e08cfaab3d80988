import Anneal.Proofs.Artifact
import Anneal.Proofs.Disk.Parents

/-! What lies below a directory, and when an operation leaves all of it alone. Replacing a file that
lies elsewhere does: directories are created on the way to the file only, and those that the way
passes below the directory are there already. -/

namespace Anneal

namespace Disk

open Anneal.Text (Bytes)

def Below (dir p : Place) : Prop := dir <+: p ∧ p ≠ dir

instance (dir p : Place) : Decidable (Below dir p) := inferInstanceAs (Decidable (_ ∧ _))

theorem below_concat {dir p : Place} {name : String} : Below dir (p ++ [name]) ↔ dir <+: p := by
  unfold Below
  rw [List.prefix_concat_iff]
  constructor
  · rintro ⟨rfl | h, hne⟩
    · exact absurd rfl hne
    · exact h
  · intro h
    refine ⟨.inr h, fun he => ?_⟩
    have := h.length_le
    rw [← he, List.length_append, List.length_singleton] at this
    omega

/-- Nothing below `dir` differs. -/
structure Same (dir : Place) (d d' : Disk) : Prop where
  home : d'.home = d.home
  node : ∀ p, Below dir p → d'.node? p = d.node? p

variable {dir p : Place} {d d' d'' : Disk} {path : String} {n : Node}

theorem Same.refl (d : Disk) : Same dir d d := ⟨rfl, fun _ _ => rfl⟩

theorem Same.trans (h : Same dir d d') (h' : Same dir d' d'') : Same dir d d'' where
  home := h'.home.trans h.home
  node p hp := (h'.node p hp).trans (h.node p hp)

theorem same_ticked (d : Disk) : Same dir d d.ticked := ⟨rfl, fun _ _ => rfl⟩

theorem same_set (hp : ¬ Below dir p) : Same dir d (d.set p n) where
  home := rfl
  node q hq := by
    rw [node?_set, if_neg]
    rintro rfl
    exact hp hq

theorem same_erase (hp : ¬ Below dir p) : Same dir d (d.erase p) where
  home := rfl
  node q hq := by
    rw [node?_erase, if_neg]
    rintro rfl
    exact hp hq

theorem same_putNow {update : Bytes → Bytes} (hp : ¬ Below dir (placeOf d.home path)) :
    Same dir d (d.putNow path update).2 := by
  cases h : d.putNow path update with
  | mk r d' =>
    obtain ⟨_, rfl, rfl⟩ | ⟨t, x, hl, -, -, -, rfl⟩ := putNow_spec h
    · exact .refl d'
    · exact same_set (locate_place hl ▸ hp)

theorem writeBytes_same {content : Bytes} (hp : ¬ Below dir (placeOf d.home path))
    (h : d.writeBytes path content = (.ok (), d')) : Same dir d d' := by
  obtain ⟨_, hr, -⟩ | h := attempt_spec h
  · cases hr
  · have : Same dir d.ticked (d.ticked.putNow path fun _ => content).2 := same_putNow hp
    rw [h] at this
    exact (same_ticked d).trans this

/-- Each place on a way is a directory. -/
theorem walk_directory {q : Place} {names start : List String} (h : d.walk p names = .ok q)
    (hs : start <+: names) (hne : start ≠ []) :
    d.node? (start.foldl stepInto p) = some .directory := by
  induction names generalizing p start with
  | nil => exact absurd (List.prefix_nil.1 hs) hne
  | cons name rest ih =>
    obtain ⟨x, start, rfl⟩ := List.exists_cons_of_ne_nil hne
    obtain ⟨rfl, hrest⟩ := List.cons_prefix_cons.1 hs
    rw [walk] at h
    dsimp only at h
    split at h
    · cases h
    · split at h
      · cases h
      · cases h
      next hd =>
        by_cases hstart : start = []
        · rw [hstart]
          exact hd
        · rw [List.foldl_cons]
          exact ih h hrest hstart

theorem locate_directory {t : Target} {start : List String} (h : d.locate path = .ok t)
    (hs : start <+: components path) (hne : start ≠ []) (hlt : start ≠ components path) :
    d.node? (start.foldl stepInto (startOf d.home path)) = some .directory := by
  obtain ⟨hc, -⟩ | ⟨before, last, dir, hc, hdir, -⟩ := locate_cases h
  · rw [hc] at hs
    exact absurd (List.prefix_nil.1 hs) hne
  · rw [hc] at hs hlt
    exact walk_directory hdir ((List.prefix_concat_iff.1 hs).resolve_left hlt) hne

theorem locate_join {name : String} {t : Target} {folder : String} (hn : Ordinary name)
    (h : d.locate (Path.join folder name) = .ok t) :
    d.walk (startOf d.home folder) (components folder) = .ok (placeOf d.home folder) := by
  have hcs : components (Path.join folder name) = components folder ++ [name] :=
    components_join hn
  obtain ⟨hc, -⟩ | ⟨before, last, q, hc, hw, -⟩ := locate_cases h
  · rw [hcs] at hc
    simp at hc
  · rw [hcs] at hc
    obtain ⟨rfl, -⟩ := List.append_inj' hc rfl
    rw [startOf_join hn] at hw
    have hq := walk_place hw
    rw [hw, hq]
    rfl

theorem makeDir_same {r : Except OsError Unit} (h : d.makeDir path = (r, d'))
    (hp : components path ≠ [] → Below dir (placeOf d.home path) →
      d.node? (placeOf d.home path) = some .directory) : Same dir d d' := by
  obtain ⟨_, -, rfl⟩ | h := attempt_spec h
  · exact same_ticked d
  · refine (same_ticked d).trans ?_
    unfold makeDirNow at h
    split at h
    · cases h
      exact .refl _
    next t hl =>
      have hplace : t.place = placeOf d.ticked.home path := locate_place hl
      split at h
      · cases h
        exact .refl _
      next hnamed =>
        split at h
        · cases h
          exact .refl _
        next hnone =>
          cases h
          apply same_set
          intro hbelow
          have hne : components path ≠ [] := by
            intro hc
            obtain ⟨-, -, hn⟩ | ⟨_, _, _, hc', -⟩ := locate_cases hl
            · simp [hn] at hnamed
            · simp [hc] at hc'
          have hdir : d.ticked.node? t.place = some .directory := by
            rw [hplace] at hbelow ⊢
            exact hp hne hbelow
          rw [hnone] at hdir
          cases hdir

theorem Makes.same {paths : List String} (h : Makes paths d d')
    (hp : ∀ path ∈ paths, path.isEmpty = false → components path ≠ [] →
      Below dir (placeOf d.home path) → d.node? (placeOf d.home path) = some .directory) :
    Same dir d d' := by
  induction h with
  | none => exact .refl d
  | @next m d' path r h hpath hne hm ih =>
    have hkept : Changes [] d m := h.changes
    refine ih.trans (makeDir_same hm fun hcs hbelow => ?_)
    rw [hkept.home] at hbelow ⊢
    exact hkept.directory _ (hp path hpath hne hcs hbelow)

end Disk

namespace Artifact

open Disk

variable {dir : Place} {d₀ d d' : Disk} {path text : String} {t : Target}

theorem makeParent_same (hs : Same dir d₀ d) (hl : d₀.locate path = .ok t)
    (hp : ¬ Below dir (placeOf d.home path)) (h : makeParent d path = (.ok (), d')) :
    Same dir d d' := by
  unfold makeParent at h
  split at h
  · cases h
    exact .refl d
  next parent hparent =>
    split at h
    · cases h
      exact .refl d
    · refine (makeChain_makes h).same fun other ho hne hcs hbelow => ?_
      have hthrough := (through_parent hparent).trans (through_ancestor ho)
      have hplace : placeOf d.home other =
          (components other).foldl stepInto (startOf d₀.home path) := by
        rw [placeOf, hs.home, hthrough.startOf hne]
      by_cases hall : components other = components path
      · -- The whole way ends at the file, which lies elsewhere.
        refine absurd ?_ hp
        rwa [placeOf, ← hall, ← hthrough.startOf hne]
      · rw [hs.node _ hbelow, hplace]
        exact locate_directory hl hthrough.components hcs hall

/-- Only a path with a file name can be replaced: the file beside another one would lie in it, and
it would have to be a directory. -/
theorem fileName_of_writeAtomic (h : writeAtomic d path text = (.ok (), d')) :
    ∃ name, Path.fileName? path = some name := by
  cases hname : Path.fileName? path with
  | some name => exact ⟨name, rfl⟩
  | none =>
    exfalso
    unfold writeAtomic at h
    split at h
    · cases h
    next m hm =>
      split at h
      · cases h
      next n hn =>
        obtain ⟨_, hr, -⟩ | h := rename_spec h
        · cases hr
        · obtain ⟨_, hr, -⟩ | ⟨s, t, c, x, -, ht, hnamed, -, -, -, hdir, -⟩ := renameNow_spec h
          · cases hr
          · obtain ⟨u, y, hu, -⟩ := holds_iff.1 (writeBytes_holds hn)
            have htemporary : temporary path = Path.join path ".tmp" := by
              rw [temporary, Path.withFileName, hname]
              rfl
            rw [htemporary] at hu
            have hway := locate_join ⟨by decide, by decide, by decide, by decide⟩ hu
            obtain ⟨-, -, hn⟩ | ⟨before, last, q, hc, -⟩ := locate_cases ht
            · rw [hnamed] at hn
              cases hn
            · refine hdir ?_
              rw [locate_place ht]
              have hticked : Changes [] n n.ticked := changes_ticked n
              exact walk_directory (hticked.walk hway) List.prefix_rfl (by simp [hc])

theorem temporary_below {name : String} (hname : Path.fileName? path = some name) (home : Place) :
    Below dir (placeOf home (temporary path)) ↔ Below dir (placeOf home path) := by
  have htmp := ordinary_tmp (ordinary_fileName hname).2.slash
  rw [temporary, Path.withFileName, hname]
  dsimp only [Option.getD_some]
  rw [placeOf_join htmp, placeOf_parent hname, below_concat, below_concat]

/-- Replacing a file that could be reached leaves what lies below another directory alone. -/
theorem writeAtomic_same (hs : Same dir d₀ d) (hl : d₀.locate path = .ok t)
    (hp : ¬ Below dir (placeOf d.home path)) (h : writeAtomic d path text = (.ok (), d')) :
    Same dir d d' := by
  obtain ⟨name, hname⟩ := fileName_of_writeAtomic h
  unfold writeAtomic at h
  split at h
  · cases h
  next m hm =>
    have hparent := makeParent_same hs hl hp hm
    split at h
    · cases h
    next n hn =>
      rw [← hparent.home] at hp
      have hwrite := writeBytes_same ((temporary_below hname m.home).not.2 hp) hn
      rw [← hwrite.home] at hp
      refine (hparent.trans hwrite).trans ((same_ticked n).trans ?_)
      obtain ⟨_, hr, -⟩ | h := rename_spec h
      · cases hr
      · obtain ⟨_, hr, -⟩ | ⟨source, target, c, x, hsource, htarget, -, -, -, -, -, -, rfl⟩ :=
          renameNow_spec h
        · cases hr
        · have hsource : source.place = placeOf n.ticked.home (temporary path) := locate_place hsource
          have htarget : target.place = placeOf n.ticked.home path := locate_place htarget
          split
          · exact .refl _
          · refine (same_set ?_).trans (same_erase ?_)
            · rw [htarget]
              exact hp
            · rw [hsource, temporary_below hname]
              exact hp

end Artifact
end Anneal
