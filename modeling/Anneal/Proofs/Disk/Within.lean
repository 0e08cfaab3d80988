import Anneal.Proofs.Disk.Operations

/-! Where an operation on files changes something, and what the creation of directories adds. A
directory appears only where there was nothing, and only at the places of the paths that are
created, so no file comes or goes. The disks that such a chain goes through are listed: others may
look at any of them. -/

namespace Anneal.Disk

open Anneal.Text (Bytes)

variable {d m d' : Disk} {path : String} {p : Place} {places places' : List Place}

/-- The file at a place, if there is one, and whether it can be executed. -/
def file? (d : Disk) (p : Place) : Option (Bytes × Bool) :=
  match d.node? p with
  | some (.file content x) => some (content, x)
  | _ => none

theorem file?_of_node (h : d'.node? p = d.node? p) : d'.file? p = d.file? p := by
  rw [file?, h, file?]

theorem file?_eq_none (h : ∀ content x, d.node? p ≠ some (.file content x)) :
    d.file? p = none := by
  unfold file?
  split
  next content x hn => exact absurd hn (h content x)
  next => rfl

structure Within (places : List Place) (d d' : Disk) : Prop where
  home : d'.home = d.home
  node : ∀ p, p ∉ places → d'.node? p = d.node? p

theorem Within.refl (d : Disk) : Within places d d := ⟨rfl, fun _ _ => rfl⟩

theorem within_ticked (d : Disk) : Within places d d.ticked := ⟨rfl, fun _ _ => rfl⟩

theorem Within.mono (h : Within places d d') (hs : places ⊆ places') : Within places' d d' :=
  ⟨h.home, fun p hp => h.node p fun hm => hp (hs hm)⟩

theorem Within.trans (h : Within places d m) (h' : Within places m d') : Within places d d' where
  home := h'.home.trans h.home
  node p hp := (h'.node p hp).trans (h.node p hp)

theorem within_set (d : Disk) (p : Place) (n : Node) : Within [p] d (d.set p n) where
  home := rfl
  node q hq := by rw [node?_set, if_neg (by simpa using hq)]

theorem within_erase (d : Disk) (p : Place) : Within [p] d (d.erase p) where
  home := rfl
  node q hq := by rw [node?_erase, if_neg (by simpa using hq)]

theorem putNow_within (d : Disk) (path : String) (update : Bytes → Bytes) :
    Within [placeOf d.home path] d (d.ticked.putNow path update).2 := by
  cases hp : d.ticked.putNow path update with
  | mk r d' =>
    apply (within_ticked d).trans
    obtain ⟨_, rfl, rfl⟩ | ⟨t, x, hl, -, -, -, rfl⟩ := putNow_spec hp
    · exact .refl _
    · rw [show placeOf d.home path = t.place from (locate_place hl).symm]
      exact within_set _ _ _

theorem writeBytes_within {content : Bytes} {r : Except OsError Unit}
    (h : d.writeBytes path content = (r, d')) : Within [placeOf d.home path] d d' := by
  obtain ⟨_, -, rfl⟩ | h := attempt_spec h
  · exact putNow_within d path _
  · have := putNow_within d path fun _ => content
    rwa [h] at this

theorem rename_error {source target : String} {e : OsError}
    (h : d.rename source target = (.error e, d')) : d' = d.ticked := by
  obtain ⟨_, -, rfl⟩ | h := rename_spec h
  · rfl
  · obtain ⟨_, -, rfl⟩ | ⟨_, _, _, _, -, -, -, -, -, -, -, hr, -⟩ := renameNow_spec h
    · rfl
    · cases hr

theorem rename_within {source target : String} {r : Except OsError Unit}
    (h : d.rename source target = (r, d')) :
    Within [placeOf d.home source, placeOf d.home target] d d' := by
  obtain ⟨_, -, rfl⟩ | h := rename_spec h
  · exact within_ticked d
  · apply (within_ticked d).trans
    obtain ⟨_, -, rfl⟩ | ⟨s, t, content, x, hs, ht, -, -, -, -, -, -, rfl⟩ := renameNow_spec h
    · exact .refl _
    · rw [show placeOf d.home source = s.place from (locate_place hs).symm,
        show placeOf d.home target = t.place from (locate_place ht).symm]
      split
      · exact .refl _
      · exact ((within_set _ _ _).mono (by simp)).trans ((within_erase _ _).mono (by simp))

theorem rename_leaves {source target : String}
    (h : d.rename source target = (.ok (), d'))
    (hne : placeOf d.home source ≠ placeOf d.home target) :
    d'.node? (placeOf d.home source) = none := by
  obtain ⟨_, hr, -⟩ | h := rename_spec h
  · cases hr
  · obtain ⟨_, hr, -⟩ | ⟨s, t, _, _, hs, ht, -, -, -, -, -, -, rfl⟩ := renameNow_spec h
    · cases hr
    · rw [show placeOf d.home source = s.place from (locate_place hs).symm,
        show placeOf d.home target = t.place from (locate_place ht).symm] at *
      rw [if_neg hne, node?_erase, if_pos rfl]

/-- A directory is created where there was nothing, or nothing is done. -/
theorem makeDir_spec {r : Except OsError Unit} (h : d.makeDir path = (r, d')) :
    d' = d.ticked ∨ ∃ t, d.ticked.locate path = .ok t ∧ t.named = true ∧
      d.node? t.place = none ∧ r = .ok () ∧ d' = d.ticked.set t.place .directory := by
  obtain ⟨_, -, rfl⟩ | h := attempt_spec h
  · exact .inl rfl
  · unfold makeDirNow at h
    split at h
    · cases h
      exact .inl rfl
    next t hl =>
      split at h
      · cases h
        exact .inl rfl
      next hnamed =>
        split at h
        · cases h
          exact .inl rfl
        next hnone =>
          cases h
          exact .inr ⟨t, hl, by simpa using hnamed, hnone, rfl, rfl⟩

theorem makeDir_elsewhere {r : Except OsError Unit} (h : d.makeDir path = (r, d'))
    (hp : p ≠ placeOf d.home path) : d'.node? p = d.node? p := by
  obtain rfl | ⟨t, hl, -, -, -, rfl⟩ := makeDir_spec h
  · rfl
  · rw [node?_set, if_neg]
    · rfl
    · rwa [locate_place hl]

theorem makeDir_file? {r : Except OsError Unit} (h : d.makeDir path = (r, d')) (p : Place) :
    d'.file? p = d.file? p := by
  obtain rfl | ⟨t, -, -, hn, -, rfl⟩ := makeDir_spec h
  · rfl
  · by_cases hp : p = t.place
    · rw [hp, file?_eq_none, file?_eq_none]
      · simp [hn]
      · simp [node?_set]
    · apply file?_of_node
      rw [node?_set, if_neg hp]
      rfl

theorem Makes.file? {paths : List String} (h : Makes paths d d') (p : Place) :
    d'.file? p = d.file? p := by
  induction h with
  | none => rfl
  | next _ _ _ hm ih => rw [makeDir_file? hm, ih]

theorem Makes.elsewhere {paths : List String} (h : Makes paths d d')
    (hp : ∀ path ∈ paths, path.isEmpty = false → p ≠ placeOf d.home path) :
    d'.node? p = d.node? p := by
  induction h with
  | none => rfl
  | @next m d' path r hm hpath hne hmake ih =>
    have hchanges : Changes [] d m := hm.changes
    have hhome := hchanges.home
    rw [makeDir_elsewhere hmake (hhome ▸ hp path hpath hne), ih]

def chainStates (d : Disk) : List String → List Disk
  | [] => [d]
  | path :: parents =>
    if path.isEmpty then [d]
    else d :: match d.makeDir path with
      | (.ok (), m) => [m]
      | (.error .notFound, m) => chainStates m parents ++ match makeChain m parents with
        | (.error _, _) => []
        | (.ok (), n) => [(n.makeDir path).2]
      | (.error _, m) => [m]

theorem chainStates_getLast? (d : Disk) (paths : List String) :
    (d.chainStates paths).getLast? = some (d.makeChain paths).2 := by
  induction paths generalizing d with
  | nil => rfl
  | cons path parents ih =>
    rw [chainStates, makeChain]
    by_cases hempty : path.isEmpty = true
    · rw [if_pos hempty, if_pos hempty]
      rfl
    · rw [if_neg hempty, if_neg hempty]
      cases hm : d.makeDir path with
      | mk r m =>
        cases r with
        | ok u => rfl
        | error e =>
          by_cases he : e = .notFound
          · subst he
            have hrest := ih m
            cases hc : m.makeChain parents with
            | mk r n =>
              rw [hc] at hrest
              cases r with
              | error e => simp [List.getLast?_cons, hrest, hc]
              | ok u =>
                simp only [hc, List.getLast?_cons, List.getLast?_append]
                cases n.makeDir path with
                | mk r k => cases r <;> simp [apply_ite Prod.snd]
          · cases e <;> first | exact absurd rfl he | simp [apply_ite Prod.snd]

theorem makes_of_mem_chainStates {all paths : List String} {d₀ : Disk} (h₀ : Makes all d₀ d)
    (hs : paths ⊆ all) (h : m ∈ d.chainStates paths) : Makes all d₀ m := by
  induction paths generalizing d m with
  | nil =>
    obtain rfl := List.mem_singleton.1 h
    exact h₀
  | cons path parents ih =>
    obtain ⟨hpath, hparents⟩ := List.cons_subset.1 hs
    rw [chainStates] at h
    split at h
    · obtain rfl := List.mem_singleton.1 h
      exact h₀
    next hne =>
      have hne := Bool.eq_false_iff.2 hne
      obtain rfl | h := List.mem_cons.1 h
      · exact h₀
      · split at h
        next hm =>
          obtain rfl := List.mem_singleton.1 h
          exact h₀.next hpath hne hm
        next hm =>
          have hm := h₀.next hpath hne hm
          obtain h | h := List.mem_append.1 h
          · exact ih hm hparents h
          · split at h
            next => cases h
            next n hn =>
              obtain rfl := List.mem_singleton.1 h
              exact (hm.chain hparents hn).next hpath hne rfl
        next hm =>
          obtain rfl := List.mem_singleton.1 h
          exact h₀.next hpath hne hm

end Anneal.Disk
