import Anneal.Proofs.Disk.Below
import Anneal.Proofs.Text.Utf8

/-! Files below a directory that stay there while others are written beside them. A path may be cut
for a while, by a directory on it that is gone; its file is read again as soon as another file of the
directory can be. -/

namespace Anneal.Disk

open Anneal.Text (Bytes)

variable {dir p : Place} {d d' : Disk} {path : String}

theorem content?_eq_some {content : Bytes} :
    d.content? p = some content ↔ ∃ x, d.node? p = some (.file content x) := by
  unfold content?
  constructor
  · intro h
    split at h
    next x hn =>
      cases h
      exact ⟨x, hn⟩
    · cases h
  · rintro ⟨x, hn⟩
    rw [hn]

theorem node?_eq_none_of_nodes (h : ∀ e ∈ d.nodes, ¬ Below dir e.1) (hp : Below dir p) :
    d.node? p = none := by
  cases hn : d.node? p with
  | none => rfl
  | some n =>
    obtain ⟨_, _, hnodes, -⟩ := List.lookup_eq_some_iff.1 hn
    have hmem : (p, n) ∈ d.nodes := by
      rw [hnodes]
      exact List.mem_append_right _ List.mem_cons_self
    exact absurd hp (h _ hmem)

structure Stored (d : Disk) (path : String) (content : Bytes) : Prop where
  content : d.content? (placeOf d.home path) = some content
  reached : ∃ (e : Disk) (t : Target), e.home = d.home ∧ e.locate path = .ok t ∧ t.slash = false

variable {content : Bytes}

theorem Holds.node (h : d.Holds path content) : d.node? (placeOf d.home path) ≠ none := by
  obtain ⟨t, x, hl, -, hn⟩ := holds_iff.1 h
  rw [← locate_place hl, hn]
  exact Option.some_ne_none _

theorem Holds.readText {text : String} (h : d.Holds path (Text.encode text)) :
    d.readTextNow path = .ok text :=
  readTextNow_eq_ok.2 ⟨_, h, Text.decode?_encode text⟩

theorem Holds.exists? (h : d.Holds path content) : d.exists? path = true := by
  obtain ⟨t, x, hl, hs, hn⟩ := holds_iff.1 h
  rw [Disk.exists?, stat, hl]
  dsimp only
  rw [hn, hs]
  rfl

theorem Holds.of_readText {text read : String} (h : d.Holds path (Text.encode text))
    (hr : d.readText path = (.ok read, d')) : read = text := by
  obtain ⟨hchanges, hread⟩ := readText_spec hr
  have htext := hchanges.readTextNow h.readText List.not_mem_nil
  exact Except.ok.inj ((hread read rfl).symm.trans htext)

theorem Holds.stored (h : d.Holds path content) : Stored d path content := by
  obtain ⟨t, x, hl, hs, hn⟩ := holds_iff.1 h
  rw [locate_place hl] at hn
  exact ⟨content?_of_node hn, d, t, rfl, hl, hs⟩

theorem Stored.of_node (h : Stored d path content) (hhome : d'.home = d.home)
    (hn : d'.node? (placeOf d.home path) = d.node? (placeOf d.home path)) :
    Stored d' path content where
  content := by
    have := h.content
    unfold content? at this ⊢
    rwa [hhome, hn]
  reached := by
    rw [hhome]
    exact h.reached

theorem Stored.same (h : Stored d path content) (hs : Same dir d d')
    (hb : Below dir (placeOf d.home path)) : Stored d' path content :=
  h.of_node hs.home (hs.node _ hb)

theorem Stored.puts {other : String} {more : Bytes} (h : Stored d path content)
    (hp : Puts other more d d') (hne : placeOf d.home path ≠ placeOf d.home other) :
    Stored d' path content :=
  h.of_node hp.home (hp.others _ hne)

/-- A file that is stored can be read once a file beside it can. -/
theorem Stored.holds {folder name other : String} {more : Bytes} (hname : Ordinary name)
    (hother : Ordinary other) (h : Stored d (Path.join folder name) content)
    (ho : d.Holds (Path.join folder other) more) : d.Holds (Path.join folder name) content := by
  obtain ⟨u, -, hu, -⟩ := holds_iff.1 ho
  obtain ⟨e, t, hhome, hl, hs⟩ := h.reached
  have hway := locate_join hother hu
  have hlocate : d.locate (Path.join folder name) = .ok t := by
    refine locate_of_walk hl hhome.symm fun before last q hc hw => ?_
    rw [components_join hname] at hc
    obtain ⟨rfl, -⟩ := List.append_inj' hc rfl
    rw [startOf_join hname, hhome] at hw ⊢
    rw [hway, walk_place hw]
    rfl
  obtain ⟨x, hn⟩ := content?_eq_some.1 h.content
  rw [← locate_place hlocate] at hn
  exact holds_iff.2 ⟨t, x, hlocate, hs, hn⟩

end Anneal.Disk
