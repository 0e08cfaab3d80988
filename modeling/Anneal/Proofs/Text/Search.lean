import Anneal.Proofs.Lists
import Anneal.Text.Search

/-! The place that a search finds is the first: the text is put back together from the parts, and
nowhere before the end of the place is there another one. Replacing treats every place so. -/

namespace Anneal.Text

variable {needle before after cs : List Char}

theorem breakOn_eq_none_iff : breakOn needle cs = none ↔ ¬ needle <:+: cs := by
  induction cs with
  | nil => cases needle <;> simp [breakOn]
  | cons c cs ih =>
    rw [breakOn, List.infix_cons_iff]
    split
    next hp => simp [List.isPrefixOf_iff_prefix.1 hp]
    next hp =>
      rw [List.isPrefixOf_iff_prefix] at hp
      simp [hp, ih]

theorem breakOn_eq_some_iff (hn : needle ≠ []) :
    breakOn needle cs = some (before, after) ↔
      cs = before ++ needle ++ after ∧ ¬ needle <:+: (before ++ needle).dropLast := by
  induction cs generalizing before with
  | nil => simp [breakOn, hn]
  | cons c cs ih =>
    rw [breakOn]
    split
    next hp =>
      obtain ⟨rest, hrest⟩ := List.isPrefixOf_iff_prefix.1 hp
      rw [← hrest, List.drop_left, Option.some.injEq, Prod.mk.injEq]
      constructor
      · rintro ⟨rfl, rfl⟩
        exact ⟨rfl, not_infix_dropLast hn⟩
      · rintro ⟨heq, hfirst⟩
        -- Behind any other beginning the prefix would be an earlier place.
        cases before with
        | nil => exact ⟨rfl, List.append_cancel_left heq⟩
        | cons b before =>
          refine absurd (List.IsPrefix.isInfix ?_) hfirst
          rw [List.dropLast_append_of_ne_nil hn]
          refine List.prefix_of_prefix_length_le (List.prefix_append needle rest) ?_ ?_
          · rw [heq, ← List.dropLast_append_of_ne_nil hn]
            exact (List.dropLast_prefix _).trans ⟨after, rfl⟩
          · simp
            omega
    next hp =>
      rw [List.isPrefixOf_iff_prefix] at hp
      rw [Option.map_eq_some_iff]
      constructor
      · rintro ⟨⟨b, a⟩, hb, heq⟩
        obtain ⟨rfl, rfl⟩ := Prod.mk.inj heq
        obtain ⟨rfl, hfirst⟩ := ih.1 hb
        refine ⟨rfl, fun hi => ?_⟩
        rw [List.cons_append, List.dropLast_cons_of_ne_nil (by simp [hn])] at hi
        obtain hi | hi := List.infix_cons_iff.1 hi
        · refine hp (hi.trans ?_)
          exact List.cons_prefix_cons.2 ⟨rfl, (List.dropLast_prefix _).trans ⟨a, rfl⟩⟩
        · exact hfirst hi
      · rintro ⟨heq, hfirst⟩
        cases before with
        | nil => exact absurd ⟨after, heq.symm⟩ hp
        | cons b before =>
          obtain ⟨rfl, rfl⟩ := List.cons.inj heq
          rw [List.cons_append, List.dropLast_cons_of_ne_nil (by simp [hn])] at hfirst
          exact ⟨(before, after), ih.2 ⟨rfl, fun hi => hfirst (List.infix_cons hi)⟩, rfl⟩

theorem not_infix_of_breakOn (hn : needle ≠ []) (h : breakOn needle cs = some (before, after)) :
    ¬ needle <:+: before := by
  obtain ⟨-, hfirst⟩ := (breakOn_eq_some_iff hn).1 h
  rw [List.dropLast_append_of_ne_nil hn] at hfirst
  exact fun hi => hfirst (hi.trans (List.prefix_append _ _).isInfix)

structure FirstPlace (needle cs before after : List Char) : Prop where
  text : cs = before ++ needle ++ after
  first : ∀ front back, cs = front ++ needle ++ back → before.length ≤ front.length

theorem FirstPlace.unique {before' after' : List Char} (h : FirstPlace needle cs before after)
    (h' : FirstPlace needle cs before' after') : before = before' ∧ after = after' := by
  have hlength : before.length = before'.length :=
    Nat.le_antisymm (h.first _ _ h'.text) (h'.first _ _ h.text)
  have htext := h.text.symm.trans h'.text
  rw [List.append_assoc, List.append_assoc] at htext
  obtain ⟨hbefore, hrest⟩ := List.append_inj htext hlength
  exact ⟨hbefore, List.append_cancel_left hrest⟩

theorem firstPlace_of_breakOn (h : breakOn needle cs = some (before, after)) :
    FirstPlace needle cs before after := by
  induction cs generalizing before with
  | nil =>
    rw [breakOn] at h
    split at h
    next hempty =>
      cases h
      rw [List.isEmpty_iff] at hempty
      exact ⟨by simp [hempty], fun _ _ _ => Nat.zero_le _⟩
    next => cases h
  | cons c cs ih =>
    rw [breakOn] at h
    split at h
    next hp =>
      obtain ⟨rest, hrest⟩ := List.isPrefixOf_iff_prefix.1 hp
      rw [← hrest, List.drop_left] at h
      cases h
      exact ⟨hrest.symm, fun _ _ _ => Nat.zero_le _⟩
    next hp =>
      obtain ⟨⟨b, a⟩, hb, heq⟩ := Option.map_eq_some_iff.1 h
      obtain ⟨rfl, rfl⟩ := Prod.mk.inj heq
      have hrest := ih hb
      refine ⟨by rw [hrest.text]; rfl, fun front back hcs => ?_⟩
      cases front with
      | nil => exact absurd (List.isPrefixOf_iff_prefix.2 ⟨back, hcs.symm⟩) hp
      | cons d front =>
        have hfront := hrest.first front back (List.cons.inj hcs).2
        simpa using hfront

theorem breakOn_eq_some_iff_firstPlace :
    breakOn needle cs = some (before, after) ↔ FirstPlace needle cs before after := by
  constructor
  · exact firstPlace_of_breakOn
  · intro h
    cases hb : breakOn needle cs with
    | none => exact absurd ⟨before, after, h.text.symm⟩ (breakOn_eq_none_iff.1 hb)
    | some r =>
      obtain ⟨rfl, rfl⟩ := (firstPlace_of_breakOn hb).unique h
      rfl

theorem breakOn_of_head {c : Char} {rest : List Char} (hc : c ∉ rest)
    (h : ¬ (c :: rest) <:+: before) :
    breakOn (c :: rest) (before ++ (c :: rest) ++ after) = some (before, after) := by
  refine (breakOn_eq_some_iff (by simp)).2 ⟨rfl, ?_⟩
  rw [List.dropLast_append_of_ne_nil (by simp)]
  cases rest with
  | nil => simpa using h
  | cons d rest =>
    have hd : (c :: d :: rest).dropLast = c :: (d :: rest).dropLast := rfl
    rw [hd, infix_append_cons_iff hc, ← hd]
    exact not_or.2 ⟨h, not_infix_dropLast (by simp)⟩

theorem breakOn_of_separator {c : Char} (hn : needle ≠ []) (hc : c ∉ needle)
    (h : ¬ needle <:+: before) :
    breakOn needle (before ++ c :: needle ++ after) = some (before ++ [c], after) := by
  refine (breakOn_eq_some_iff hn).2 ⟨by simp, ?_⟩
  rw [List.dropLast_append_of_ne_nil hn, List.append_assoc, List.singleton_append,
    infix_append_cons_iff_of_not_mem hn hc]
  exact not_or.2 ⟨h, not_infix_dropLast hn⟩

structure Replaced (needle substitute cs ds : List Char) (pieces : List (List Char)) : Prop where
  nonempty : pieces ≠ []
  free : ∀ piece ∈ pieces, ¬ needle <:+: piece
  before : cs = needle.intercalate pieces
  after : ds = substitute.intercalate pieces

theorem intercalate_cons_of_ne_nil (sep piece : List Char) {pieces : List (List Char)}
    (h : pieces ≠ []) :
    sep.intercalate (piece :: pieces) = piece ++ sep ++ sep.intercalate pieces := by
  obtain ⟨next, rest, rfl⟩ := List.exists_cons_of_ne_nil h
  simp [List.intercalate_cons_cons]

theorem replaceChars_replaced (hn : needle ≠ []) (substitute cs : List Char) :
    ∃ pieces, Replaced needle substitute cs (replaceChars needle substitute cs) pieces := by
  fun_induction replaceChars needle substitute cs with
  | case1 cs h => exact absurd h hn
  | case2 cs _ hb =>
    exact ⟨[cs], by simp, by simpa using breakOn_eq_none_iff.1 hb, by simp, by simp⟩
  | case3 cs _ before after hb ih =>
    obtain ⟨pieces, h⟩ := ih
    refine ⟨before :: pieces, by simp, ?_, ?_, ?_⟩
    · exact List.forall_mem_cons.2 ⟨not_infix_of_breakOn hn hb, h.free⟩
    · rw [intercalate_cons_of_ne_nil _ _ h.nonempty, ← h.before]
      exact ((breakOn_eq_some_iff hn).1 hb).1
    · rw [intercalate_cons_of_ne_nil _ _ h.nonempty, ← h.after]

end Anneal.Text
