import Anneal.Proofs.Text.Utf8
import Anneal.Text.Blank
import Mathlib.Data.List.TakeWhile

/-! What trimming takes away is blank, and blank text has bytes of its own. -/

namespace Anneal.Text

theorem trimStartChars_spec (cs : List Char) :
    ∃ before, (∀ c ∈ before, isBlank c = true) ∧ cs = before ++ trimStartChars cs :=
  ⟨cs.takeWhile isBlank, fun _ hc => List.mem_takeWhile_imp hc,
    List.takeWhile_append_dropWhile.symm⟩

theorem trimEndChars_spec (cs : List Char) :
    ∃ after, (∀ c ∈ after, isBlank c = true) ∧ cs = trimEndChars cs ++ after := by
  obtain ⟨before, hb, hcs⟩ := trimStartChars_spec cs.reverse
  refine ⟨before.reverse, fun c hc => hb c (List.mem_reverse.1 hc), ?_⟩
  rw [trimEndChars, ← List.reverse_append]
  exact List.reverse_eq_iff.1 hcs

theorem trimStartChars_append {before : List Char} (h : ∀ c ∈ before, isBlank c = true)
    (cs : List Char) : trimStartChars (before ++ cs) = trimStartChars cs :=
  List.dropWhile_append_of_pos h

theorem trimEndChars_append {after : List Char} (h : ∀ c ∈ after, isBlank c = true)
    (cs : List Char) : trimEndChars (cs ++ after) = trimEndChars cs := by
  have hr : ∀ c ∈ after.reverse, isBlank c = true := fun c hc => h c (List.mem_reverse.1 hc)
  rw [trimEndChars, List.reverse_append, List.dropWhile_append_of_pos hr, ← trimEndChars]

theorem trimStartChars_eq_nil_iff {cs : List Char} :
    trimStartChars cs = [] ↔ ∀ c ∈ cs, isBlank c = true := List.dropWhile_eq_nil_iff

theorem trimChars_between {before after : List Char} (hb : ∀ c ∈ before, isBlank c = true)
    (ha : ∀ c ∈ after, isBlank c = true) (core : List Char) :
    trimChars (before ++ core ++ after) = trimChars core := by
  rw [trimChars, List.append_assoc, trimStartChars_append hb, trimStartChars,
    List.dropWhile_append]
  split
  next he =>
    have hcore : trimStartChars core = [] := List.isEmpty_iff.1 he
    rw [List.dropWhile_eq_nil_iff.2 ha, trimChars, hcore]
  next => rw [trimEndChars_append ha, trimChars, trimStartChars]

theorem trimChars_spec (cs : List Char) : ∃ before after, (∀ c ∈ before, isBlank c = true) ∧
    (∀ c ∈ after, isBlank c = true) ∧ cs = before ++ trimChars cs ++ after := by
  obtain ⟨before, hb, hcs⟩ := trimStartChars_spec cs
  obtain ⟨after, ha, hcs'⟩ := trimEndChars_spec (trimStartChars cs)
  exact ⟨before, after, hb, ha, by rw [List.append_assoc, trimChars, ← hcs', ← hcs]⟩

theorem trim_spec (s : String) :
    ∃ before after, isBlankText before = true ∧ isBlankText after = true ∧
      s = before ++ trim s ++ after := by
  obtain ⟨before, after, hb, ha, hcs⟩ := trimChars_spec s.toList
  refine ⟨String.ofList before, String.ofList after, ?_, ?_, ?_⟩
  · simpa [isBlankText] using hb
  · simpa [isBlankText] using ha
  · rw [trim, ← String.ofList_append, ← String.ofList_append, ← hcs, String.ofList_toList]

theorem trimChars_enclosed {a b : Char} (ha : isBlank a = false) (hb : isBlank b = false)
    (inner : List Char) : trimChars (a :: inner ++ [b]) = a :: inner ++ [b] := by
  have hstart : trimStartChars (a :: inner ++ [b]) = a :: inner ++ [b] :=
    List.dropWhile_cons_of_neg (by simp [ha])
  rw [trimChars, hstart, trimEndChars, List.reverse_append, List.reverse_singleton,
    List.singleton_append, List.dropWhile_cons_of_neg (by simp [hb]), List.reverse_cons,
    List.reverse_reverse]

theorem trimChars_eq_nil_iff {cs : List Char} :
    trimChars cs = [] ↔ ∀ c ∈ cs, isBlank c = true := by
  constructor
  · intro h
    obtain ⟨before, after, hb, ha, hcs⟩ := trimChars_spec cs
    rw [hcs, h, List.append_nil]
    exact List.forall_mem_append.2 ⟨hb, ha⟩
  · intro h
    rw [trimChars, trimStartChars_eq_nil_iff.2 h]
    rfl

theorem trimChars_eq_self {cs : List Char} (h : ∀ c ∈ cs, isBlank c = false) :
    trimChars cs = cs := by
  obtain ⟨before, after, hb, ha, hcs⟩ := trimChars_spec cs
  have hbefore : before = [] := by
    refine List.eq_nil_iff_forall_not_mem.2 fun c hc => ?_
    exact Bool.false_ne_true ((h c (by rw [hcs]; simp [hc])).symm.trans (hb c hc))
  have hafter : after = [] := by
    refine List.eq_nil_iff_forall_not_mem.2 fun c hc => ?_
    exact Bool.false_ne_true ((h c (by rw [hcs]; simp [hc])).symm.trans (ha c hc))
  rw [hbefore, hafter, List.nil_append, List.append_nil] at hcs
  exact hcs.symm

theorem trimChars_ne_nil_iff {cs : List Char} :
    trimChars cs ≠ [] ↔ ∃ c ∈ cs, isBlank c = false := by
  rw [ne_eq, trimChars_eq_nil_iff]
  simp

@[simp] theorem trimChars_trimChars (cs : List Char) : trimChars (trimChars cs) = trimChars cs := by
  obtain ⟨before, after, hb, ha, hcs⟩ := trimChars_spec cs
  conv_rhs => rw [hcs]
  exact (trimChars_between hb ha _).symm

@[simp] theorem toList_trim (s : String) : (trim s).toList = trimChars s.toList :=
  String.toList_ofList

@[simp] theorem trim_trim (s : String) : trim (trim s) = trim s := by
  rw [trim, toList_trim, trimChars_trimChars, trim]

theorem trimChars_eq_nil_iff_isBlankText {s : String} :
    trimChars s.toList = [] ↔ isBlankText s = true := by
  rw [trimChars_eq_nil_iff, isBlankText, List.all_eq_true]

theorem isEmpty_trim_eq (s : String) : (trim s).isEmpty = isBlankText s := by
  rw [Bool.eq_iff_iff, ← trimChars_eq_nil_iff_isBlankText, ← toList_trim, String.isEmpty_iff,
    String.toList_eq_nil_iff]

theorem isEmpty_trim {s : String} (h : isBlankText s = false) : (trim s).isEmpty = false := by
  rw [isEmpty_trim_eq, h]

theorem isEmpty_of_not_blank {s : String} (h : isBlankText s = false) : s.isEmpty = false := by
  rw [Bool.eq_false_iff, ne_eq, String.isEmpty_iff]
  rintro rfl
  cases h

theorem trimChars_within (cs : List Char) : trimChars cs <:+: cs := by
  obtain ⟨before, after, -, -, hcs⟩ := trimChars_spec cs
  exact ⟨before, after, hcs.symm⟩

structure EndTrimmed (s kept : String) : Prop where
  dropped : ∃ after, isBlankText after = true ∧ s = kept ++ after
  last : ∀ c ∈ kept.toList.getLast?, isBlank c = false

structure Trimmed (s kept : String) : Prop where
  dropped : ∃ before after, isBlankText before = true ∧ isBlankText after = true ∧
    s = before ++ kept ++ after
  first : ∀ c ∈ kept.toList.head?, isBlank c = false
  last : ∀ c ∈ kept.toList.getLast?, isBlank c = false

theorem head?_trimStartChars (cs : List Char) :
    ∀ c ∈ (trimStartChars cs).head?, isBlank c = false := by
  intro c hc
  have h := List.head?_dropWhile_not isBlank cs
  rw [← trimStartChars, Option.mem_def.1 hc] at h
  exact h

theorem getLast?_trimEndChars (cs : List Char) :
    ∀ c ∈ (trimEndChars cs).getLast?, isBlank c = false := by
  rw [trimEndChars, List.getLast?_reverse]
  exact head?_trimStartChars cs.reverse

theorem head?_trimChars (cs : List Char) : ∀ c ∈ (trimChars cs).head?, isBlank c = false := by
  intro c hc
  obtain ⟨after, -, hcs⟩ := trimEndChars_spec (trimStartChars cs)
  apply head?_trimStartChars cs
  rw [hcs, Option.mem_def, List.head?_append, ← trimChars, Option.mem_def.1 hc, Option.some_or]

theorem trimStartChars_eq_self {cs : List Char} (h : ∀ c ∈ cs.head?, isBlank c = false) :
    trimStartChars cs = cs := by
  cases cs with
  | nil => rfl
  | cons c cs => exact List.dropWhile_cons_of_neg (by simpa using h)

theorem trimEndChars_eq_self {cs : List Char} (h : ∀ c ∈ cs.getLast?, isBlank c = false) :
    trimEndChars cs = cs := by
  rw [← List.head?_reverse] at h
  rw [trimEndChars, ← trimStartChars, trimStartChars_eq_self h, List.reverse_reverse]

theorem endTrimmed_iff {s kept : String} : EndTrimmed s kept ↔ kept = trimEnd s := by
  constructor
  · rintro ⟨⟨after, ha, rfl⟩, hlast⟩
    rw [trimEnd, String.toList_append, trimEndChars_append (List.all_eq_true.1 ha),
      trimEndChars_eq_self hlast, String.ofList_toList]
  · rintro rfl
    obtain ⟨after, ha, hs⟩ := trimEndChars_spec s.toList
    refine ⟨⟨String.ofList after, by simpa [isBlankText] using ha, ?_⟩, ?_⟩
    · rw [trimEnd, ← String.ofList_append, ← hs, String.ofList_toList]
    · rw [trimEnd, String.toList_ofList]
      exact getLast?_trimEndChars s.toList

theorem trimmed_iff {s kept : String} : Trimmed s kept ↔ kept = trim s := by
  constructor
  · rintro ⟨⟨before, after, hb, ha, rfl⟩, hfirst, hlast⟩
    rw [trim, String.toList_append, String.toList_append,
      trimChars_between (List.all_eq_true.1 hb) (List.all_eq_true.1 ha), trimChars,
      trimStartChars_eq_self hfirst, trimEndChars_eq_self hlast, String.ofList_toList]
  · rintro rfl
    refine ⟨trim_spec s, ?_, ?_⟩
    · rw [toList_trim]
      exact head?_trimChars s.toList
    · rw [toList_trim]
      exact getLast?_trimEndChars (trimStartChars s.toList)

theorem isEmpty_trimEnd_eq (s : String) : (trimEnd s).isEmpty = isBlankText s := by
  obtain ⟨after, ha, hs⟩ := (endTrimmed_iff.2 (Eq.refl (trimEnd s))).dropped
  by_cases hb : isBlankText s = true
  · have hnil : trimEndChars s.toList = trimEndChars [] := by
      rw [isBlankText, List.all_eq_true] at hb
      simpa using trimEndChars_append hb []
    rw [hb, trimEnd, hnil]
    rfl
  · rw [Bool.not_eq_true] at hb
    rw [hb, Bool.eq_false_iff, ne_eq, String.isEmpty_iff]
    intro hempty
    rw [hempty, String.empty_append] at hs
    rw [← hs, hb] at ha
    exact Bool.false_ne_true ha

/-- The bytes of a character of one byte are the character; others have high bytes. -/
theorem mem_encodeChar {c : Char} {b : UInt8} (h : b ∈ String.utf8EncodeChar c) :
    b.toNat = c.toNat ∧ c.toNat < 0x80 ∨ 0x80 ≤ b.toNat ∧ b.toNat < 0xF8 := by
  have hv : c.val.toNat = c.toNat := rfl
  unfold String.utf8EncodeChar at h
  simp only [hv] at h
  split at h
  · rw [List.mem_singleton] at h
    rw [h, UInt8.toNat_ofNat']
    omega
  · right
    split at h
    · simp only [List.mem_cons, List.not_mem_nil, or_false] at h
      rcases h with rfl | rfl <;> rw [UInt8.toNat_ofNat'] <;> omega
    · split at h
      · simp only [List.mem_cons, List.not_mem_nil, or_false] at h
        rcases h with rfl | rfl | rfl <;> rw [UInt8.toNat_ofNat'] <;> omega
      · simp only [List.mem_cons, List.not_mem_nil, or_false] at h
        rcases h with rfl | rfl | rfl | rfl <;> rw [UInt8.toNat_ofNat'] <;> omega

theorem le_space_of_isBlank {c : Char} (h : isBlank c = true) (hc : c.toNat < 0x80) :
    c.toNat ≤ 0x20 := by
  simp [isBlank, blankRanges] at h
  omega

theorem mem_encode_blank {s : String} {b : UInt8} (hs : isBlankText s = true)
    (hb : b ∈ encode s) : b.toNat ≤ 0x20 ∨ 0x80 ≤ b.toNat ∧ b.toNat < 0xF8 := by
  obtain ⟨c, hc, hb⟩ := List.mem_flatMap.1 hb
  have hblank := List.all_eq_true.1 hs c hc
  obtain ⟨he, hlt⟩ | hhigh := mem_encodeChar hb
  · exact .inl (he ▸ le_space_of_isBlank hblank hlt)
  · exact .inr hhigh

def SameUpToBlanks (a b : Bytes) : Prop :=
  ∃ (core : Bytes) (before after before' after' : String),
    isBlankText before = true ∧ isBlankText after = true ∧ isBlankText before' = true ∧
      isBlankText after' = true ∧ a = encode before ++ core ++ encode after ∧
      b = encode before' ++ core ++ encode after'

theorem sameUpToBlanks_of_trim {s t : String} (h : trim s = trim t) :
    SameUpToBlanks (encode s) (encode t) := by
  obtain ⟨before, after, hb, ha, hs⟩ := trim_spec s
  obtain ⟨before', after', hb', ha', ht⟩ := trim_spec t
  refine ⟨encode (trim s), before, after, before', after', hb, ha, hb', ha', ?_, ?_⟩
  · rw [← encode_append, ← encode_append, ← hs]
  · rw [h, ← encode_append, ← encode_append, ← ht]

theorem SameUpToBlanks.mem {a b : Bytes} (h : SameUpToBlanks a b) {x : UInt8}
    (hx : ¬ (x.toNat ≤ 0x20 ∨ 0x80 ≤ x.toNat ∧ x.toNat < 0xF8)) (ha : x ∈ a) : x ∈ b := by
  obtain ⟨core, before, after, before', after', hb, ha', -, -, rfl, rfl⟩ := h
  have hcore : x ∈ core := by
    simp only [List.mem_append] at ha
    rcases ha with (ha | ha) | ha
    · exact absurd (mem_encode_blank hb ha) hx
    · exact ha
    · exact absurd (mem_encode_blank ha' ha) hx
  simp [hcore]

end Anneal.Text
