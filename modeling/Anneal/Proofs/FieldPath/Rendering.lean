import Anneal.Backend.Descriptor
import Anneal.Proofs.FieldPath.Grammar

/-! Writing steps and reading paths undo each other. A key begins a part and its indexes follow,
so the text of a list of steps is cut into parts where the keys are, whatever the mixture. -/

namespace Anneal.FieldPath

open Text

variable {cs : List Char} {all : List (List Char)} {steps : List Step}

def Step.Proper : Step → Prop
  | .key name => IsKey name.toList ∧ '.' ∉ name.toList
  | .index i => i < Word.bound 64

/-- The steps that can be told from their text. -/
structure Proper (steps : List Step) : Prop where
  nonempty : steps ≠ []
  each : ∀ step ∈ steps, step.Proper
  visible : ∀ name, steps = [.key name] → ∃ c ∈ name.toList, isBlank c = false

theorem text_index (i : Nat) :
    (Step.text (.index i)).toList = '[' :: (Nat.toDigits 10 i ++ [']']) := by
  have hopen : "[".toList = ['['] := by decide
  have hclose : "]".toList = [']'] := by decide
  change ("[" ++ i.repr ++ "]").toList = _
  rw [String.toList_append, String.toList_append, hopen, hclose, Nat.toList_repr]
  simp

theorem digits_toDigits {i : Nat} (h : i < Word.bound 64) : Digits (Nat.toDigits 10 i) i where
  nonempty := Nat.toDigits_ne_nil
  digits _ hc := Nat.isDigit_of_mem_toDigits (by decide) (by decide) hc
  value := Nat.ofDigitChars_ten_toDigits
  small := h

theorem Indexed.text_append {i : Nat} (hi : i < Word.bound 64) (h : Indexed cs steps) :
    Indexed ((Step.text (.index i)).toList ++ cs) (.index i :: steps) := by
  have hnumeral := Numeral.plain (digits_toDigits hi)
  simpa [text_index] using Indexed.cons hnumeral h

theorem Indexed.dotless (h : Indexed cs steps) : '.' ∉ cs := by
  induction h with
  | nil => simp
  | cons hn hr ih =>
    have hnumeral : '.' ∉ _ := fun hc => by
      rcases hn.mem hc with hc | hc <;> exact absurd hc (by decide)
    simp [hnumeral, ih]

/-- The steps behind the first are the indexes of a part that has begun and the parts after it. -/
theorem renderRest_spec (h : ∀ step ∈ steps, step.Proper) :
    ∃ run later indexes groups, (renderRest steps).toList = run ++ later.flatMap ('.' :: ·) ∧
      steps = indexes ++ groups.flatten ∧ Indexed run indexes ∧
      List.Forall₂ Named later groups ∧ ∀ part ∈ later, '.' ∉ part := by
  induction steps with
  | nil => exact ⟨[], [], [], [], by simp [renderRest], rfl, .nil, .nil, by simp⟩
  | cons step steps ih =>
    obtain ⟨hstep, hsteps⟩ := List.forall_mem_cons.1 h
    obtain ⟨run, later, indexes, groups, htext, rfl, hrun, hlater, hdots⟩ := ih hsteps
    cases step with
    | index i =>
      refine ⟨(Step.text (.index i)).toList ++ run, later, .index i :: indexes, groups, ?_, rfl,
        hrun.text_append hstep, hlater, hdots⟩
      rw [renderRest, String.toList_append, htext, List.append_assoc]
    | key name =>
      -- The key closes the part before it and takes the indexes read so far as its own.
      have hname : Named (name.toList ++ run) (.key name :: indexes) := by
        simpa using Named.mk hstep.1 hrun
      have hdot : '.' ∉ name.toList ++ run := by simp [hstep.2, hrun.dotless]
      have hpoint : ".".toList = ['.'] := by decide
      refine ⟨[], (name.toList ++ run) :: later, [], (.key name :: indexes) :: groups, ?_, by simp,
        .nil, .cons hname hlater, List.forall_mem_cons.2 ⟨hdot, hdots⟩⟩
      simp [renderRest, htext, hpoint]

theorem splitOn_parts {first : List Char} {later : List (List Char)} (hfirst : '.' ∉ first)
    (hlater : ∀ part ∈ later, '.' ∉ part) :
    (first ++ later.flatMap ('.' :: ·)).splitOn '.' = first :: later := by
  induction later generalizing first with
  | nil => simpa using List.splitOn_eq_singleton hfirst
  | cons part later ih =>
    obtain ⟨hpart, hlater⟩ := List.forall_mem_cons.1 hlater
    rw [List.flatMap_cons, List.cons_append, List.splitOn_append_cons_self_of_not_mem hfirst,
      ih hpart hlater]

theorem spells_render (hne : steps ≠ []) (h : ∀ step ∈ steps, step.Proper) :
    Spells ((render steps).toList.splitOn '.') steps := by
  cases steps with
  | nil => exact absurd rfl hne
  | cons step steps =>
    obtain ⟨hstep, hsteps⟩ := List.forall_mem_cons.1 h
    obtain ⟨run, later, indexes, groups, htext, rfl, hrun, hlater, hdots⟩ := renderRest_spec hsteps
    have hfirst : Leading (step.text.toList ++ run) (step :: indexes) ∧
        '.' ∉ step.text.toList ++ run := by
      cases step with
      | key name =>
        have hname : Named (name.toList ++ run) (.key name :: indexes) := by
          simpa using Named.mk hstep.1 hrun
        have hdot : '.' ∉ name.toList ++ run := by simp [hstep.2, hrun.dotless]
        exact ⟨.named hname, hdot⟩
      | index i =>
        have hindexed := hrun.text_append hstep
        exact ⟨.bare (by simp [text_index]) hindexed, hindexed.dotless⟩
    rw [render, String.toList_append, htext, ← List.append_assoc, splitOn_parts hfirst.2 hdots]
    exact .mk hfirst.1 hlater

theorem not_mem_of_mem_splitOn {part : List Char} (h : part ∈ cs.splitOn '.') : '.' ∉ part := by
  induction cs generalizing part with
  | nil =>
    rw [List.splitOn_nil, List.mem_singleton] at h
    simp [h]
  | cons c cs ih =>
    rw [List.splitOn_cons_eq_if_modifyHead] at h
    split at h
    · rcases List.mem_cons.1 h with rfl | h
      · simp
      · exact ih h
    next hc =>
      have hne : cs.splitOn '.' ≠ [] := List.splitOn_ne_nil _ _
      generalize cs.splitOn '.' = pieces at h ih hne
      cases pieces with
      | nil => exact absurd rfl hne
      | cons piece pieces =>
        rw [List.modifyHead_cons] at h
        rcases List.mem_cons.1 h with rfl | h
        · have hpiece := ih List.mem_cons_self
          have hdot : '.' ≠ c := fun hd => hc (beq_iff_eq.2 hd.symm)
          simp [hpiece, hdot]
        · exact ih (List.mem_cons_of_mem _ h)

theorem Indexed.proper (h : Indexed cs steps) : ∀ step ∈ steps, step.Proper := by
  induction h with
  | nil => simp
  | cons hn hr ih => exact List.forall_mem_cons.2 ⟨hn.small, ih⟩

theorem Named.proper (h : Named cs steps) (hdot : '.' ∉ cs) :
    steps ≠ [] ∧ ∀ step ∈ steps, step.Proper := by
  obtain ⟨hkey, hr⟩ := h
  rw [List.mem_append, not_or] at hdot
  refine ⟨by simp, List.forall_mem_cons.2 ⟨?_, hr.proper⟩⟩
  simpa [Step.Proper] using ⟨hkey, hdot.1⟩

theorem Leading.proper (h : Leading cs steps) (hdot : '.' ∉ cs) :
    steps ≠ [] ∧ ∀ step ∈ steps, step.Proper := by
  rcases h with h | ⟨hne, h⟩
  · exact h.proper hdot
  · refine ⟨?_, h.proper⟩
    rintro rfl
    cases h
    exact hne rfl

theorem groups_proper {groups : List (List Step)} (h : List.Forall₂ Named all groups)
    (hdots : ∀ part ∈ all, '.' ∉ part) : ∀ step ∈ groups.flatten, step.Proper := by
  induction h with
  | nil => simp
  | cons hg _ ih =>
    obtain ⟨hdot, hdots⟩ := List.forall_mem_cons.1 hdots
    rw [List.flatten_cons]
    exact List.forall_mem_append.2 ⟨(hg.proper hdot).2, ih hdots⟩

theorem Spells.proper (h : Spells all steps) (hdots : ∀ part ∈ all, '.' ∉ part) :
    steps ≠ [] ∧ ∀ step ∈ steps, step.Proper := by
  obtain ⟨hfirst, hlater⟩ := h
  obtain ⟨hdot, hdots⟩ := List.forall_mem_cons.1 hdots
  obtain ⟨hne, hown⟩ := hfirst.proper hdot
  exact ⟨by simp [hne], List.forall_mem_append.2 ⟨hown, groups_proper hlater hdots⟩⟩

theorem later_eq_nil {groups : List (List Step)} (h : List.Forall₂ Named all groups)
    (hnil : groups.flatten = []) : all = [] := by
  cases h with
  | nil => rfl
  | cons hg _ =>
    cases hg
    simp at hnil

/-- Only the text of the key spells a key alone. -/
theorem Spells.key_alone {name : String} (h : Spells all [.key name]) : all = [name.toList] := by
  generalize hs : [Step.key name] = steps at h
  obtain ⟨hfirst, hlater⟩ := h
  rcases hfirst with ⟨-, hr⟩ | ⟨hne, hr⟩
  · rw [List.cons_append] at hs
    obtain ⟨hkey, hnil⟩ := List.cons.inj hs
    obtain ⟨rfl, hgroups⟩ := List.append_eq_nil_iff.1 hnil.symm
    cases hr
    cases hkey
    rw [later_eq_nil hlater hgroups]
    simp
  · cases hr with
    | nil => exact absurd rfl hne
    | cons =>
      rw [List.cons_append] at hs
      cases (List.cons.inj hs).1

theorem Leading.key_of_blank (h : Leading cs steps) (hblank : ∀ c ∈ cs, isBlank c = true) :
    steps = [.key (String.ofList cs)] := by
  have hopen : '[' ∉ cs := fun hc => absurd (hblank _ hc) (by decide)
  rcases h with ⟨hkey, hr⟩ | ⟨hne, hr⟩
  · cases hr with
    | nil => rw [List.append_nil]
    | cons => simp at hopen
  · cases hr with
    | nil => exact absurd rfl hne
    | cons => simp at hopen

/-- A path is blank just if it is a blank key alone. -/
theorem spells_visible_iff (h : Spells (cs.splitOn '.') steps) :
    (∃ c ∈ cs, isBlank c = false) ↔
      ∀ name, steps = [.key name] → ∃ c ∈ name.toList, isBlank c = false := by
  constructor
  · rintro hvisible name rfl
    have hcs : ['.'].intercalate (cs.splitOn '.') = cs := List.intercalate_splitOn '.'
    rw [h.key_alone, List.intercalate_singleton] at hcs
    exact hcs ▸ hvisible
  · intro hkey
    by_contra hnone
    have hblank : ∀ c ∈ cs, isBlank c = true := by
      intro c hc
      by_contra hvisible
      exact hnone ⟨c, hc, Bool.eq_false_iff.2 hvisible⟩
    have hdot : '.' ∉ cs := fun hc => absurd (hblank _ hc) (by decide)
    rw [List.splitOn_eq_singleton hdot] at h
    obtain ⟨hfirst, hlater⟩ := h
    cases hlater
    have halone := hfirst.key_of_blank hblank
    rw [List.flatten_nil, List.append_nil] at hkey
    exact hnone (by simpa using hkey _ halone)

theorem stepsOf_render (h : Proper steps) : stepsOf (render steps).toList = .ok steps := by
  have hspells := spells_render h.nonempty h.each
  exact stepsOf_eq_ok_iff.2 ⟨(spells_visible_iff hspells).2 h.visible, hspells⟩

theorem proper_of_stepsOf (h : stepsOf cs = .ok steps) : Proper steps := by
  obtain ⟨hvisible, hspells⟩ := stepsOf_eq_ok_iff.1 h
  obtain ⟨hne, heach⟩ := hspells.proper fun part hpart => not_mem_of_mem_splitOn hpart
  exact ⟨hne, heach, (spells_visible_iff hspells).1 hvisible⟩

theorem parse_render (h : Proper steps) : parse (render steps) = .ok ⟨render steps, steps⟩ :=
  parse_eq_ok_iff.2 ⟨stepsOf_render h, rfl⟩

theorem pathOfJson_raw {p : FieldPath} (h : parse p.raw = .ok p) :
    Descriptor.pathOfJson (.str p.raw) = .ok p := by
  rw [Descriptor.pathOfJson, h]

/-- Steps that can be told from their text are read back from it, and a path that was read has
such steps, so that writing and reading it settles after one round. In a descriptor a path is
kept as it was written. -/
theorem rendering_inverts_parsing :
    (∀ steps, Proper steps → parse (render steps) = .ok ⟨render steps, steps⟩) ∧
    ∀ raw p, parse raw = .ok p →
      Proper p.steps ∧
      (∃ q, parse (render p.steps) = .ok q ∧ q.steps = p.steps ∧
        render q.steps = render p.steps) ∧
      p.raw = raw ∧ parse p.raw = .ok p ∧
      ∀ d : Descriptor, d.responseField = p → ∃ j,
        d.toJson.member? "response_field" = some j ∧ j = .str raw ∧
          Descriptor.pathOfJson j = .ok p := by
  refine ⟨fun steps h => parse_render h, fun raw p h => ?_⟩
  obtain ⟨hsteps, rfl⟩ := parse_eq_ok_iff.1 h
  have hproper := proper_of_stepsOf hsteps
  refine ⟨hproper, ⟨_, parse_render hproper, rfl, rfl⟩, rfl, h, ?_⟩
  rintro d rfl
  exact ⟨.str d.responseField.raw, rfl, rfl, pathOfJson_raw h⟩

theorem mixed_path_round_trips :
    Proper [.index 3, .key "a b", .index 0, .key " "] ∧
    parse (render [.index 3, .key "a b", .index 0, .key " "]) =
      .ok ⟨"[3].a b[0]. ", [.index 3, .key "a b", .index 0, .key " "]⟩ ∧
    parse "a[+07].b" = .ok ⟨"a[+07].b", [.key "a", .index 7, .key "b"]⟩ ∧
    ∃ q, parse "a[7].b" = .ok q ∧ q.steps = [.key "a", .index 7, .key "b"] := by
  obtain ⟨hrender, hparse⟩ := rendering_inverts_parsing
  have hproper : Proper [.index 3, .key "a b", .index 0, .key " "] := by
    refine ⟨by simp, ?_, by simp⟩
    simp only [List.forall_mem_cons, Step.Proper, List.not_mem_nil, false_implies, implies_true,
      and_true]
    exact ⟨by decide, ⟨⟨by decide, by decide, by decide⟩, by decide⟩, by decide,
      ⟨by decide, by decide, by decide⟩, by decide⟩
  have hspells : Spells [['a', '[', '+', '0', '7', ']'], ['b']]
      [.key "a", .index 7, .key "b"] := by
    have hdigits : Digits ['0', '7'] 7 := ⟨by simp, by simp, by decide, by decide⟩
    have hindex : Indexed ['[', '+', '0', '7', ']'] [.index 7] := .cons (.signed hdigits) .nil
    have ha : IsKey ['a'] := ⟨by decide, by decide, by decide⟩
    have hb : IsKey ['b'] := ⟨by decide, by decide, by decide⟩
    have hfirst : Named ['a', '[', '+', '0', '7', ']'] [.key "a", .index 7] := .mk ha hindex
    have hlater : Named ['b'] [.key "b"] := .mk hb .nil
    exact .mk (.named hfirst) (.cons hlater .nil)
  have hread : parse "a[+07].b" = .ok ⟨"a[+07].b", [.key "a", .index 7, .key "b"]⟩ := by
    have hparts : "a[+07].b".toList.splitOn '.' = [['a', '[', '+', '0', '7', ']'], ['b']] := by
      decide
    have hvisible : ∃ c ∈ "a[+07].b".toList, isBlank c = false := ⟨'a', by decide, by decide⟩
    have hsteps := stepsOf_eq_ok_iff.2 ⟨hvisible, hparts ▸ hspells⟩
    exact parse_eq_ok_iff.2 ⟨hsteps, rfl⟩
  obtain ⟨-, ⟨q, hq, hsteps, -⟩, -⟩ := hparse _ _ hread
  exact ⟨hproper, hrender _ hproper, hread, q, hq, hsteps⟩

end Anneal.FieldPath
