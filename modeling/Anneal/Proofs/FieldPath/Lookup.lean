import Anneal.Proofs.FieldPath.Grammar

/-! A path is followed from value to value. Where it leads nowhere there is one depth up to which it
can be followed, and the step at this depth is the one that is blamed. -/

namespace Anneal.FieldPath

variable {v u w : Json} {s : Step} {steps : List Step} {d : Nat}

inductive Reaches : Json → Step → Json → Prop where
  | member {fields : Keyed Json} {name : String} {found : Json}
      (h : Keyed.get? fields name = some found) : Reaches (.obj fields) (.key name) found
  | element {items : List Json} {i : Nat} {found : Json}
      (h : items[i]? = some found) : Reaches (.arr items) (.index i) found

/-- What steps lead to, one after the other. -/
inductive Walk : Json → List Step → Json → Prop where
  | nil {v : Json} : Walk v [] v
  | cons {v u w : Json} {s : Step} {steps : List Step} (first : Reaches v s u)
      (later : Walk u steps w) : Walk v (s :: steps) w

/-- The first `d` steps lead somewhere, and with one more they lead nowhere. -/
structure Breaks (v : Json) (steps : List Step) (d : Nat) : Prop where
  resolved : ∃ w, Walk v (steps.take d) w
  absent : ¬ ∃ w, Walk v (steps.take (d + 1)) w

theorem follow?_eq_some_iff : s.follow? v = some u ↔ Reaches v s u := by
  constructor
  · intro h
    cases s with
    | key name =>
      cases v with
      | obj fields => exact .member h
      | _ => cases h
    | index i =>
      cases v with
      | arr items => exact .element h
      | _ => cases h
  · rintro (h | h) <;> exact h

theorem Reaches.unique {u' : Json} (h : Reaches v s u) (h' : Reaches v s u') : u = u' := by
  rw [← follow?_eq_some_iff] at h h'
  exact Option.some.inj (h.symm.trans h')

theorem Walk.unique {w' : Json} (h : Walk v steps w) (h' : Walk v steps w') : w = w' := by
  induction h with
  | nil =>
    cases h'
    rfl
  | cons first later ih =>
    cases h' with
    | cons first' later' =>
      obtain rfl := first.unique first'
      exact ih later'

theorem walk_append {more : List Step} :
    Walk v (steps ++ more) w ↔ ∃ u, Walk v steps u ∧ Walk u more w := by
  induction steps generalizing v with
  | nil =>
    constructor
    · intro h
      exact ⟨v, .nil, h⟩
    · rintro ⟨u, ⟨⟩, h⟩
      exact h
  | cons s steps ih =>
    constructor
    · intro h
      cases h with
      | cons first later =>
        obtain ⟨u, hu, hw⟩ := ih.1 later
        exact ⟨u, .cons first hu, hw⟩
    · rintro ⟨u, h, hw⟩
      cases h with
      | cons first later => exact .cons first (ih.2 ⟨u, later, hw⟩)

theorem Walk.take (h : Walk v steps w) (d : Nat) : ∃ u, Walk v (steps.take d) u := by
  rw [← List.take_append_drop d steps] at h
  obtain ⟨u, hu, -⟩ := walk_append.1 h
  exact ⟨u, hu⟩

theorem Breaks.le {d' : Nat} (h : Breaks v steps d) (h' : Breaks v steps d') : d ≤ d' := by
  by_contra hlt
  obtain ⟨w, hw⟩ := h.resolved
  apply h'.absent
  have hsome := hw.take (d' + 1)
  rwa [List.take_take, Nat.min_eq_left (by omega)] at hsome

theorem Breaks.unique {d' : Nat} (h : Breaks v steps d) (h' : Breaks v steps d') : d = d' :=
  Nat.le_antisymm (h.le h') (h'.le h)

theorem Breaks.not_walk (h : Breaks v steps d) : ¬ ∃ w, Walk v steps w := by
  rintro ⟨w, hw⟩
  exact h.absent (hw.take (d + 1))

theorem breaks_of_stuck {done more : List Step} (h : Walk v done u) (hs : s.follow? u = none) :
    Breaks v (done ++ s :: more) done.length := by
  constructor
  · rw [List.take_left]
    exact ⟨u, h⟩
  · rintro ⟨w, hw⟩
    rw [List.take_append, List.take_of_length_le (by omega), Nat.add_sub_cancel_left] at hw
    obtain ⟨u', hu', hnext⟩ := walk_append.1 hw
    obtain rfl := h.unique hu'
    cases hnext with
    | cons first later =>
      rw [← follow?_eq_some_iff, hs] at first
      cases first

/-- From where the steps in `done` lead, the others are followed to the end or to the step that
breaks. -/
theorem follow_spec (raw : String) {root : Json} {done : List Step} (h : Walk root done v) :
    (∃ w, follow raw done v steps = .ok w ∧ Walk root (done ++ steps) w) ∨
      ∃ d step, Breaks root (done ++ steps) d ∧ (done ++ steps)[d]? = some step ∧
        follow raw done v steps =
          .error (.missing raw step.text (render ((done ++ steps).take d))) := by
  induction steps generalizing v done with
  | nil =>
    refine .inl ⟨v, rfl, ?_⟩
    rwa [List.append_nil]
  | cons s steps ih =>
    rw [follow]
    cases hs : s.follow? v with
    | none =>
      refine .inr ⟨done.length, s, breaks_of_stuck h hs, by simp, ?_⟩
      rw [List.take_left]
    | some u =>
      have hstep : Walk root (done ++ [s]) u :=
        walk_append.2 ⟨v, h, .cons (follow?_eq_some_iff.1 hs) .nil⟩
      have hrest := ih hstep
      rw [List.append_assoc, List.singleton_append] at hrest
      exact hrest

theorem lookup_spec (p : FieldPath) (v : Json) :
    (∃ w, p.lookup v = .ok w ∧ Walk v p.steps w) ∨
      ∃ d step, Breaks v p.steps d ∧ p.steps[d]? = some step ∧
        p.lookup v = .error (.missing p.raw step.text (render (p.steps.take d))) :=
  follow_spec p.raw .nil

theorem lookup_eq_ok_iff {p : FieldPath} : p.lookup v = .ok w ↔ Walk v p.steps w := by
  obtain ⟨found, hfound, hwalk⟩ | ⟨d, step, hbreaks, -, herror⟩ := lookup_spec p v
  · rw [hfound, Except.ok.injEq]
    constructor
    · rintro rfl
      exact hwalk
    · exact hwalk.unique
  · rw [herror]
    constructor
    · intro h
      cases h
    · intro h
      exact absurd ⟨w, h⟩ hbreaks.not_walk

theorem asStr?_eq_some_iff {j : Json} {s : String} : j.asStr? = some s ↔ j = .str s := by
  cases j <;> simp [Json.asStr?]

theorem lookupText_of_error {p : FieldPath} {e : FieldPathError} (h : p.lookup v = .error e) :
    p.lookupText v = .error e := by
  rw [lookupText, h]

theorem lookupText_eq_ok_iff {p : FieldPath} {s : String} :
    p.lookupText v = .ok s ↔ p.lookup v = .ok (.str s) := by
  unfold lookupText
  split
  next h => simp [h]
  next found h =>
    rw [h, Except.ok.injEq, ← asStr?_eq_some_iff]
    cases found.asStr? <;> simp

theorem lookupText_eq_notText_iff {p : FieldPath} :
    p.lookupText v = .error (.notText p.raw) ↔ ∃ w, p.lookup v = .ok w ∧ ∀ s, w ≠ .str s := by
  obtain ⟨w, hw, -⟩ | ⟨d, step, -, -, herror⟩ := lookup_spec p v
  · have hnone : w.asStr? = none ↔ ∀ s, w ≠ .str s := by
      rw [Option.eq_none_iff_forall_ne_some]
      simp only [ne_eq, asStr?_eq_some_iff]
    unfold lookupText
    rw [hw]
    dsimp only
    constructor
    · intro h
      split at h
      · cases h
      next hfound => exact ⟨w, rfl, hnone.1 hfound⟩
    · rintro ⟨_, ⟨⟩, hw⟩
      rw [hnone.2 hw]
  · rw [lookupText_of_error herror, herror]
    simp

/-- A path leads to the end of the walk along its steps. If there is no such walk, the error names
the first step that leads nowhere, behind the steps before it. The text at a path is that of the
value, and a path in two parts is followed part by part. -/
theorem lookup_blames_first_absent (raw : String) (p : FieldPath) (hp : parse raw = .ok p)
    (v : Json) :
    (∀ w, p.lookup v = .ok w ↔ Walk v p.steps w) ∧
    ((¬ ∃ w, Walk v p.steps w) → ∃ d step, Breaks v p.steps d ∧
      (∀ d', Breaks v p.steps d' → d' = d) ∧ p.steps[d]? = some step ∧
      p.lookup v = .error (.missing raw step.text (render (p.steps.take d)))) ∧
    render [] = "<root>" ∧
    (∀ e, p.lookup v = .error e → p.lookupText v = .error e) ∧
    (p.lookupText v = .error (.notText raw) ↔ ∃ w, p.lookup v = .ok w ∧ ∀ s, w ≠ .str s) ∧
    (∀ s, p.lookupText v = .ok s ↔ p.lookup v = .ok (.str s)) ∧
    ∀ (first second whole : FieldPath) (w : Json), whole.steps = first.steps ++ second.steps →
      (whole.lookup v = .ok w ↔ ∃ u, first.lookup v = .ok u ∧ second.lookup u = .ok w) := by
  obtain ⟨-, rfl⟩ := parse_eq_ok_iff.1 hp
  refine ⟨fun w => lookup_eq_ok_iff, fun h => ?_, rfl, fun e => lookupText_of_error,
    lookupText_eq_notText_iff, fun s => lookupText_eq_ok_iff, fun first second whole w hsteps => ?_⟩
  · obtain ⟨w, -, hwalk⟩ | ⟨d, step, hbreaks, hstep, herror⟩ := lookup_spec p v
    · exact absurd ⟨w, hwalk⟩ h
    · exact ⟨d, step, hbreaks, fun d' hd' => hd'.unique hbreaks, hstep, herror⟩
  · simp only [lookup_eq_ok_iff, hsteps]
    exact walk_append

def twoAnswers : Json :=
  .obj [("choices", .arr [.obj [("text", .str "a")], .obj [("message", .int 6)]])]

def secondMessage : FieldPath :=
  ⟨"choices[+1].message", [.key "choices", .index 1, .key "message"]⟩

def secondContent : FieldPath :=
  ⟨"choices[+1].message.content", secondMessage.steps ++ [.key "content"]⟩

/-- The message of the second answer is a number: it has no content, and it is no text. -/
theorem second_answer_looked_up :
    parse "choices[+1].message.content" = .ok secondContent ∧
    parse "choices[+1].message" = .ok secondMessage ∧
    Walk twoAnswers secondMessage.steps (.int 6) ∧
    (∃ d step, Breaks twoAnswers secondContent.steps d ∧ secondContent.steps[d]? = some step ∧
      secondContent.lookup twoAnswers = .error (.missing "choices[+1].message.content" step.text
        (render (secondContent.steps.take d)))) ∧
    secondContent.lookup twoAnswers =
      .error (.missing "choices[+1].message.content" "content" "choices[1].message") ∧
    secondMessage.lookupText twoAnswers = .error (.notText "choices[+1].message") := by
  have hcontent : parse "choices[+1].message.content" = .ok secondContent := by decide +kernel
  have hmessage : parse "choices[+1].message" = .ok secondMessage := by decide +kernel
  have herror : secondContent.lookup twoAnswers =
      .error (.missing "choices[+1].message.content" "content" "choices[1].message") := rfl
  obtain ⟨hwalk, hblame, -⟩ := lookup_blames_first_absent _ _ hcontent twoAnswers
  have hnone : ¬ ∃ w, Walk twoAnswers secondContent.steps w := by
    rintro ⟨w, hw⟩
    rw [← hwalk, herror] at hw
    cases hw
  obtain ⟨d, step, hbreaks, -, hstep, hlookup⟩ := hblame hnone
  obtain ⟨hwalk', -, -, -, hnotText, -⟩ := lookup_blames_first_absent _ _ hmessage twoAnswers
  have hfound : secondMessage.lookup twoAnswers = .ok (.int 6) := rfl
  exact ⟨hcontent, hmessage, (hwalk' _).1 hfound, ⟨d, step, hbreaks, hstep, hlookup⟩, herror,
    hnotText.2 ⟨_, hfound, nofun⟩⟩

end Anneal.FieldPath
