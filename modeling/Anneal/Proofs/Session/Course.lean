import Anneal.Proofs.Repair.Convergence
import Anneal.Proofs.Session.Commands
import Anneal.Proofs.Tool.Requests

/-! The course of a session: how its lines are handled, one after another. What a line does is said
kind by kind, and the mode that it is handled in by the lines before it. -/

namespace Anneal.Session

open Anneal.Text

def Newest (tool : Tool) (earlier : List String) : Prop :=
  ∃ front line rest, earlier = front ++ line :: rest ∧ Selects tool line ∧
    ∀ l ∈ rest, ¬ Says "back" l ∧ ∀ other, ¬ Selects other l

/-- The mode behind these lines: the tool that was switched to last, or none. -/
def ModeOf (earlier : List String) (mode : Option Tool) : Prop :=
  ∀ tool, mode = some tool ↔ Newest tool earlier

section Modes

variable {earlier : List String} {line : String} {mode : Option Tool} {tool : Tool}

theorem newest_concat : Newest tool (earlier ++ [line]) ↔ Selects tool line ∨
    (¬ Says "back" line ∧ ∀ other, ¬ Selects other line) ∧ Newest tool earlier := by
  constructor
  · rintro ⟨front, l, rest, heq, hl, hrest⟩
    obtain rfl | ⟨rest, last, rfl⟩ := List.eq_nil_or_concat rest
    · obtain ⟨-, rfl⟩ := List.append_singleton_inj.1 heq
      exact .inl hl
    · rw [List.concat_eq_append] at heq hrest
      rw [← List.cons_append, ← List.append_assoc] at heq
      obtain ⟨rfl, rfl⟩ := List.append_singleton_inj.1 heq
      obtain ⟨hrest, hlast⟩ := List.forall_mem_append.1 hrest
      exact .inr ⟨hlast _ (List.mem_singleton_self _), front, l, rest, rfl, hl, hrest⟩
  · rintro (hl | ⟨hline, front, l, rest, rfl, hl, hrest⟩)
    · exact ⟨earlier, line, [], rfl, hl, List.forall_mem_nil _⟩
    · refine ⟨front, l, rest ++ [line], by simp, hl, ?_⟩
      exact List.forall_mem_append.2 ⟨hrest, List.forall_mem_singleton.2 hline⟩

theorem modeOf_nil : ModeOf [] none := by
  intro tool
  constructor
  · intro h
    cases h
  · rintro ⟨front, line, rest, heq, -⟩
    exact absurd heq.symm (by simp)

theorem ModeOf.select (h : Selects tool line) : ModeOf (earlier ++ [line]) (some tool) := by
  intro other
  rw [newest_concat, Option.some_inj]
  constructor
  · rintro rfl
    exact .inl h
  · rintro (hother | ⟨⟨-, hnot⟩, -⟩)
    · exact h.unique hother
    · exact absurd h (hnot tool)

theorem ModeOf.back (h : Says "back" line) : ModeOf (earlier ++ [line]) none := by
  intro other
  rw [newest_concat]
  constructor
  · intro hnone
    cases hnone
  · rintro (⟨name, hname, -⟩ | ⟨⟨hnot, -⟩, -⟩)
    · exact absurd hname (not_switchesTo h (by decide))
    · exact absurd h hnot

theorem ModeOf.keep (h : ModeOf earlier mode) (hback : ¬ Says "back" line)
    (hswitch : ∀ other, ¬ Selects other line) : ModeOf (earlier ++ [line]) mode := by
  intro tool
  rw [h tool, newest_concat, or_iff_right (hswitch tool), and_iff_right ⟨hback, hswitch⟩]

/-- A line that says one word neither goes back nor switches, unless the word is that of going
back. -/
theorem ModeOf.keep_word {word : String} (h : ModeOf earlier mode) (hline : Says word line)
    (hback : word ≠ "back") (hword : ¬ switchPrefix.toList <+: word.toList) :
    ModeOf (earlier ++ [line]) mode := by
  refine h.keep (fun hsays => hback (hline.symm.trans hsays)) fun other hother => ?_
  obtain ⟨name, hname, -⟩ := hother
  exact not_switchesTo hline hword hname

end Modes

variable {σ : Type}

/-- How a line was handled: in which mode, what was asked of the toolbox with what result, and what
was printed. -/
structure Handling (σ : Type) where
  line : String
  mode : Option Tool
  before : Workshop σ
  calls : List (Toolbox.Request × Except ToolError Routed)
  printed : String
  after : Workshop σ

inductive Handled (t : Toolbox σ) : Handling σ → Prop
  | blank (mode : Option Tool) (s : Workshop σ) : Handled t ⟨"", mode, s, [], "", s⟩
  | leave {line : String} (h : Leaves line) (mode : Option Tool) (s : Workshop σ) :
      Handled t ⟨line, mode, s, [], "", s⟩
  | back {line : String} (h : Says "back" line) (mode : Option Tool) (s : Workshop σ) :
      Handled t ⟨line, mode, s, [],
        if mode.isSome then "back to routed mode\n" else "not in a tool mode\n", s⟩
  | present {line : String} (h : Says "show" line) (mode : Option Tool) (s : Workshop σ) :
      Handled t ⟨line, mode, s, [], (candidateText t s.world).1,
        { s with world := (s.world.onDisk fun d => d.readText t.target.codePath).2 }⟩
  | switched {line name : String} {tool : Tool} (h : SwitchesTo name line)
      (htool : Says tool.name name) (mode : Option Tool) (s : Workshop σ) :
      Handled t ⟨line, mode, s, [], s!"switched to {tool.name}; `back` to leave\n", s⟩
  | unknown {line name : String} (h : SwitchesTo name line)
      (hnone : ∀ tool : Tool, ¬ Says tool.name name) (mode : Option Tool) (s : Workshop σ) :
      Handled t ⟨line, mode, s, [], s!"unknown tool `{name}`\n", s⟩
  | retry {line : String} (h : Says "retry" line) (mode : Option Tool) {s after : Workshop σ}
      {result : Except ToolError Routed} (hrun : t.run .modifier "" s = (result, after)) :
      Handled t ⟨line, mode, s, [(.direct .modifier "", result)], shown result, after⟩
  | direct {line : String} (h : IsRequest line) {tool : Tool} {s after : Workshop σ}
      {result : Except ToolError Routed} (hrun : t.run tool line s = (result, after)) :
      Handled t ⟨line, some tool, s, [(.direct tool line, result)], shown result, after⟩
  | routed {line : String} (h : IsRequest line) {s after : Workshop σ}
      {result : Except ToolError Routed} (hroute : t.route line s = (result, after)) :
      Handled t ⟨line, none, s, [(.routed line, result)], shown result, after⟩

def turnOf (t : Toolbox σ) (mode : Option Tool) (s : Workshop σ) (line : String) : Turn σ :=
  if line.isEmpty then ⟨mode, "", true, s⟩ else turn t mode s (.ofLine line)

def requestsFor (mode : Option Tool) : Command → List Toolbox.Request
  | .retry => [.direct .modifier ""]
  | .request line => match mode with
    | some tool => [.direct tool line]
    | none => [.routed line]
  | _ => []

def requestsOf (mode : Option Tool) (line : String) : List Toolbox.Request :=
  if line.isEmpty then [] else requestsFor mode (.ofLine line)

def handling (t : Toolbox σ) (mode : Option Tool) (s : Workshop σ) (line : String) : Handling σ :=
  { line := line
    mode := mode
    before := s
    calls := (requestsOf mode line).map fun q => (q, (t.perform s q).1)
    printed := (turnOf t mode s line).output
    after := (turnOf t mode s line).shop }

@[simp] theorem handling_after (t : Toolbox σ) (mode : Option Tool) (s : Workshop σ)
    (line : String) : (handling t mode s line).after = (turnOf t mode s line).shop := rfl

theorem candidateText_world (t : Toolbox σ) (w : World σ) :
    (candidateText t w).2 = (w.onDisk fun d => d.readText t.target.codePath).2 := by
  rw [candidateText]
  split
  next h => rw [h]
  next h => rw [h]

/-- What one line does to the session, whose mode follows from the lines before it. -/
structure Step (t : Toolbox σ) (earlier : List String) (mode : Option Tool) (s : Workshop σ)
    (line : String) : Prop where
  handled : Handled t (handling t mode s line)
  stops_iff : (turnOf t mode s line).goesOn = false ↔ Leaves line
  mode_after : ModeOf (earlier ++ [line]) (turnOf t mode s line).mode

section Steps

variable {earlier : List String} {line : String} {mode : Option Tool}

theorem not_leaves_of_says {word : String} (h : Says word line) (hexit : word ≠ "exit")
    (hquit : word ≠ "quit") : ¬ Leaves line := by
  rintro (he | hq)
  · exact hexit (h.symm.trans he)
  · exact hquit (h.symm.trans hq)

theorem not_leaves_of_switchesTo {name : String} (h : SwitchesTo name line) : ¬ Leaves line := by
  rintro (he | hq)
  · exact not_switchesTo he (by decide) h
  · exact not_switchesTo hq (by decide) h

theorem step_blank (t : Toolbox σ) (s : Workshop σ) (hmode : ModeOf earlier mode) :
    Step t earlier mode s "" where
  handled := .blank mode s
  stops_iff := iff_of_false Bool.true_eq_false.mp (by decide)
  mode_after := hmode.keep_word (show Says "" "" from rfl) (by decide) (by decide)

theorem step_of_command (t : Toolbox σ) (s : Workshop σ) (hmode : ModeOf earlier mode)
    (hne : line ≠ "") : Step t earlier mode s line := by
  have hturn : turnOf t mode s line = turn t mode s (.ofLine line) :=
    if_neg (mt String.isEmpty_iff.1 hne)
  have hcalls : requestsOf mode line = requestsFor mode (.ofLine line) :=
    if_neg (mt String.isEmpty_iff.1 hne)
  suffices hstep : Handled t (handling t mode s line) ∧
      ((turn t mode s (.ofLine line)).goesOn = false ↔ Leaves line) ∧
        ModeOf (earlier ++ [line]) (turn t mode s (.ofLine line)).mode by
    rw [← hturn] at hstep
    exact ⟨hstep.1, hstep.2.1, hstep.2.2⟩
  have hgoes : ¬ true = false := by decide
  have hmeaning := meaning_ofLine hne
  rw [handling, hturn, hcalls]
  revert hmeaning
  generalize Command.ofLine line = command
  rintro (h | h | h | h | h | h)
  case leave =>
    refine ⟨.leave h mode s, iff_of_true rfl h, ?_⟩
    rcases h with h | h <;> exact hmode.keep_word h (by decide) (by decide)
  case back =>
    have hstays := not_leaves_of_says h (by decide) (by decide)
    cases mode with
    | none => exact ⟨.back h none s, iff_of_false hgoes hstays, .back h⟩
    | some tool => exact ⟨.back h (some tool) s, iff_of_false hgoes hstays, .back h⟩
  case present =>
    have hstays := not_leaves_of_says h (by decide) (by decide)
    refine ⟨?_, iff_of_false hgoes hstays, hmode.keep_word h (by decide) (by decide)⟩
    have hpresent := Handled.present (t := t) h mode s
    rw [← candidateText_world] at hpresent
    exact hpresent
  case retry =>
    have hstays := not_leaves_of_says h (by decide) (by decide)
    exact ⟨.retry h mode rfl, iff_of_false hgoes hstays,
      hmode.keep_word h (by decide) (by decide)⟩
  case switch name =>
    have hstays := not_leaves_of_switchesTo h
    rw [turn]
    cases hname : Tool.ofName? name with
    | some tool =>
      have hsays := ofName?_eq_some_iff.1 hname
      exact ⟨.switched h hsays mode s, iff_of_false hgoes hstays,
        .select ⟨name, h, hsays⟩⟩
    | none =>
      have hnone (tool : Tool) : ¬ Says tool.name name := fun hsays => by
        rw [ofName?_eq_some_iff.2 hsays] at hname
        cases hname
      refine ⟨.unknown h hnone mode s, iff_of_false hgoes hstays,
        hmode.keep (fun hback => ?_) fun other hother => ?_⟩
      · exact not_switchesTo hback (by decide) h
      · obtain ⟨other, hswitch, hsays⟩ := hother
        exact hnone _ (hswitch.unique h ▸ hsays)
  case request =>
    refine ⟨?_, iff_of_false hgoes h.stays, hmode.keep h.not_back ?_⟩
    · cases mode with
      | some tool => exact .direct h rfl
      | none => exact .routed h rfl
    · rintro other ⟨name, hswitch, -⟩
      exact h.not_switch name hswitch

theorem step_line (t : Toolbox σ) (s : Workshop σ) (hmode : ModeOf earlier mode) (line : String) :
    Step t earlier mode s line := by
  by_cases hne : line = ""
  · exact hne ▸ step_blank t s hmode
  · exact step_of_command t s hmode hne

end Steps

/-- How the lines are handled from a mode on, up to one that leaves. -/
def course (t : Toolbox σ) : List String → Option Tool → Workshop σ → List (Handling σ)
  | [], _, _ => []
  | line :: rest, mode, s =>
    let u := turnOf t mode s (trim line)
    handling t mode s (trim line) :: if u.goesOn then course t rest u.mode u.shop else []

def shopAfter (s : Workshop σ) (hs : List (Handling σ)) : Workshop σ :=
  (hs.getLast?.map (·.after)).getD s

/-- One of the lines left the session. -/
def Left (hs : List (Handling σ)) : Prop := ∃ h ∈ hs, Leaves h.line

/-- A session's course: its lines are handled one after another in the mode that the lines before
them ask for, up to the first that leaves. -/
structure Course (t : Toolbox σ) (earlier lines : List String) (s : Workshop σ)
    (hs : List (Handling σ)) : Prop where
  handled : ∀ h ∈ hs, Handled t h
  lines_read : ∃ unread, lines.map trim = hs.map (·.line) ++ unread ∧ (unread = [] ∨ Left hs)
  first_leaves : ∀ front h rest, hs = front ++ h :: rest → Leaves h.line → rest = []
  modes : ∀ front h rest, hs = front ++ h :: rest → ModeOf (earlier ++ front.map (·.line)) h.mode
  linked : ∀ front h rest, hs = front ++ h :: rest → h.before = shopAfter s front

section Courses

variable {t : Toolbox σ} {earlier lines : List String} {line : String} {mode : Option Tool}
  {s : Workshop σ} {h : Handling σ} {hs : List (Handling σ)}

theorem course_nil : Course t earlier [] s [] where
  handled := List.forall_mem_nil _
  lines_read := ⟨[], rfl, .inl rfl⟩
  first_leaves front h rest heq := absurd heq.symm (by simp)
  modes front h rest heq := absurd heq.symm (by simp)
  linked front h rest heq := absurd heq.symm (by simp)

theorem shopAfter_cons (s : Workshop σ) (h : Handling σ) (hs : List (Handling σ)) :
    shopAfter s (h :: hs) = shopAfter h.after hs := by
  unfold shopAfter
  rw [List.getLast?_cons]
  cases hs.getLast? <;> rfl

/-- A line that leaves is the last one. -/
theorem course_leave (hstep : Step t earlier mode s (trim line)) (hmode : ModeOf earlier mode)
    (hleave : Leaves (trim line)) (rest : List String) :
    Course t earlier (line :: rest) s [handling t mode s (trim line)] where
  handled := List.forall_mem_singleton.2 hstep.handled
  lines_read := ⟨rest.map trim, rfl, .inr ⟨_, List.mem_singleton_self _, hleave⟩⟩
  first_leaves front h rest heq _ := by
    cases front with
    | nil => exact (List.cons.inj heq).2.symm
    | cons f front => exact absurd (List.cons.inj heq).2.symm (by simp)
  modes front h rest heq := by
    cases front with
    | nil =>
      obtain ⟨rfl, -⟩ := List.cons.inj heq
      rwa [List.map_nil, List.append_nil]
    | cons f front => exact absurd (List.cons.inj heq).2.symm (by simp)
  linked front h rest heq := by
    cases front with
    | nil =>
      obtain ⟨rfl, -⟩ := List.cons.inj heq
      rfl
    | cons f front => exact absurd (List.cons.inj heq).2.symm (by simp)

/-- A line that does not leave comes before the course of the others. -/
theorem course_cons (hstep : Step t earlier mode s (trim line)) (hmode : ModeOf earlier mode)
    (hstays : ¬ Leaves (trim line))
    (hrest : Course t (earlier ++ [trim line]) lines (turnOf t mode s (trim line)).shop hs) :
    Course t earlier (line :: lines) s (handling t mode s (trim line) :: hs) where
  handled := List.forall_mem_cons.2 ⟨hstep.handled, hrest.handled⟩
  lines_read := by
    obtain ⟨unread, hread, hend⟩ := hrest.lines_read
    refine ⟨unread, by rw [List.map_cons, hread]; rfl, hend.imp_right ?_⟩
    rintro ⟨h, hmem, hleave⟩
    exact ⟨h, List.mem_cons_of_mem _ hmem, hleave⟩
  first_leaves front h rest heq hleave := by
    cases front with
    | nil =>
      obtain ⟨rfl, -⟩ := List.cons.inj heq
      exact absurd hleave hstays
    | cons f front => exact hrest.first_leaves front h rest (List.cons.inj heq).2 hleave
  modes front h rest heq := by
    cases front with
    | nil =>
      obtain ⟨rfl, -⟩ := List.cons.inj heq
      rwa [List.map_nil, List.append_nil]
    | cons f front =>
      obtain ⟨rfl, hfront⟩ := List.cons.inj heq
      have hmodes := hrest.modes front h rest hfront
      rwa [List.append_assoc] at hmodes
  linked front h rest heq := by
    cases front with
    | nil =>
      obtain ⟨rfl, -⟩ := List.cons.inj heq
      rfl
    | cons f front =>
      obtain ⟨rfl, hfront⟩ := List.cons.inj heq
      rw [shopAfter_cons, handling_after]
      exact hrest.linked front h rest hfront

theorem course_spec (t : Toolbox σ) (lines : List String) (s : Workshop σ)
    (hmode : ModeOf earlier mode) : Course t earlier lines s (course t lines mode s) := by
  induction lines generalizing earlier mode s with
  | nil => exact course_nil
  | cons line lines ih =>
    have hstep := step_line t s hmode (trim line)
    rw [course]
    by_cases hleave : Leaves (trim line)
    · rw [hstep.stops_iff.2 hleave]
      exact course_leave hstep hmode hleave lines
    · rw [Bool.eq_true_of_not_eq_false (mt hstep.stops_iff.1 hleave), if_pos rfl]
      exact course_cons hstep hmode hleave (ih _ hstep.mode_after)

/-- The prompts and what the lines printed. A prompt that found no line is the last. -/
def transcript (final : Option Tool) : List (Handling σ) → String
  | [] => promptText final
  | h :: hs =>
    promptText h.mode ++ h.printed ++ if Leaves h.line then "" else transcript final hs

/-- Nobody has asked to stop. -/
def Uncancelled (s : Workshop σ) (hs : List (Handling σ)) : Prop :=
  ∀ s' ∈ s :: hs.map (·.after), s'.world.cancelled = false

theorem uncancelled_cons :
    Uncancelled s (h :: hs) ↔ s.world.cancelled = false ∧ Uncancelled h.after hs :=
  List.forall_mem_cons

theorem transcript_handling (t : Toolbox σ) (mode : Option Tool) (s : Workshop σ) (line : String)
    (final : Option Tool) (hs : List (Handling σ)) :
    transcript final (handling t mode s line :: hs) =
      promptText mode ++ (turnOf t mode s line).output ++
        if Leaves line then "" else transcript final hs := rfl

theorem run_cons (t : Toolbox σ) (line : String) (more : List (Option String))
    (mode : Option Tool) (hcalm : s.world.cancelled = false) :
    run t (some line :: more) mode s =
      let u := turnOf t mode s (trim line)
      if u.goesOn then
        let r := run t more u.mode u.shop
        (promptText mode ++ u.output ++ r.1, r.2)
      else (promptText mode ++ u.output, .done, u.shop) := by
  rw [run, hcalm, if_neg Bool.false_ne_true, turnOf]
  dsimp only
  split
  · simp
  · rfl

/-- A session follows its course, and what comes behind a line that leaves is not looked at. -/
theorem run_course (more : List (Option String)) (hmode : ModeOf earlier mode)
    (hcalm : Uncancelled s (course t lines mode s))
    (hmore : more = [] ∨ Left (course t lines mode s)) :
    ∃ final, ModeOf (earlier ++ (course t lines mode s).map (·.line)) final ∧
      run t (lines.map some ++ more) mode s =
        (transcript final (course t lines mode s), .done, shopAfter s (course t lines mode s)) := by
  induction lines generalizing earlier mode s with
  | nil =>
    obtain rfl : more = [] := hmore.resolve_right fun ⟨h, hmem, _⟩ => absurd hmem List.not_mem_nil
    refine ⟨mode, by rwa [course, List.map_nil, List.append_nil], ?_⟩
    rw [List.map_nil, List.nil_append, run, hcalm s List.mem_cons_self, if_neg Bool.false_ne_true]
    rfl
  | cons line lines ih =>
    have hstep := step_line t s hmode (trim line)
    rw [course] at hcalm hmore ⊢
    rw [uncancelled_cons, handling_after] at hcalm
    have hrun := run_cons t line (lines.map some ++ more) mode hcalm.1
    dsimp only at hrun
    have hlines : (line :: lines).map some ++ more = some line :: (lines.map some ++ more) := rfl
    rw [hlines, hrun, shopAfter_cons, handling_after]
    by_cases hleave : Leaves (trim line)
    · rw [hstep.stops_iff.2 hleave, if_neg Bool.false_ne_true, if_neg Bool.false_ne_true]
      refine ⟨_, hstep.mode_after, ?_⟩
      rw [transcript_handling, if_pos hleave, String.append_empty]
      rfl
    · rw [Bool.eq_true_of_not_eq_false (mt hstep.stops_iff.1 hleave), if_pos rfl] at hcalm hmore ⊢
      rw [if_pos rfl]
      have hmore' : more = [] ∨ Left (course t lines _ _) := hmore.imp_right fun hleft => by
        obtain ⟨h, hmem, hh⟩ := hleft
        obtain rfl | hmem := List.mem_cons.1 hmem
        · exact absurd hh hleave
        · exact ⟨h, hmem, hh⟩
      obtain ⟨final, hfinal, hrest⟩ := ih hstep.mode_after hcalm.2 hmore'
      refine ⟨final, by rwa [List.append_assoc] at hfinal, ?_⟩
      rw [hrest, transcript_handling, if_neg hleave]

/-- What a line that is handled leaves alone, and what it prints of a failure. -/
structure Effect (h : Handling σ) : Prop where
  failed : ∀ q e, (q, .error e) ∈ h.calls → h.printed = s!"error: {e.message}\n"
  idle : h.calls = [] →
    h.after = { h.before with world := { h.before.world with disk := h.after.world.disk } }
  router : (∀ instruction result, (.routed instruction, result) ∉ h.calls) →
    h.after.router = h.before.router

theorem effect_of_idle (hcalls : h.calls = []) (hafter : h.after = h.before) : Effect h where
  failed q e hmem := by
    rw [hcalls] at hmem
    exact absurd hmem List.not_mem_nil
  idle _ := by rw [hafter]
  router _ := by rw [hafter]

theorem effect_of_call {q : Toolbox.Request} {result : Except ToolError Routed}
    (hcalls : h.calls = [(q, result)]) (hprinted : h.printed = shown result)
    (hrouter : (∀ instruction, q ≠ .routed instruction) → h.after.router = h.before.router) :
    Effect h where
  failed q' e hmem := by
    rw [hcalls, List.mem_singleton, Prod.mk.injEq] at hmem
    rw [hprinted, ← hmem.2]
    rfl
  idle hnone := by
    rw [hcalls] at hnone
    cases hnone
  router hnot := by
    refine hrouter fun instruction hq => ?_
    rw [hcalls, hq] at hnot
    exact hnot instruction result (List.mem_singleton_self _)

theorem Handled.effect (hh : Handled t h) : Effect h := by
  cases hh with
  | blank mode s => exact effect_of_idle rfl rfl
  | leave _ mode s => exact effect_of_idle rfl rfl
  | back _ mode s => exact effect_of_idle rfl rfl
  | switched _ _ mode s => exact effect_of_idle rfl rfl
  | unknown _ _ mode s => exact effect_of_idle rfl rfl
  | present _ mode s =>
    refine ⟨fun q e hmem => absurd hmem List.not_mem_nil, fun _ => ?_, fun _ => rfl⟩
    rfl
  | retry _ mode hrun =>
    refine effect_of_call rfl rfl fun _ => ?_
    exact (congrArg (·.2.router) hrun).symm.trans (t.run_router .modifier "" _)
  | @direct line _ tool _ _ _ hrun =>
    refine effect_of_call rfl rfl fun _ => ?_
    exact (congrArg (·.2.router) hrun).symm.trans (t.run_router tool line _)
  | routed _ _ => exact effect_of_call rfl rfl fun hnot => absurd rfl (hnot _)

theorem modeOf_unique {m m' : Option Tool} (h : ModeOf earlier m) (h' : ModeOf earlier m') :
    m = m' :=
  Option.ext fun tool => (h tool).trans (h' tool).symm

/-- A session follows its commands through every failure, and looks at no line behind the one that
ends it. -/
theorem start_follows_commands (t : Toolbox σ) (text : String) (s : Workshop σ) :
    Course t [] (textLines text) s (course t (textLines text) none s) ∧
    (∀ h ∈ course t (textLines text) none s, Effect h) ∧
    (Uncancelled s (course t (textLines text) none s) →
      (∃ final, ModeOf ((course t (textLines text) none s).map (·.line)) final ∧
        start t (encode text) s =
          (banner ++ "\n" ++ transcript final (course t (textLines text) none s), .done,
            shopAfter s (course t (textLines text) none s))) ∧
      (Left (course t (textLines text) none s) → ∀ more,
        run t ((textLines text).map some ++ more) none s =
          run t ((textLines text).map some) none s)) := by
  have hspec := course_spec t (textLines text) s modeOf_nil
  refine ⟨hspec, fun h hmem => (hspec.handled h hmem).effect, fun hcalm => ⟨?_, ?_⟩⟩
  · obtain ⟨final, hfinal, hrun⟩ := run_course [] modeOf_nil hcalm (.inl rfl)
    rw [List.append_nil] at hrun
    exact ⟨final, hfinal, by rw [start, inputLines_encode, hrun]⟩
  · intro hleft more
    obtain ⟨final, hfinal, hrun⟩ := run_course [] modeOf_nil hcalm (.inl rfl)
    obtain ⟨final', hfinal', hrun'⟩ := run_course more modeOf_nil hcalm (.inr hleft)
    rw [List.append_nil] at hrun
    rw [hrun', hrun, modeOf_unique hfinal' hfinal]

end Courses

def rehearsalTools : Toolbox Scripted.Script where
  routerClient := Scripted.client .router .messages
  converterClient := Scripted.client .converter .messages
  explainerClient := Scripted.client .explainer .messages
  repair := Repair.rehearsal
  target := ⟨"main.cpp", "main.rs", "Cargo.toml"⟩
  stdinPath := none

def rehearsalShop : Workshop Scripted.Script :=
  ⟨Repair.rehearsalAgent, Repair.rehearsalAgent, Repair.rehearsalAgent, Repair.rehearsalAgent,
    Repair.rehearsalWorld⟩

def rehearsalText : String :=
  "switch to Explainer\nWhy?\n\nback\nsomething vague\nretry\n Exit\nnever read\n"

theorem rehearsal_follows_commands :
    (course rehearsalTools (textLines rehearsalText) none rehearsalShop).map
        (fun h => (h.line, h.mode, h.calls.map Prod.fst)) =
      [("switch to Explainer", none, []),
        ("Why?", some .explainer, [.direct .explainer "Why?"]),
        ("", some .explainer, []),
        ("back", some .explainer, []),
        ("something vague", none, [.routed "something vague"]),
        ("retry", none, [.direct .modifier ""]),
        ("Exit", none, [])] ∧
      (course rehearsalTools (textLines rehearsalText) none rehearsalShop)[4]?.map (·.printed) =
        some "error: router reply has no `[TOOL_CHOICE]` section\n" ∧
      ∃ final, start rehearsalTools (encode rehearsalText) rehearsalShop =
        (banner ++ "\n" ++ transcript final
          (course rehearsalTools (textLines rehearsalText) none rehearsalShop), .done,
          shopAfter rehearsalShop
            (course rehearsalTools (textLines rehearsalText) none rehearsalShop)) := by
  have hcalm : Uncancelled rehearsalShop
      (course rehearsalTools (textLines rehearsalText) none rehearsalShop) := by
    unfold Uncancelled
    decide +kernel
  obtain ⟨⟨final, -, hstart⟩, -⟩ :=
    (start_follows_commands rehearsalTools rehearsalText rehearsalShop).2.2 hcalm
  exact ⟨by decide +kernel, by decide +kernel, final, hstart⟩

end Anneal.Session
