import Anneal.Proofs.Repair.Verdict

/-! The calls of one verification as a block, and what sequences of such blocks have in common. The
reference is tried in the first block in which the candidate runs, and in no other. -/

namespace Anneal.Repair

variable {σ : Type} {s : Setup σ} {q : Request}

def passed : Except Failure StepResult → Bool
  | .ok r => r.ok
  | .error _ => false

structure Trial where
  compiled : Except Failure StepResult
  ran : Option (Except Failure StepResult)
  ran_isSome : ran.isSome = passed compiled

def Trial.passed (t : Trial) : Bool := t.ran.any Repair.passed

def Trial.calls (q : Request) (side : Side) (t : Trial) : List Call :=
  q.compiling side t.compiled :: (t.ran.map (q.running side)).toList

/-- What one verification asks the toolchains. -/
structure Block where
  candidate : Trial
  reference : Option Trial

def Block.calls (q : Request) (b : Block) : List Call :=
  b.candidate.calls q .candidate ++ (b.reference.map (Trial.calls q .reference)).getD []

def Ordered (blocks : List Block) : Prop :=
  ∀ front b back, blocks = front ++ b :: back →
    (b.reference.isSome = true ↔ b.candidate.passed = true ∧ ∀ a ∈ front, a.reference = none)

theorem ordered_concat {blocks : List Block} {b : Block} :
    Ordered (blocks ++ [b]) ↔ Ordered blocks ∧
      (b.reference.isSome = true ↔
        b.candidate.passed = true ∧ ∀ a ∈ blocks, a.reference = none) := by
  constructor
  · intro h
    refine ⟨fun front c back hc => ?_, h blocks b [] rfl⟩
    exact h front c (back ++ [b]) (by rw [hc, List.append_assoc, List.cons_append])
  · rintro ⟨h, hb⟩ front c back hc
    rcases List.eq_nil_or_concat back with rfl | ⟨back, d, rfl⟩
    · obtain ⟨rfl, hbc⟩ := List.append_inj' hc rfl
      obtain rfl := List.singleton_inj.1 hbc
      exact hb
    · rw [List.concat_eq_append, ← List.cons_append, ← List.append_assoc] at hc
      exact h front c back (List.append_inj' hc rfl).1

theorem Ordered.once {blocks : List Block} (h : Ordered blocks) :
    blocks.countP (fun b => b.reference.isSome) ≤ 1 := by
  induction blocks using List.reverseRecOn with
  | nil => exact Nat.zero_le 1
  | append_singleton blocks b ih =>
    obtain ⟨h, hb⟩ := ordered_concat.1 h
    rw [List.countP_append, List.countP_singleton]
    split
    next hs =>
      have hnone := (hb.1 hs).2
      have : blocks.countP (fun b => b.reference.isSome) = 0 :=
        List.countP_eq_zero.2 fun a ha => by simp [hnone a ha]
      omega
    next => exact ih h

theorem ReferenceCheck.trial {calls : List Call} {r : Except Failure (Except String String)}
    (h : ReferenceCheck q calls r) : ∃ t : Trial, calls = t.calls q .reference := by
  cases h with
  | uncompiled e => exact ⟨⟨.error e, none, rfl⟩, rfl⟩
  | @compileFails c hc => exact ⟨⟨.ok c, none, hc.symm⟩, rfl⟩
  | @unrun c hc e => exact ⟨⟨.ok c, some (.error e), hc.symm⟩, rfl⟩
  | @runFails c r hc hr => exact ⟨⟨.ok c, some (.ok r), hc.symm⟩, rfl⟩
  | @printed c r hc hr => exact ⟨⟨.ok c, some (.ok r), hc.symm⟩, rfl⟩

theorem Check.block {known known' : Option String} {calls : List Call}
    {r : Except Failure Verdict} (h : Check s q known calls r known') :
    ∃ b : Block, calls = b.calls q ∧
      (b.reference.isSome = true ↔ b.candidate.passed = true ∧ known = none) ∧
      ∀ c outcome, r = .ok (.failed c outcome) →
        (known' = none ↔ known = none ∧ b.reference = none) := by
  -- Both programs are tried.
  have hboth {c r : StepResult} {calls : List Call}
      {answer : Except Failure (Except String String)} (hc : c.ok = true) (hr : r.ok = true)
      (hq : ReferenceCheck q calls answer) :
      ∃ b : Block, q.compiling .candidate (.ok c) :: q.running .candidate (.ok r) :: calls =
        b.calls q ∧ b.candidate.passed = true ∧ b.reference.isSome = true := by
    obtain ⟨t, rfl⟩ := hq.trial
    exact ⟨⟨⟨.ok c, some (.ok r), hc.symm⟩, some t⟩, rfl, hr, rfl⟩
  cases h with
  | uncompiled e =>
    exact ⟨⟨⟨.error e, none, rfl⟩, none⟩, rfl, by simp [Trial.passed], by simp⟩
  | @compileFails c hc =>
    exact ⟨⟨⟨.ok c, none, hc.symm⟩, none⟩, rfl, by simp [Trial.passed], by simp⟩
  | @unrun c hc e =>
    exact ⟨⟨⟨.ok c, some (.error e), hc.symm⟩, none⟩, rfl, by simp [Trial.passed, passed], by simp⟩
  | @runFails c r hc hr =>
    exact ⟨⟨⟨.ok c, some (.ok r), hc.symm⟩, none⟩, rfl, by simp [Trial.passed, passed, hr], by simp⟩
  | @compared c r expected hc hr hk =>
    exact ⟨⟨⟨.ok c, some (.ok r), hc.symm⟩, none⟩, rfl, by simp [hk], by simp⟩
  | unanswered hc hr hk hq =>
    obtain ⟨b, hb, hp, hs⟩ := hboth hc hr hq
    exact ⟨b, hb, by simp [hp, hs, hk], by simp⟩
  | broken hc hr hk hq =>
    obtain ⟨b, hb, hp, hs⟩ := hboth hc hr hq
    exact ⟨b, hb, by simp [hp, hs, hk], by simp⟩
  | answered hc hr hk hq =>
    obtain ⟨b, hb, hp, hs⟩ := hboth hc hr hq
    refine ⟨b, hb, by simp [hp, hs, hk], fun _ _ _ => ?_⟩
    simp [Option.isSome_iff_ne_none.1 hs]

def toolCalls (calls : List Call) : List Call := calls.filter fun c => !c.isApart

theorem toolCalls_append (cs ds : List Call) :
    toolCalls (cs ++ ds) = toolCalls cs ++ toolCalls ds := List.filter_append _ _

theorem toolCalls_eq_self {calls : List Call} (h : ∀ c ∈ calls, c.isApart = false) :
    toolCalls calls = calls := List.filter_eq_self.2 fun c hc => by simp [h c hc]

theorem toolCalls_eq_nil {calls : List Call} (h : ∀ c ∈ calls, c.isApart = true) :
    toolCalls calls = [] := List.filter_eq_nil_iff.2 fun c hc => by simp [h c hc]

def Call.side? : Call → Option Side
  | .compile side _ _ => some side
  | .run side _ _ _ => some side
  | _ => none

def Call.compiles (side : Side) : Call → Bool
  | .compile side' _ _ => side' = side
  | _ => false

def Call.runs (side : Side) : Call → Bool
  | .run side' _ _ _ => side' = side
  | _ => false

theorem Trial.calls_cases (q : Request) (side : Side) (t : Trial) :
    t.ran = none ∧ t.calls q side = [q.compiling side t.compiled] ∨
      ∃ r, t.ran = some r ∧ t.calls q side = [q.compiling side t.compiled, q.running side r] := by
  obtain ⟨compiled, _ | r, h⟩ := t
  · exact .inl ⟨rfl, rfl⟩
  · exact .inr ⟨r, rfl, rfl⟩

theorem Trial.countP_compiles (side side' : Side) (t : Trial) :
    (t.calls q side).countP (Call.compiles side') = if side = side' then 1 else 0 := by
  obtain ⟨-, hcalls⟩ | ⟨r, -, hcalls⟩ := t.calls_cases q side <;>
    simp [hcalls, Request.compiling, Request.running, Call.compiles, List.countP_cons]

theorem Trial.countP_runs (side side' : Side) (t : Trial) :
    (t.calls q side).countP (Call.runs side') =
      if side = side' ∧ t.ran.isSome = true then 1 else 0 := by
  obtain ⟨hran, hcalls⟩ | ⟨r, hran, hcalls⟩ := t.calls_cases q side <;>
    simp [hcalls, hran, Request.compiling, Request.running, Call.runs, List.countP_cons]

theorem Ordered.countP_le_one {blocks : List Block} {P : Call → Bool} (h : Ordered blocks)
    (hc : ∀ t : Trial, (t.calls q .candidate).countP P = 0)
    (hr : ∀ t : Trial, (t.calls q .reference).countP P ≤ 1) :
    (blocks.flatMap (Block.calls q)).countP P ≤ 1 := by
  -- Only the blocks that try the reference count, and there is one of these at most.
  have hblock (b : Block) : (b.calls q).countP P ≤ if b.reference.isSome then 1 else 0 := by
    obtain ⟨candidate, _ | t⟩ := b
    · exact (List.countP_append.trans (by rw [hc]; rfl)).le
    · exact (List.countP_append.trans (by rw [hc, Nat.zero_add]; rfl)).trans_le (hr t)
  have hsum : (blocks.flatMap (Block.calls q)).countP P ≤
      blocks.countP fun b => b.reference.isSome := by
    clear h
    induction blocks with
    | nil => exact le_rfl
    | cons b rest ih =>
      rw [List.flatMap_cons, List.countP_append, List.countP_cons, Nat.add_comm]
      exact Nat.add_le_add ih (hblock b)
  exact hsum.trans h.once

theorem countP_toolCalls {P : Call → Bool} (hP : ∀ c, P c = true → c.isApart = false)
    (calls : List Call) : (toolCalls calls).countP P = calls.countP P := by
  rw [toolCalls, List.countP_filter]
  refine List.countP_congr fun c _ => ?_
  rw [Bool.and_eq_true, Bool.not_eq_true']
  exact and_iff_left_of_imp (hP c)

/-- Each call about the reference has a compilation and a run of the candidate in front of it that
went well. -/
def Preceded (calls : List Call) : Prop :=
  ∀ front c back, calls = front ++ c :: back → c.side? = some .reference →
    Compiled .candidate front ∧ ∃ output, Printed .candidate front output

theorem Preceded.append {cs ds : List Call} (hc : Preceded cs) (hd : Preceded ds) :
    Preceded (cs ++ ds) := by
  intro front c back h hside
  obtain ⟨rest, hcs, -⟩ | ⟨front, hds, rfl⟩ := append_eq_append_cons_iff.1 h
  · exact hc front c rest hcs hside
  · obtain ⟨hcompiled, output, hprinted⟩ := hd front c back hds hside
    exact ⟨compiled_append.2 (.inr hcompiled), output, printed_append.2 (.inr hprinted)⟩

theorem preceded_of_candidate {calls : List Call}
    (h : ∀ c ∈ calls, c.side? = some .candidate) : Preceded calls := by
  rintro front c back rfl hside
  rw [h c (by simp)] at hside
  cases hside

theorem Trial.side_calls (side : Side) (t : Trial) :
    ∀ c ∈ t.calls q side, c.side? = some side := by
  obtain ⟨-, hcalls⟩ | ⟨r, -, hcalls⟩ := t.calls_cases q side <;>
    simp [hcalls, Request.compiling, Request.running, Call.side?]

theorem preceded_behind {cs ds : List Call} {output : String}
    (h : ∀ c ∈ cs, c.side? = some .candidate) (hc : Compiled .candidate cs)
    (hp : Printed .candidate cs output) : Preceded (cs ++ ds) := by
  intro front c back hcalls hside
  obtain ⟨rest, rfl, -⟩ | ⟨front, -, rfl⟩ := append_eq_append_cons_iff.1 hcalls
  · rw [h c (by simp)] at hside
    cases hside
  · exact ⟨compiled_append.2 (.inl hc), output, printed_append.2 (.inl hp)⟩

theorem Trial.passed_calls {t : Trial} (h : t.passed = true) :
    Compiled .candidate (t.calls q .candidate) ∧
      ∃ output, Printed .candidate (t.calls q .candidate) output := by
  obtain ⟨compiled, _ | (_ | r), hran⟩ := t
  · cases h
  · cases h
  · cases compiled with
    | error e => cases hran
    | ok c =>
      have hc : c.ok = true := hran.symm
      have hr : r.ok = true := h
      refine ⟨⟨c, ?_, hc⟩, r.text, r, ?_, hr, rfl⟩
      · simp [Trial.calls, compilations, Request.compiling]
      · simp [Trial.calls, runs, Request.compiling, Request.running]

theorem Ordered.preceded {blocks : List Block} (h : Ordered blocks) :
    Preceded (blocks.flatMap (Block.calls q)) := by
  induction blocks using List.reverseRecOn with
  | nil => exact preceded_of_candidate (by simp)
  | append_singleton blocks b ih =>
    obtain ⟨h, hb⟩ := ordered_concat.1 h
    rw [List.flatMap_append, List.flatMap_singleton]
    refine (ih h).append ?_
    cases hr : b.reference with
    | none =>
      refine preceded_of_candidate ?_
      simpa [Block.calls, hr] using b.candidate.side_calls .candidate
    | some t =>
      obtain ⟨hc, output, hp⟩ := Trial.passed_calls (q := q) (hb.1 (by rw [hr]; rfl)).1
      exact preceded_behind (b.candidate.side_calls .candidate) hc hp

theorem compilations_toolCalls (side : Side) (calls : List Call) :
    compilations side (toolCalls calls) = compilations side calls := by
  rw [toolCalls, compilations, List.filterMap_filter]
  refine List.filterMap_congr fun c _ => ?_
  cases c <;> rfl

theorem runs_toolCalls (side : Side) (calls : List Call) :
    runs side (toolCalls calls) = runs side calls := by
  rw [toolCalls, runs, List.filterMap_filter]
  refine List.filterMap_congr fun c _ => ?_
  cases c <;> rfl

theorem preceded_of_toolCalls {calls : List Call} (h : Preceded (toolCalls calls)) :
    Preceded calls := by
  rintro front c back rfl hside
  have hapart : c.isApart = false := by
    cases c <;> first | rfl | cases hside
  obtain ⟨hc, output, hp⟩ := h (toolCalls front) c (toolCalls back)
    (by simp [toolCalls, hapart]) hside
  refine ⟨?_, output, ?_⟩
  · rwa [Compiled, compilations_toolCalls] at hc
  · rwa [Printed, runs_toolCalls] at hp

end Anneal.Repair
