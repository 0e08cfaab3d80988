import Anneal.Proofs.Repair.Trace

/-! What one verification asks the toolchains and what it comes to, by their answers. The rest of
the development knows a verification by this relation and does not open the functions. -/

namespace Anneal.Repair

variable {σ : Type} {s : Setup σ} {q : Request}

def Setup.toolchain (s : Setup σ) : Side → Toolchain σ
  | .candidate => s.candidate
  | .reference => s.reference

def Request.source (q : Request) : Side → String
  | .candidate => q.candidatePath
  | .reference => q.referencePath

def Request.compiling (q : Request) (side : Side) (r : Except Failure StepResult) : Call :=
  .compile side (q.source side) r

def Request.running (q : Request) (side : Side) (r : Except Failure StepResult) : Call :=
  .run side (executableFor (q.source side)) q.stdinPath r

inductive ReferenceCheck (q : Request) :
    List Call → Except Failure (Except String String) → Prop
  | uncompiled (e : Failure) : ReferenceCheck q [q.compiling .reference (.error e)] (.error e)
  | compileFails {c : StepResult} (hc : c.ok = false) :
      ReferenceCheck q [q.compiling .reference (.ok c)]
        (.ok (.error ("reference program failed to compile:\n" ++ c.text)))
  | unrun {c : StepResult} (hc : c.ok = true) (e : Failure) :
      ReferenceCheck q [q.compiling .reference (.ok c), q.running .reference (.error e)] (.error e)
  | runFails {c r : StepResult} (hc : c.ok = true) (hr : r.ok = false) :
      ReferenceCheck q [q.compiling .reference (.ok c), q.running .reference (.ok r)]
        (.ok (.error ("reference program failed to run:\n" ++ r.text)))
  | printed {c r : StepResult} (hc : c.ok = true) (hr : r.ok = true) :
      ReferenceCheck q [q.compiling .reference (.ok c), q.running .reference (.ok r)]
        (.ok (.ok r.text))

/-- The calls of a verification, what it comes to, and the output of the reference that is known
after it; `known` is the one before it. -/
inductive Check (s : Setup σ) (q : Request) (known : Option String) :
    List Call → Except Failure Verdict → Option String → Prop
  | uncompiled (e : Failure) :
      Check s q known [q.compiling .candidate (.error e)] (.error e) known
  | compileFails {c : StepResult} (hc : c.ok = false) :
      Check s q known [q.compiling .candidate (.ok c)]
        (.ok (.failed .compileError (.fail .compile "" c.text))) known
  | unrun {c : StepResult} (hc : c.ok = true) (e : Failure) :
      Check s q known [q.compiling .candidate (.ok c), q.running .candidate (.error e)]
        (.error e) known
  | runFails {c r : StepResult} (hc : c.ok = true) (hr : r.ok = false) :
      Check s q known [q.compiling .candidate (.ok c), q.running .candidate (.ok r)]
        (.ok (.failed .runtimeError (.fail .run "" r.text))) known
  | compared {c r : StepResult} {expected : String} (hc : c.ok = true) (hr : r.ok = true)
      (hk : known = some expected) :
      Check s q known [q.compiling .candidate (.ok c), q.running .candidate (.ok r)]
        (.ok (judge s r.text expected)) known
  | unanswered {c r : StepResult} {calls : List Call} {e : Failure} (hc : c.ok = true)
      (hr : r.ok = true) (hk : known = none) (hq : ReferenceCheck q calls (.error e)) :
      Check s q known (q.compiling .candidate (.ok c) :: q.running .candidate (.ok r) :: calls)
        (.error e) none
  | broken {c r : StepResult} {calls : List Call} {diagnostic : String} (hc : c.ok = true)
      (hr : r.ok = true) (hk : known = none)
      (hq : ReferenceCheck q calls (.ok (.error diagnostic))) :
      Check s q known (q.compiling .candidate (.ok c) :: q.running .candidate (.ok r) :: calls)
        (.ok (.referenceBroken diagnostic)) none
  | answered {c r : StepResult} {calls : List Call} {expected : String} (hc : c.ok = true)
      (hr : r.ok = true) (hk : known = none) (hq : ReferenceCheck q calls (.ok (.ok expected))) :
      Check s q known (q.compiling .candidate (.ok c) :: q.running .candidate (.ok r) :: calls)
        (.ok (judge s r.text expected)) (some expected)

def Entry.Genuine (s : Setup σ) (q : Request) (e : Entry σ) : Prop :=
  match e.call with
  | .compile side source r =>
      source = q.source side ∧ (s.toolchain side).compile source e.before = (r, e.after)
  | .run side executable stdin r =>
      executable = executableFor (q.source side) ∧ stdin = q.stdinPath ∧
        (s.toolchain side).run executable stdin e.before = (r, e.after)
  | .chat text r =>
      ∃ a a' : Agent, a.chat s.client text s.settings.options e.before = (r, a', e.after)
  | .write text =>
      (e.before.onDisk fun d => Artifact.writeAtomic d q.candidatePath text) = (.ok (), e.after)

def Linked (s : Setup σ) (q : Request) : World σ → List (Entry σ) → World σ → Prop
  | w, [], w' => w = w'
  | w, e :: es, w' => e.before = w ∧ e.Genuine s q ∧ Linked s q e.after es w'

theorem Linked.genuine {w w' : World σ} {es : List (Entry σ)} (h : Linked s q w es w') :
    ∀ e ∈ es, e.Genuine s q := by
  induction es generalizing w with
  | nil => simp
  | cons e es ih =>
    obtain ⟨-, he, hes⟩ := h
    intro f hf
    rcases List.mem_cons.1 hf with rfl | hf
    · exact he
    · exact ih hes f hf

theorem Linked.append {w₁ w₂ w₃ : World σ} {es fs : List (Entry σ)}
    (h₁ : Linked s q w₁ es w₂) (h₂ : Linked s q w₂ fs w₃) : Linked s q w₁ (es ++ fs) w₃ := by
  induction es generalizing w₁ with
  | nil => exact (show w₁ = w₂ from h₁) ▸ h₂
  | cons e es ih => exact ⟨h₁.1, h₁.2.1, ih h₁.2.2⟩

def Adds (s : Setup σ) (q : Request) (p : Progress σ) (calls : List Call)
    (known : Option String) (p' : Progress σ) : Prop :=
  ∃ es w, callsOf es = calls ∧ Linked s q p.world es w ∧
    p' = { p with entries := p.entries ++ es, referenceOutput := known, world := w }

theorem Adds.append {p m p' : Progress σ} {calls calls' : List Call} {known known' : Option String}
    (h₁ : Adds s q p calls known m) (h₂ : Adds s q m calls' known' p') :
    Adds s q p (calls ++ calls') known' p' := by
  obtain ⟨es, w, rfl, hes, rfl⟩ := h₁
  obtain ⟨fs, w', rfl, hfs, rfl⟩ := h₂
  exact ⟨es ++ fs, w', callsOf_append es fs, hes.append hfs, by simp⟩

theorem Adds.referenceOutput {p p' : Progress σ} {calls : List Call} {known : Option String}
    (h : Adds s q p calls known p') : p'.referenceOutput = known := by
  obtain ⟨_, _, -, -, rfl⟩ := h
  rfl

theorem compileStep_adds (side : Side) {p p' : Progress σ} {r : Except Failure StepResult}
    (h : compileStep side (s.toolchain side) (q.source side) p = (r, p')) :
    Adds s q p [q.compiling side r] p.referenceOutput p' := by
  cases h
  refine ⟨_, _, ?_, ?_, rfl⟩
  · rfl
  · exact ⟨rfl, ⟨rfl, rfl⟩, rfl⟩

theorem runStep_adds (side : Side) {p p' : Progress σ} {r : Except Failure StepResult}
    (h : runStep side (s.toolchain side) (executableFor (q.source side)) q.stdinPath p = (r, p')) :
    Adds s q p [q.running side r] p.referenceOutput p' := by
  cases h
  refine ⟨_, _, ?_, ?_, rfl⟩
  · rfl
  · exact ⟨rfl, ⟨rfl, rfl, rfl⟩, rfl⟩

theorem runStep_adds_compiled (side : Side) {p m p' : Progress σ} {c : StepResult}
    {r : Except Failure StepResult}
    (hc : compileStep side (s.toolchain side) (q.source side) p = (.ok c, m))
    (hr : runStep side (s.toolchain side) (executableFor (q.source side)) q.stdinPath m =
      (r, p')) :
    Adds s q p [q.compiling side (.ok c), q.running side r] p.referenceOutput p' := by
  have hm := compileStep_adds side hc
  have hp := runStep_adds side hr
  rw [hm.referenceOutput] at hp
  exact hm.append hp

def knownAfter (known : Option String) : Except Failure (Except String String) → Option String
  | .ok (.ok output) => some output
  | _ => known

theorem runReference_spec {p p' : Progress σ} {r : Except Failure (Except String String)}
    (h : runReference s q p = (r, p')) :
    ∃ calls, ReferenceCheck q calls r ∧ Adds s q p calls (knownAfter p.referenceOutput r) p' := by
  unfold runReference at h
  split at h
  next e m hc =>
    cases h
    exact ⟨_, .uncompiled e, compileStep_adds .reference hc⟩
  next c m hc =>
    split at h
    next hok =>
      cases h
      exact ⟨_, .compileFails (by simpa using hok), compileStep_adds .reference hc⟩
    next hok =>
      have hok : c.ok = true := by simpa using hok
      split at h
      next e m' hr =>
        cases h
        exact ⟨_, .unrun hok e, runStep_adds_compiled .reference hc hr⟩
      next r' m' hr =>
        have hm := runStep_adds_compiled .reference hc hr
        split at h
        next hran =>
          cases h
          exact ⟨_, .runFails hok (by simpa using hran), hm⟩
        next hran =>
          cases h
          obtain ⟨es, w, hes, hl, rfl⟩ := hm
          exact ⟨_, .printed hok (by simpa using hran), es, w, hes, hl, rfl⟩

theorem expectedOutput_spec {p p' : Progress σ} {r : Except Failure (Except String String)}
    (h : expectedOutput s q p = (r, p')) :
    (∃ output, p.referenceOutput = some output ∧ r = .ok (.ok output) ∧ p' = p) ∨
      (p.referenceOutput = none ∧ ∃ calls, ReferenceCheck q calls r ∧
        Adds s q p calls (knownAfter none r) p') := by
  unfold expectedOutput at h
  split at h
  next output hk =>
    cases h
    exact .inl ⟨output, hk, rfl, rfl⟩
  next hk =>
    obtain ⟨calls, hq, hp⟩ := runReference_spec h
    exact .inr ⟨hk, calls, hq, hk ▸ hp⟩

theorem verify_spec {p p' : Progress σ} {r : Except Failure Verdict}
    (h : verify s q p = (r, p')) :
    ∃ calls known, Check s q p.referenceOutput calls r known ∧ Adds s q p calls known p' := by
  unfold verify at h
  split at h
  next e m hc =>
    cases h
    exact ⟨_, _, .uncompiled e, compileStep_adds .candidate hc⟩
  next c m hc =>
    split at h
    next hok =>
      cases h
      exact ⟨_, _, .compileFails (by simpa using hok), compileStep_adds .candidate hc⟩
    next hok =>
      have hok : c.ok = true := by simpa using hok
      split at h
      next e m' hr =>
        cases h
        exact ⟨_, _, .unrun hok e, runStep_adds_compiled .candidate hc hr⟩
      next r' m' hr =>
        have hm := runStep_adds_compiled .candidate hc hr
        split at h
        next hran =>
          cases h
          exact ⟨_, _, .runFails hok (by simpa using hran), hm⟩
        next hran =>
          have hran : r'.ok = true := by simpa using hran
          have hk : m'.referenceOutput = p.referenceOutput := hm.referenceOutput
          -- From here on the verdict hangs on the reference.
          split at h
          next e m'' he =>
            cases h
            obtain ⟨_, _, hout, -⟩ | ⟨hn, calls, hq, hp⟩ := expectedOutput_spec he
            · cases hout
            · exact ⟨_, _, .unanswered hok hran (hk ▸ hn) hq, hm.append hp⟩
          next diagnostic m'' he =>
            cases h
            obtain ⟨_, _, hout, -⟩ | ⟨hn, calls, hq, hp⟩ := expectedOutput_spec he
            · cases hout
            · exact ⟨_, _, .broken hok hran (hk ▸ hn) hq, hm.append hp⟩
          next expected m'' he =>
            cases h
            obtain ⟨_, ho, hout, rfl⟩ | ⟨hn, calls, hq, hp⟩ := expectedOutput_spec he
            · cases hout
              exact ⟨_, _, .compared hok hran (hk ▸ ho), hm⟩
            · exact ⟨_, _, .answered hok hran (hk ▸ hn) hq, hm.append hp⟩

end Anneal.Repair
