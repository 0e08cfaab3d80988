import Anneal.Proofs.Repair.Course

/-! The entries of a repair tell all that happens around it. Each is what the surroundings did in
the world that the repair had come to, and between two of them the repair only uses its own files. -/

namespace Anneal.Repair

variable {σ : Type} {s : Setup σ} {q : Request} {w w₁ w₂ w' : World σ} {es fs : List (Entry σ)}

/-- A step of the repair itself, which is not entered. -/
inductive Between (s : Setup σ) (q : Request) (w : World σ) : World σ → Prop
  | reads {w' : World σ} (h : Reads w w') : Between s q w w'
  | journaled {w' : World σ} (h : Journaled s w w') : Between s q w w'
  | unwritten {text : String} {e : OsError} {w' : World σ}
      (h : (w.onDisk fun d => Artifact.writeAtomic d q.candidatePath text) = (.error e, w')) :
      Between s q w w'

/-- The entries lead from one world to another. -/
inductive Traced (s : Setup σ) (q : Request) : World σ → List (Entry σ) → World σ → Prop
  | done (w : World σ) : Traced s q w [] w
  | between {w w₁ w' : World σ} {es : List (Entry σ)} (h : Between s q w w₁)
      (hes : Traced s q w₁ es w') : Traced s q w es w'
  | call {e : Entry σ} {es : List (Entry σ)} {w' : World σ} (he : e.Genuine s q)
      (hes : Traced s q e.after es w') : Traced s q e.before (e :: es) w'

namespace Traced

theorem append (h : Traced s q w es w₁) (h' : Traced s q w₁ fs w') :
    Traced s q w (es ++ fs) w' := by
  induction h with
  | done => exact h'
  | between hb _ ih => exact .between hb (ih h')
  | call he _ ih => exact .call he (ih h')

theorem then_between (h : Traced s q w es w₁) (hb : Between s q w₁ w') : Traced s q w es w' :=
  List.append_nil es ▸ h.append (.between hb (.done w'))

theorem then_call {e : Entry σ} (h : Traced s q w es e.before) (he : e.Genuine s q) :
    Traced s q w (es ++ [e]) e.after :=
  h.append (.call he (.done e.after))

theorem genuine (h : Traced s q w es w') : ∀ e ∈ es, e.Genuine s q := by
  induction h with
  | done => exact List.forall_mem_nil _
  | between _ _ ih => exact ih
  | call he _ ih => exact List.forall_mem_cons.2 ⟨he, ih⟩

/-- The part of a course in front of an entry leads to that entry. -/
theorem front {front back : List (Entry σ)} {e : Entry σ}
    (h : Traced s q w (front ++ e :: back) w') : Traced s q w front e.before := by
  generalize hes : front ++ e :: back = es at h
  induction h generalizing front with
  | done => simp at hes
  | between hb _ ih => exact .between hb (ih hes)
  | call he _ ih =>
    cases front with
    | nil =>
      obtain ⟨rfl, -⟩ := List.cons.inj hes
      exact .done _
    | cons f front =>
      obtain ⟨rfl, hrest⟩ := List.cons.inj hes
      exact .call he (ih hrest)

end Traced

theorem Linked.traced (h : Linked s q w es w') : Traced s q w es w' := by
  induction es generalizing w with
  | nil => exact (show w = w' from h) ▸ .done w
  | cons e es ih =>
    obtain ⟨rfl, he, hes⟩ := h
    exact .call he (ih hes)

theorem Asks.genuine {c : FailureClass} {outcome : Outcome} {p : Progress σ} {text : String}
    {r : Except ClientError String} {agent : Agent} (h : Asks s q c outcome p w text r agent w') :
    Entry.Genuine s q ⟨.chat text r, w, w'⟩ :=
  ⟨_, _, h.chat⟩

theorem Fixes.traced {c : FailureClass} {outcome : Outcome} {start w₀ : World σ}
    {p p' : Progress σ} {r : Except Failure Pass} (hf : Fixes s q c outcome start p r p')
    (h : Traced s q w₀ p.entries p.world) : Traced s q w₀ p'.entries p'.world := by
  have hasked {w w' : World σ} {text : String} {r : Except ClientError String} {agent : Agent}
      (ha : Asks s q c outcome p w text r agent w') :
      Traced s q w₀ (p.entries ++ [⟨.chat text r, w, w'⟩]) w' :=
    (h.then_between (.reads ha.reads)).then_call ha.genuine
  have hwritten {w w' : World σ} {es : List (Entry σ)} {text : String}
      (hes : Traced s q w₀ es w)
      (hd : (w.onDisk fun d => Artifact.writeAtomic d q.candidatePath text) = (.ok (), w')) :
      Traced s q w₀ (es ++ [⟨.write text, w, w'⟩]) w' :=
    hes.then_call (show Entry.Genuine s q ⟨.write text, w, w'⟩ from hd)
  cases hf with
  | unread hw => exact h.then_between (.reads hw)
  | refused ha => exact hasked ha
  | unusable ha => exact hasked ha
  | @unwritten w₁ w₂ text reply x agent e f d ha _ hd =>
    have hfailed : (w₂.onDisk fun d =>
        Artifact.writeAtomic d q.candidatePath (Artifact.sourceText x.code)) =
          (.error e, { w₂ with disk := d }) := by
      rw [World.onDisk, hd]
    exact (hasked ha).then_between (.unwritten hfailed)
  | unrecorded ha _ hd hj => exact (hwritten (hasked ha) hd).then_between (.journaled hj)
  | repaired ha _ hd hj => exact (hwritten (hasked ha) hd).then_between (.journaled hj)

theorem Passes.traced {w₀ : World σ} {p p' : Progress σ} {r : Except Failure Pass}
    (hp : Passes s q p r p') (h : Traced s q w₀ p.entries p.world) :
    Traced s q w₀ p'.entries p'.world := by
  have hverified {es : List (Entry σ)} {r : Except Failure Verdict} {known : Option String}
      {w : World σ} (hv : Verifies s q p es r known w) : Traced s q w₀ (p.entries ++ es) w :=
    h.append hv.linked.traced
  cases hp with
  | cancelled => exact h
  | unverified hv => exact hverified hv
  | fixed hv hj hf => exact hf.traced ((hverified hv).then_between (.journaled hj))
  | _ hv hj => exact (hverified hv).then_between (.journaled hj)

theorem Last.traced {r : Except Failure Stop} {p : Progress σ}
    (h : Last s q (fun p => Traced s q w p.entries p.world) r p) :
    Traced s q w p.entries p.world := by
  obtain ⟨_, _, hm, -, hp, -⟩ := h.exists_pass
  exact hp.traced hm

theorem diagnoseAndFix_traced {agent : Agent} {result : Except Failure Report} {p : Progress σ}
    (h : diagnoseAndFix s q agent w = (result, p)) : Traced s q w p.entries p.world := by
  have hends : Ends s q agent w (fun p => Traced s q w p.entries p.world) result p :=
    diagnoseAndFix_ends (fun w' hj => (Traced.done w).then_between (.journaled hj))
      (fun _ _ hm hp => hp.traced hm) h
  cases hends with
  | unopened hj => exact (Traced.done w).then_between (.journaled hj)
  | failed hl => exact hl.traced
  | unfinished hl hj => exact hl.traced.then_between (.journaled hj)
  | finished hl hj => exact hl.traced.then_between (.journaled hj)

theorem diagnoseAndFix_genuine {agent : Agent} {result : Except Failure Report} {p : Progress σ}
    (h : diagnoseAndFix s q agent w = (result, p)) : ∀ e ∈ p.entries, e.Genuine s q :=
  (diagnoseAndFix_traced h).genuine

structure Preserves (s : Setup σ) (q : Request) (I : World σ → Prop) : Prop where
  between : ∀ {w w' : World σ}, Between s q w w' → I w → I w'
  write : ∀ {text : String} {w w' : World σ},
    (w.onDisk fun d => Artifact.writeAtomic d q.candidatePath text) = (.ok (), w') → I w → I w'

/-- It is preserved throughout if the calls of this course preserve it. -/
theorem Preserves.traced {I : World σ → Prop} (hI : Preserves s q I) (h : Traced s q w es w')
    (hes : ∀ e ∈ es, e.call.isWrite = false → I e.before → I e.after) (hw : I w) : I w' := by
  induction h with
  | done => exact hw
  | between hb _ ih => exact ih hes (hI.between hb hw)
  | @call e es w' he _ ih =>
    obtain ⟨hcall, hes⟩ := List.forall_mem_cons.1 hes
    refine ih hes ?_
    cases hwrite : e.call.isWrite with
    | false => exact hcall hwrite hw
    | true =>
      obtain ⟨call, before, after⟩ := e
      cases call with
      | write text => exact hI.write he hw
      | _ => cases hwrite

end Anneal.Repair
