import Anneal.Proofs.Repair.Blocks
import Anneal.Proofs.Repair.Ending
import Anneal.Proofs.Repair.Traced

/-! The order in which the toolchains are asked. Every verification tries the candidate. The first
one in which the candidate runs tries the reference as well, and none after it does; a reference
that is broken there ends the repair. -/

namespace Anneal.Repair

variable {σ : Type} {s : Setup σ} {q : Request}

structure Blocked (q : Request) (es : List (Entry σ)) (blocks : List Block) : Prop where
  ordered : Ordered blocks
  calls : (verifications es).map (fun v => toolCalls v.calls) = blocks.map (Block.calls q)

structure Prepared (q : Request) (p : Progress σ) (blocks : List Block) : Prop where
  blocked : Blocked q p.entries blocks
  known : p.referenceOutput = none ↔ ∀ b ∈ blocks, b.reference = none

theorem prepared_start (q : Request) (agent : Agent) (w w' : World σ) :
    Prepared q { Progress.start agent w with world := w' } [] where
  blocked := ⟨fun front b back h => by simp at h, rfl⟩
  known := by simp [Progress.start]

theorem Prepared.verifies {p : Progress σ} {blocks : List Block} {es more : List (Entry σ)}
    {r : Except Failure Verdict} {known : Option String} {w : World σ}
    (h : Prepared q p blocks) (hv : Verifies s q p es r known w)
    (hm : ∀ e ∈ more, e.call.isApart = true) :
    ∃ b, Blocked q (p.entries ++ (es ++ more)) (blocks ++ [b]) ∧
      ∀ c outcome, r = .ok (.failed c outcome) →
        (known = none ↔ ∀ a ∈ blocks ++ [b], a.reference = none) := by
  obtain ⟨b, hb, hs, hk⟩ := hv.check.block
  refine ⟨b, ⟨ordered_concat.2 ⟨h.blocked.ordered, ?_⟩, ?_⟩, fun c outcome hr => ?_⟩
  · rw [hs, h.known]
  · rw [hv.verifications hm, List.map_append, List.map_append, h.blocked.calls]
    have hcalls : toolCalls (callsOf (es ++ more)) = b.calls q := by
      have hnil : toolCalls (callsOf more) = [] := toolCalls_eq_nil (List.forall_mem_map.2 hm)
      rw [callsOf_append, toolCalls_append, toolCalls_eq_self hv.check.apart, hnil,
        List.append_nil, hb]
    exact congrArg (fun calls => blocks.map (Block.calls q) ++ [calls]) hcalls
  · rw [hk c outcome hr, h.known, List.forall_mem_append, List.forall_mem_singleton]

/-- A pass that verified the candidate: the entries of the verification and those behind it. -/
structure Turn (s : Setup σ) (q : Request) (p : Progress σ) (es more : List (Entry σ))
    (answer : Except Failure Verdict) (r : Except Failure Pass) (p' : Progress σ) : Prop where
  verifies : ∃ w, Verifies s q p es answer p'.referenceOutput w
  apart : ∀ e ∈ more, e.call.isApart = true
  entries : p'.entries = p.entries ++ (es ++ more)
  repaired : r = .ok .repaired → ∃ c outcome, answer = .ok (.failed c outcome)
  broken : ∀ d, answer = .ok (.referenceBroken d) → more = [] ∧
    (r = .ok (.stopped ⟨.referenceBroken, d⟩) ∨ ∃ f, r = .error f ∧ Unjournaled s f p'.world)

theorem Passes.turn {p p' : Progress σ} {r : Except Failure Pass} (h : Passes s q p r p') :
    p' = p ∨ ∃ es more answer, Turn s q p es more answer r p' := by
  cases h with
  | cancelled => exact .inl rfl
  | unverified hv =>
    exact .inr ⟨_, [], _, ⟨_, hv⟩, by simp, by simp [Progress.verified], by simp, by simp⟩
  | unlogged hv hj hf =>
    exact .inr ⟨_, [], _, ⟨_, hv⟩, by simp, by simp [Progress.verified], by simp,
      fun _ _ => ⟨rfl, .inr ⟨_, rfl, hf⟩⟩⟩
  | converged hv hj =>
    exact .inr ⟨_, [], _, ⟨_, hv⟩, by simp, by simp [Progress.verified], by simp, by simp⟩
  | broken hv hj =>
    exact .inr ⟨_, [], _, ⟨_, hv⟩, by simp, by simp [Progress.verified], by simp,
      fun _ hd => by cases hd; exact ⟨rfl, .inl rfl⟩⟩
  | interrupted hv hj =>
    exact .inr ⟨_, [], _, ⟨_, hv⟩, by simp, by simp [Progress.verified], by simp, by simp⟩
  | @fixed es c outcome known w _ _ _ hv hj hf =>
    obtain ⟨more, hm, hentries, hknown⟩ := hf.more
    have hknown : p'.referenceOutput = known := hknown
    exact .inr ⟨es, more, _, ⟨w, hknown ▸ hv⟩, hm, hentries.trans (List.append_assoc _ _ _),
      fun _ => ⟨c, outcome, rfl⟩, by simp⟩

theorem Prepared.passes {p p' : Progress σ} {blocks : List Block} {r : Except Failure Pass}
    (h : Prepared q p blocks) (hp : Passes s q p r p') :
    ∃ blocks', Blocked q p'.entries blocks' ∧ (r = .ok .repaired → Prepared q p' blocks') := by
  obtain rfl | ⟨es, more, answer, ht⟩ := hp.turn
  · exact ⟨blocks, h.blocked, fun _ => h⟩
  · obtain ⟨w, hv⟩ := ht.verifies
    obtain ⟨b, hb, hk⟩ := h.verifies hv ht.apart
    rw [← ht.entries] at hb
    refine ⟨blocks ++ [b], hb, fun hr => ⟨hb, ?_⟩⟩
    obtain ⟨c, outcome, ha⟩ := ht.repaired hr
    exact hk c outcome ha

theorem flatten_own (es : List (Entry σ)) :
    ((verifications es).map Verification.own).flatten = es := by
  have hfrom (earlier : List (Entry σ)) (rounds : List (List (Entry σ))) :
      (verificationsFrom earlier rounds).map Verification.own = rounds := by
    induction rounds generalizing earlier with
    | nil => rfl
    | cons own rest ih => exact congrArg (own :: ·) (ih _)
  rw [verifications, hfrom, List.flatten_splitBy]

theorem toolCalls_flatten (rounds : List (List (Entry σ))) :
    toolCalls (callsOf rounds.flatten) =
      (rounds.map fun own => toolCalls (callsOf own)).flatten := by
  induction rounds with
  | nil => rfl
  | cons own rest ih =>
    rw [List.flatten_cons, callsOf_append, toolCalls_append, ih, List.map_cons, List.flatten_cons]

theorem Blocked.toolCalls {es : List (Entry σ)} {blocks : List Block} (h : Blocked q es blocks) :
    toolCalls (callsOf es) = blocks.flatMap (Block.calls q) := by
  conv_lhs => rw [← flatten_own es]
  rw [toolCalls_flatten, List.map_map]
  exact congrArg List.flatten h.calls

theorem Blocked.stdin {es : List (Entry σ)} {blocks : List Block} (h : Blocked q es blocks)
    {side : Side} {executable : String} {stdin : Option String} {r : Except Failure StepResult}
    (hc : Call.run side executable stdin r ∈ callsOf es) : stdin = q.stdinPath := by
  have hmem : Call.run side executable stdin r ∈ Repair.toolCalls (callsOf es) :=
    List.mem_filter.2 ⟨hc, rfl⟩
  rw [h.toolCalls] at hmem
  obtain ⟨b, -, hb⟩ := List.mem_flatMap.1 hmem
  have htrial {side' : Side} {t : Trial}
      (ht : Call.run side executable stdin r ∈ t.calls q side') : stdin = q.stdinPath := by
    obtain ⟨-, hcalls⟩ | ⟨r', -, hcalls⟩ := t.calls_cases q side' <;>
      simp_all [Request.compiling, Request.running]
  rcases List.mem_append.1 hb with ht | ht
  · exact htrial ht
  · cases hr : b.reference with
    | none => simp [hr] at ht
    | some t => exact htrial (by simpa [hr] using ht)

theorem Check.unbroken {known known' : Option String} {calls : List Call} {e : Failure}
    {v : Verification σ} {more : List Call} (h : Check s q known calls (.error e) known')
    (hv : v.calls = calls ++ more) (hm : ∀ c ∈ more, c.isApart = true) (d : String) :
    ¬ Breaks v d := by
  rw [breaks_iff, hv, compilations_append, runs_append, compilations_apart .reference hm,
    runs_apart .reference hm, List.append_nil, List.append_nil]
  cases h with
  | unanswered hc hr hk hq =>
    cases hq <;> simp_all [compilations, runs, Request.compiling, Request.running]
  | _ => simp [compilations, runs, Request.compiling, Request.running]

theorem Verifies.breaks_iff {p : Progress σ} {es more : List (Entry σ)}
    {r : Except Failure Verdict} {known : Option String} {w : World σ}
    (h : Verifies s q p es r known w) (hk : Remembers p.referenceOutput (callsOf p.entries))
    (hm : ∀ e ∈ more, e.call.isApart = true) (d : String) :
    Breaks ⟨p.entries, es ++ more⟩ d ↔ r = .ok (.referenceBroken d) := by
  cases r with
  | error e =>
    have hb := h.check.unbroken (v := ⟨p.entries, es ++ more⟩) (callsOf_append es more)
      (List.forall_mem_map.2 hm) d
    simp [hb]
  | ok verdict => rw [(h.judged hk hm).breaks, Except.ok.injEq]

theorem Sound.unbroken {p : Progress σ} (h : Sound s q p) :
    ∀ v ∈ verifications p.entries, ∀ d, ¬ Breaks v d := by
  have hall : List.Forall₂ (fun v a => (∀ d, ¬ Breaks v d) ∧ Recorded s q v a)
      (verifications p.entries) p.attempts := by
    refine h.recorded.imp fun v a ha => ⟨fun d hb => ?_, ha⟩
    cases (ha.judged.breaks d).1 hb
  exact ((List.forall₂_and_left _ _).1 hall).1

/-- What holds if a verification finds the reference broken: it is the last one, nothing but the
toolchains is called in it, and the pass ends the repair. -/
structure BreaksOff (entries : List (Entry σ)) (v : Verification σ) : Prop where
  last : entries = v.earlier ++ v.own
  quiet : ∀ e ∈ v.own, e.call.isApart = false

theorem Sound.breaksOff {m p : Progress σ} {pr : Except Failure Pass} (hm : Sound s q m)
    (hp : Passes s q m pr p) {v : Verification σ} (hv : v ∈ verifications p.entries) {d : String}
    (hb : Breaks v d) :
    BreaksOff p.entries v ∧
      (pr = .ok (.stopped ⟨.referenceBroken, d⟩) ∨
        ∃ f, pr = .error f ∧ Unjournaled s f p.world) := by
  obtain rfl | ⟨es, more, answer, ht⟩ := hp.turn
  · exact absurd hb (hm.unbroken v hv d)
  · obtain ⟨w, hverifies⟩ := ht.verifies
    rw [ht.entries, hverifies.verifications ht.apart, List.mem_append, List.mem_singleton] at hv
    obtain hv | rfl := hv
    · exact absurd hb (hm.unbroken v hv d)
    · obtain ⟨rfl, hpr⟩ := ht.broken d ((hverifies.breaks_iff hm.remembers ht.apart d).1 hb)
      refine ⟨⟨ht.entries, ?_⟩, hpr⟩
      rw [List.append_nil]
      exact List.forall_mem_map.1 hverifies.check.apart

/-- The calls of a repair are in order. -/
structure InOrder (s : Setup σ) (q : Request) (result : Except Failure Report)
    (entries : List (Entry σ)) (w : World σ) : Prop where
  blocks : ∃ blocks : List Block, Ordered blocks ∧
    (verifications entries).map (fun v => toolCalls v.calls) = blocks.map (Block.calls q) ∧
    toolCalls (callsOf entries) = blocks.flatMap (Block.calls q)
  compiledOnce : (callsOf entries).countP (Call.compiles .reference) ≤ 1
  ranOnce : (callsOf entries).countP (Call.runs .reference) ≤ 1
  preceded : Preceded (callsOf entries)
  broken : ∀ v ∈ verifications entries, ∀ d, Breaks v d → BreaksOff entries v ∧
    ((∃ r, result = .ok r ∧ r.stop = .referenceBroken ∧ r.detail = d) ∨
      ∃ f, result = .error f ∧ Unjournaled s f w)
  stdin : ∀ side executable stdin r, Call.run side executable stdin r ∈ callsOf entries →
    stdin = q.stdinPath

theorem Blocked.inOrder {es : List (Entry σ)} {blocks : List Block} {w : World σ}
    {result : Except Failure Report} (h : Blocked q es blocks)
    (hb : ∀ v ∈ verifications es, ∀ d, Breaks v d → BreaksOff es v ∧
      ((∃ r, result = .ok r ∧ r.stop = .referenceBroken ∧ r.detail = d) ∨
        ∃ f, result = .error f ∧ Unjournaled s f w)) : InOrder s q result es w where
  blocks := ⟨blocks, h.ordered, h.calls, h.toolCalls⟩
  compiledOnce := by
    rw [← countP_toolCalls (fun c hc => by cases c <;> first | rfl | cases hc), h.toolCalls]
    exact h.ordered.countP_le_one (fun t => by simp [t.countP_compiles])
      fun t => by simp [t.countP_compiles]
  ranOnce := by
    rw [← countP_toolCalls (fun c hc => by cases c <;> first | rfl | cases hc), h.toolCalls]
    refine h.ordered.countP_le_one (fun t => by simp [t.countP_runs]) fun t => ?_
    rw [t.countP_runs]
    split <;> decide
  preceded := preceded_of_toolCalls (h.toolCalls ▸ h.ordered.preceded)
  broken := hb
  stdin _ _ _ _ := h.stdin

structure Ready (s : Setup σ) (q : Request) (p : Progress σ) : Prop where
  sound : Sound s q p
  prepared : ∃ blocks, Prepared q p blocks

theorem Ready.repaired {p p' : Progress σ} (h : Ready s q p)
    (hp : Passes s q p (.ok .repaired) p') : Ready s q p' := by
  obtain ⟨blocks, hb⟩ := h.prepared
  obtain ⟨blocks', -, hb'⟩ := hb.passes hp
  exact ⟨h.sound.repaired hp, blocks', hb' rfl⟩

theorem Last.inOrder {r : Except Failure Stop} {p : Progress σ} {w : World σ}
    {result : Except Failure Report} (h : Last s q (Ready s q) r p)
    (hok : ∀ stop, r = .ok stop →
      (∃ report, result = .ok report ∧ report.stop = stop.reason ∧ report.detail = stop.detail) ∨
        ∃ f, result = .error f ∧ Unjournaled s f w)
    (herror : ∀ f, r = .error f → result = .error f ∧ w = p.world) :
    InOrder s q result p.entries w := by
  obtain ⟨m, pr, hm, -, hp, hc⟩ := h.exists_pass
  obtain ⟨blocks, hb⟩ := hm.prepared
  obtain ⟨blocks', hb', -⟩ := hb.passes hp
  refine hb'.inOrder fun v hv d hd => ?_
  obtain ⟨hbreaks, rfl | ⟨f, rfl, hf⟩⟩ := hm.sound.breaksOff hp hv hd
  · cases hc
    exact ⟨hbreaks, hok _ rfl⟩
  · cases hc
    obtain ⟨hresult, rfl⟩ := herror f rfl
    exact ⟨hbreaks, .inr ⟨f, hresult, hf⟩⟩

/-- However a repair ends, it asked the toolchains in order, and nothing that they were asked is
left out. -/
theorem toolchains_asked_in_order (s : Setup σ) (q : Request) (agent : Agent) (w : World σ) :
    Traced s q w (diagnoseAndFix s q agent w).2.entries (diagnoseAndFix s q agent w).2.world ∧
      InOrder s q (diagnoseAndFix s q agent w).1 (diagnoseAndFix s q agent w).2.entries
        (diagnoseAndFix s q agent w).2.world := by
  rcases hrun : diagnoseAndFix s q agent w with ⟨result, p⟩
  refine ⟨diagnoseAndFix_traced hrun, ?_⟩
  have hends : Ends s q agent w (Ready s q) result p :=
    diagnoseAndFix_ends (fun w' _ => ⟨sound_start agent w w', [], prepared_start q agent w w'⟩)
      (fun _ _ h hp => h.repaired hp) hrun
  cases hends with
  | @unopened e w' hj hf =>
    exact (prepared_start q agent w w').blocked.inOrder fun v hv => by
      simp [Progress.start, verifications, verificationsFrom] at hv
  | failed hl => exact hl.inOrder (fun _ h => by cases h) (fun _ h => by cases h; exact ⟨rfl, rfl⟩)
  | unfinished hl hj hf =>
    exact hl.inOrder (fun _ _ => .inr ⟨_, rfl, hf⟩) (fun _ h => by cases h)
  | finished hl hj =>
    exact hl.inOrder (fun _ h => by cases h; exact .inl ⟨_, rfl, rfl, rfl⟩) (fun _ h => by cases h)

end Anneal.Repair
