import Anneal.Backend.Registry
import Anneal.Proofs.Backend.Retry
import Anneal.Proofs.Keyed

/-!
# What passes over a connection

A call of a backend is watched from the side of the connection: each request is written down with
its answer and with the clock before and after. Main statement: a call whose backend is known and
whose prompt has the right shape sends one request, and the same one again after every answer that
may pass, as far as the policy allows; its result is what the last answer means.
-/

namespace Anneal

namespace Http

variable {σ : Type}

/-- A response, or why there is none. -/
abbrev Answer := Except String Response

def Passing : Answer → Prop
  | .error _ => True
  | .ok response => response.status = 429 ∨ 500 ≤ response.status

inductive Means (name : String) (d : Descriptor) : Answer → Except ClientError String → Prop
  | unreached (message : String) :
      Means name d (.error message) (.error (.transport name message))
  | refused {response : Response} (h : ¬ (200 ≤ response.status ∧ response.status ≤ 299)) :
      Means name d (.ok response) (.error (.httpStatus name response.status response.body))
  | answered {response : Response} (h : 200 ≤ response.status ∧ response.status ≤ 299) :
      Means name d (.ok response) (Backend.responseText name d response.body)

theorem isSuccess_iff {status : Nat} : isSuccess status = true ↔ 200 ≤ status ∧ status ≤ 299 := by
  simp [isSuccess]

theorem outcome_means (name : String) (d : Descriptor) (answer : Answer) :
    Means name d answer (outcome name d answer) := by
  cases answer with
  | error message => exact .unreached message
  | ok response =>
    by_cases h : isSuccess response.status = true
    · rw [outcome, if_pos h]
      exact .answered (isSuccess_iff.1 h)
    · rw [outcome, if_neg h]
      exact .refused fun hs => h (isSuccess_iff.2 hs)

inductive Unusable (name : String) : ClientError → Prop
  | missing (source : FieldPathError) : Unusable name (.missingField name source)
  | malformed (message : String) : Unusable name (.malformed name message)

theorem ofDocument_unusable {name : String} {d : Descriptor} {j : Json} {e : ClientError}
    (h : Backend.ofDocument name d j = .error e) : Unusable name e := by
  unfold Backend.ofDocument at h
  split at h <;> cases h
  exact .missing _

theorem ofLines_unusable {name : String} {d : Descriptor} {body : String} {e : ClientError}
    (h : Backend.ofLines name d body = .error e) : Unusable name e := by
  unfold Backend.ofLines at h
  dsimp only at h
  split at h
  · cases h
  · split at h <;> cases h
    · exact .missing _
    · exact .malformed _

theorem responseText_unusable {name : String} {d : Descriptor} {body : String} {e : ClientError}
    (h : Backend.responseText name d body = .error e) : Unusable name e := by
  unfold Backend.responseText at h
  split at h
  · exact ofDocument_unusable h
  · cases h
    exact .malformed _
  · exact ofLines_unusable h

theorem responseText_final (name : String) (d : Descriptor) (body : String) :
    ¬ RetryPolicy.Transient (Backend.responseText name d body) := by
  rintro ⟨e, he, ht⟩
  cases responseText_unusable he <;> cases ht

theorem transient_outcome {name : String} {d : Descriptor} {answer : Answer} :
    RetryPolicy.Transient (outcome name d answer) ↔ Passing answer := by
  have h := outcome_means name d answer
  generalize outcome name d answer = result at h
  cases h with
  | unreached message => simp [Passing, ClientError.isTransient]
  | refused h => simp [Passing, ClientError.isTransient, ClientError.isTransientStatus]
  | answered h =>
    refine iff_of_false (responseText_final name d _) ?_
    rintro (h' | h') <;> omega

/-- What passed over a connection, with the clock when the request was sent and when it was
answered. -/
structure Exchange where
  request : Request
  answer : Answer
  sent : Nat
  answered : Nat

def watched (connection : Connection σ) : Connection (List Exchange × σ) := fun request w =>
  let r := connection request (w.withOutside w.outside.2)
  (r.1, r.2.withOutside (w.outside.1 ++ [⟨request, r.1, w.clock, r.2.clock⟩], r.2.outside))

variable (p : RetryPolicy) (connection : Connection σ) (request : Request) (w : World σ)

def exchangeAt (n : Nat) : Exchange :=
  let before := p.callWorld (connection request) w n
  let r := connection request before
  ⟨request, r.1, before.clock, r.2.clock⟩

/-- What passes over a connection in the first `n` calls. -/
def exchanges (n : Nat) : List Exchange := (List.range n).map (exchangeAt p connection request w)

theorem exchanges_succ (n : Nat) : exchanges p connection request w (n + 1) =
    exchanges p connection request w n ++ [exchangeAt p connection request w n] := by
  rw [exchanges, List.range_succ, List.map_append]
  rfl

theorem callWorld_watched (n : Nat) :
    p.callWorld (watched connection request) (w.withOutside ([], w.outside)) n =
      (p.callWorld (connection request) w n).withOutside (exchanges p connection request w n,
        (p.callWorld (connection request) w n).outside) := by
  induction n with
  | zero => rfl
  | succ n ih =>
    rw [RetryPolicy.callWorld, ih, exchanges_succ]
    rfl

theorem watched_callWorld (n : Nat) :
    watched connection request
        (p.callWorld (watched connection request) (w.withOutside ([], w.outside)) n) =
      ((exchangeAt p connection request w n).answer,
        let after := (connection request (p.callWorld (connection request) w n)).2
        after.withOutside (exchanges p connection request w (n + 1), after.outside)) := by
  rw [callWorld_watched, exchanges_succ]
  rfl

theorem callWorld_send (name : String) (b : Registered) (body : Json) (n : Nat) :
    p.callWorld (send connection name b body) w n =
      p.callWorld (connection ⟨b.descriptor.url, b.headers, body⟩) w n := by
  induction n with
  | zero => rfl
  | succ n ih =>
    rw [RetryPolicy.callWorld, RetryPolicy.callWorld, ih]
    rfl

structure Retried (p : RetryPolicy) (request : Request) (answers : Nat → Answer) (k : Nat)
    (passed : List Exchange) : Prop where
  retries : (k : ℕ∞) =
    min (p.maxRetries : ℕ∞) (RetryPolicy.leading fun n => Passing (answers n))
  count : passed.length = 1 + k
  request : ∀ e ∈ passed, e.request = request
  answer : ∀ n (h : n < passed.length), passed[n].answer = answers n
  final : ∀ n (h : n < passed.length), ¬ Passing passed[n].answer → n + 1 = passed.length
  wait : ∀ j (h : j + 1 < passed.length),
    passed[j + 1].sent = passed[j].answered + p.backoff j
  counter : p.maxRetries < Word.bound 32 → k < Word.bound 32

variable {p connection request w}

theorem retried_of_ends {k : Nat}
    (h : RetryPolicy.Ends (fun n => Passing (exchangeAt p connection request w n).answer) 0
      p.maxRetries k) :
    Retried p request (fun n => (exchangeAt p connection request w n).answer) k
      (exchanges p connection request w (k + 1)) where
  retries := h.eq_min
  count := by simp [exchanges, Nat.add_comm]
  request e he := by
    obtain ⟨n, -, rfl⟩ := List.mem_map.1 he
    rfl
  answer n hn := by simp [exchanges]
  final n hn hp := by
    simp only [exchanges, List.length_map, List.length_range, List.getElem_map,
      List.getElem_range] at hn hp ⊢
    by_contra hne
    exact hp (h.again n (Nat.zero_le n) (by omega))
  wait j hj := by
    simp only [exchanges, List.getElem_map, List.getElem_range]
    rfl
  counter hp := Nat.lt_of_le_of_lt h.le_allowed hp

end Http

namespace Registry

open Http

variable {σ : Type} {r : Registry} {connection : Connection σ} {name : String} {prompt : Prompt}
  {options : CompletionOptions} {w : World σ}

/-- How a call goes: its result and what passes over the connection. -/
inductive Called (r : Registry) (connection : Connection σ) (name : String) (prompt : Prompt)
    (options : CompletionOptions) (w : World σ) :
    Except ClientError String → List Http.Exchange → Prop
  | unknown (hb : name ∉ r.names) :
      Called r connection name prompt options w (.error (.unknownBackend name)) []
  | misfit {b : Registered} (hb : r.find name = .ok b) (hs : prompt.shape ≠ b.descriptor.shape) :
      Called r connection name prompt options w (.error (.configuration name
        s!"expects a {b.descriptor.shape.tag} prompt, got {prompt.shape.tag}")) []
  | sent {b : Registered} {body : Json} {request : Request} {answers : Nat → Answer} {k : Nat}
      {result : Except ClientError String} {passed : List Http.Exchange} (hb : r.find name = .ok b)
      (hs : prompt.shape = b.descriptor.shape)
      (hbody : Backend.requestBody name b.descriptor b.model prompt options = .ok body)
      (hrequest : request = ⟨b.descriptor.url, b.headers, body⟩)
      (hanswers : ∀ n, answers n = (exchangeAt r.retry connection request w n).answer)
      (hpassed : Retried r.retry request answers k passed)
      (hresult : Means name b.descriptor (answers k) result) :
      Called r connection name prompt options w result passed

/-- A call with the connection watched. -/
def watch (r : Registry) (connection : Connection σ) (name : String) (prompt : Prompt)
    (options : CompletionOptions) (w : World σ) :
    Except ClientError String × World (List Http.Exchange × σ) :=
  r.complete (watched connection) name prompt options (w.withOutside ([], w.outside))

/-- A call whose request can be made, with the number of its retries. -/
theorem complete_sends (connection : Connection σ) (w : World σ) {b : Registered} {body : Json}
    {request : Request} (hb : r.find name = .ok b)
    (hbody : Backend.requestBody name b.descriptor b.model prompt options = .ok body)
    (hrequest : request = ⟨b.descriptor.url, b.headers, body⟩) :
    ∃ k, RetryPolicy.Ends
        (fun n => Passing (connection request (r.retry.callWorld (connection request) w n)).1) 0
        r.retry.maxRetries k ∧
      let last := connection request (r.retry.callWorld (connection request) w k)
      r.complete connection name prompt options w =
        (outcome name b.descriptor last.1, last.2) := by
  subst hrequest
  obtain ⟨k, hends, hrun⟩ := r.retry.run_spec (send connection name b body) w
  simp only [callWorld_send] at hends hrun
  refine ⟨k, ?_, ?_⟩
  · simpa only [send, transient_outcome] using hends
  · rw [complete, hb]
    dsimp only
    rw [hbody]
    exact hrun

theorem requestBody_misfit {d : Descriptor} {model : String} (hs : prompt.shape ≠ d.shape) :
    Backend.requestBody name d model prompt options = .error (.configuration name
      s!"expects a {d.shape.tag} prompt, got {prompt.shape.tag}") := by
  rw [Backend.requestBody, if_pos hs]

theorem find_eq_error (h : name ∉ r.names) : r.find name = .error (.unknownBackend name) := by
  rw [find, Keyed.get?_eq_none_iff.2 h]

theorem find_eq_ok (h : name ∈ r.names) : ∃ b, r.find name = .ok b := by
  unfold find
  split
  · exact ⟨_, rfl⟩
  next hb => exact absurd h (Keyed.get?_eq_none_iff.1 hb)

theorem complete_unknown (h : name ∉ r.names) :
    r.complete connection name prompt options w = (.error (.unknownBackend name), w) := by
  rw [complete, find_eq_error h]

theorem complete_misfit {b : Registered} (hb : r.find name = .ok b)
    (hs : prompt.shape ≠ b.descriptor.shape) :
    r.complete connection name prompt options w = (.error (.configuration name
      s!"expects a {b.descriptor.shape.tag} prompt, got {prompt.shape.tag}"), w) := by
  rw [complete, hb]
  dsimp only
  rw [requestBody_misfit hs]

theorem transient_failures_retried (r : Registry) (connection : Connection σ) (name : String)
    (prompt : Prompt) (options : CompletionOptions) (w : World σ) :
    let seen := r.watch connection name prompt options w
    r.complete connection name prompt options w =
        (seen.1, seen.2.withOutside seen.2.outside.2) ∧
      Called r connection name prompt options w seen.1 seen.2.outside.1 := by
  dsimp only
  by_cases hn : name ∈ r.names
  · obtain ⟨b, hb⟩ := find_eq_ok hn
    by_cases hs : prompt.shape = b.descriptor.shape
    · obtain ⟨body, hbody⟩ : ∃ body,
          Backend.requestBody name b.descriptor b.model prompt options = .ok body :=
        ⟨_, if_neg (not_not.2 hs)⟩
      obtain ⟨k, hends, hplain⟩ := complete_sends connection w hb hbody rfl
      obtain ⟨k', hends', hwatched⟩ := complete_sends (watched connection)
        (w.withOutside ([], w.outside)) hb hbody rfl
      -- The watched calls get the same answers, so they end at the same one.
      simp only [watched_callWorld] at hends' hwatched
      obtain rfl := hends.unique hends'
      rw [hplain, watch, hwatched]
      exact ⟨rfl, .sent hb hs hbody rfl (fun _ => rfl) (retried_of_ends hends)
        (outcome_means _ _ _)⟩
    · rw [watch, complete_misfit hb hs, complete_misfit hb hs]
      exact ⟨rfl, .misfit hb hs⟩
  · rw [watch, complete_unknown hn, complete_unknown hn]
    exact ⟨rfl, .unknown hn⟩

end Registry
end Anneal
