import Anneal.Backend.Retry
import Mathlib.Data.ENat.Lattice

/-! A call that is retried ends in the world of one call of the operation: the first that does not
fail for a transient reason, or the last that the policy allows. The worlds of the calls before it
do not depend on where the retries end. -/

namespace Anneal.RetryPolicy

variable {α β σ : Type} {p : RetryPolicy}

/-- The world in which an operation is called after `n` other calls, each of which was followed by
its delay. -/
def callWorld (p : RetryPolicy) (op : World σ → β × World σ) (w : World σ) : Nat → World σ
  | 0 => w
  | n + 1 => (op (callWorld p op w n)).2.pause (p.backoff n)

def Transient (r : Except ClientError α) : Prop := ∃ e, r = .error e ∧ e.isTransient = true

@[simp] theorem transient_error {e : ClientError} :
    Transient (.error e : Except ClientError α) ↔ e.isTransient = true := by
  simp [Transient]

@[simp] theorem not_transient_ok (a : α) : ¬ Transient (.ok a) := by
  simp [Transient]

noncomputable def leading (transient : Nat → Prop) : ℕ∞ :=
  ⨅ (n : Nat) (_ : ¬ transient n), (n : ℕ∞)

structure Ends (transient : Nat → Prop) (first allowed k : Nat) : Prop where
  first_le : first ≤ k
  le_allowed : k ≤ allowed
  again : ∀ i, first ≤ i → i < k → transient i
  last : k < allowed → ¬ transient k

variable {transient : Nat → Prop} {first allowed k : Nat}

theorem Ends.here (hle : first ≤ allowed) (h : first < allowed → ¬ transient first) :
    Ends transient first allowed first :=
  ⟨le_rfl, hle, fun _ hi hk => absurd hk (Nat.not_lt.2 hi), h⟩

theorem Ends.later (hf : transient first) (h : Ends transient (first + 1) allowed k) :
    Ends transient first allowed k where
  first_le := Nat.le_of_succ_le h.first_le
  le_allowed := h.le_allowed
  again i hi hk := by
    rcases Nat.eq_or_lt_of_le hi with rfl | hi
    · exact hf
    · exact h.again i hi hk
  last := h.last

theorem Ends.eq_min (h : Ends transient 0 allowed k) :
    (k : ℕ∞) = min (allowed : ℕ∞) (leading transient) := by
  apply le_antisymm
  · refine le_min (Nat.cast_le.2 h.le_allowed) (le_iInf₂ fun n hn => Nat.cast_le.2 ?_)
    by_contra hlt
    exact hn (h.again n (Nat.zero_le n) (Nat.lt_of_not_le hlt))
  · rcases Nat.lt_or_ge k allowed with hk | hk
    · exact (min_le_right _ _).trans (iInf₂_le k (h.last hk))
    · exact (min_le_left _ _).trans (Nat.cast_le.2 hk)

theorem Ends.unique {l : Nat} (h : Ends transient 0 allowed k) (h' : Ends transient 0 allowed l) :
    k = l := Nat.cast_injective (R := ℕ∞) (h.eq_min.trans h'.eq_min.symm)

theorem runFrom_spec (op : World σ → Except ClientError α × World σ) (w : World σ)
    (left retry : Nat) :
    ∃ k, Ends (fun n => Transient (op (p.callWorld op w n)).1) retry (retry + left) k ∧
      p.runFrom op left retry (p.callWorld op w retry) = op (p.callWorld op w k) := by
  induction left generalizing retry with
  | zero => exact ⟨retry, .here le_rfl fun h => absurd h (Nat.lt_irrefl _), rfl⟩
  | succ left ih =>
    have hle : retry ≤ retry + (left + 1) := Nat.le_add_right _ _
    rcases hop : op (p.callWorld op w retry) with ⟨e | a, after⟩
    · by_cases ht : e.isTransient = true
      · have hnext : p.callWorld op w (retry + 1) = after.pause (p.backoff retry) := by
          rw [callWorld, hop]
        obtain ⟨k, hends, hrun⟩ := ih (retry + 1)
        rw [Nat.add_right_comm, Nat.add_assoc retry] at hends
        refine ⟨k, hends.later ?_, ?_⟩
        · rw [hop]
          exact transient_error.2 ht
        · rw [← hrun, hnext, runFrom, hop]
          exact if_pos ht
      · refine ⟨retry, .here hle fun _ => ?_, ?_⟩
        · rw [hop]
          exact fun h => ht (transient_error.1 h)
        · rw [runFrom, hop]
          exact if_neg ht
    · refine ⟨retry, .here hle fun _ => ?_, ?_⟩
      · rw [hop]
        exact not_transient_ok a
      · rw [runFrom, hop]

theorem run_spec (op : World σ → Except ClientError α × World σ) (w : World σ) :
    ∃ k, Ends (fun n => Transient (op (p.callWorld op w n)).1) 0 p.maxRetries k ∧
      p.run op w = op (p.callWorld op w k) := by
  have h := runFrom_spec (p := p) op w p.maxRetries 0
  rwa [Nat.zero_add] at h

end Anneal.RetryPolicy
