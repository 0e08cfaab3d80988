import Anneal.Backend.Retry
import Mathlib.Algebra.Group.Nat.Defs
import Mathlib.Order.Monotone.Basic
import Mathlib.Order.MinMax

/-!
# Delays between retries

A delay is computed in words of 64 bits: the product saturates, and the factor is a power of two
only as long as that fits. Main statement: the cap is a word as well, so nothing of this can be
seen, and the delays double from the first one up to the cap as they would without bounds.
-/

namespace Anneal.RetryPolicy

variable {p : RetryPolicy} {retry initial cap : Nat}

theorem wordMax_eq : wordMax = 2 ^ 64 - 1 := rfl

theorem lt_bound_of_le {n : Nat} (h : n ≤ wordMax) : n < Word.bound 64 :=
  Nat.lt_of_le_of_lt h (by decide)

theorem le_wordMax (w : UInt64) : w.toNat ≤ wordMax := by
  have h := w.toNat_lt
  rw [wordMax_eq]
  omega

theorem factor_of_lt (h : retry < 64) : factor retry = 2 ^ retry := if_pos h

theorem factor_of_le (h : 64 ≤ retry) : factor retry = wordMax := if_neg (Nat.not_lt.2 h)

theorem factor_le_wordMax (retry : Nat) : factor retry ≤ wordMax := by
  by_cases h : retry < 64
  · have hpow : 2 ^ retry ≤ 2 ^ 63 := Nat.pow_le_pow_right (by decide) (by omega)
    rw [factor_of_lt h, wordMax_eq]
    omega
  · rw [factor_of_le (Nat.le_of_not_lt h)]

theorem factor_le_pow (retry : Nat) : factor retry ≤ 2 ^ retry := by
  by_cases h : retry < 64
  · rw [factor_of_lt h]
  · have hpow : 2 ^ 64 ≤ 2 ^ retry := Nat.pow_le_pow_right (by decide) (by omega)
    rw [factor_of_le (Nat.le_of_not_lt h), wordMax_eq]
    omega

theorem saturatingMul_le_wordMax (a b : Nat) : saturatingMul a b ≤ wordMax := Nat.min_le_right _ _

theorem min_saturatingMul (a b : Nat) (hcap : cap ≤ wordMax) :
    min (saturatingMul a b) cap = min (a * b) cap := by
  rw [saturatingMul, Nat.min_assoc, Nat.min_eq_right hcap]

theorem min_mul_factor (initial retry : Nat) (hcap : cap ≤ wordMax) :
    min (initial * factor retry) cap = min (initial * 2 ^ retry) cap := by
  by_cases h : retry < 64
  · rw [factor_of_lt h]
  · rcases Nat.eq_zero_or_pos initial with hzero | hpos
    · simp [hzero]
    · -- Both products have passed the cap, for one of them is the largest word at least.
      have hfactor : cap ≤ initial * factor retry := by
        rw [factor_of_le (Nat.le_of_not_lt h)]
        exact hcap.trans (Nat.le_mul_of_pos_left _ hpos)
      have hpow : cap ≤ initial * 2 ^ retry :=
        hfactor.trans (Nat.mul_le_mul_left initial (factor_le_pow retry))
      rw [Nat.min_eq_right hfactor, Nat.min_eq_right hpow]

theorem backoff_eq (hcap : p.maxMs ≤ wordMax) (retry : Nat) :
    p.backoff retry = min (p.initialMs * 2 ^ retry) p.maxMs := by
  rw [backoff, min_saturatingMul _ _ hcap, min_mul_factor _ _ hcap]

/-- Delays that begin with `initial` and double until they reach `cap`. -/
structure CappedDoubling (initial cap : Nat) (delay : Nat → Nat) : Prop where
  exact (retry : Nat) : delay retry = min (initial * 2 ^ retry) cap
  first : delay 0 = initial
  next (retry : Nat) : delay (retry + 1) = min (2 * delay retry) cap
  monotone : Monotone delay
  initial_le (retry : Nat) : initial ≤ delay retry
  le_cap (retry : Nat) : delay retry ≤ cap

theorem min_double (a cap : Nat) : min (a * 2) cap = min (2 * min a cap) cap := by omega

theorem cappedDoubling_min (h : initial ≤ cap) :
    CappedDoubling initial cap fun retry => min (initial * 2 ^ retry) cap where
  exact _ := rfl
  first := by simp [h]
  next retry := by
    rw [Nat.pow_succ, ← Nat.mul_assoc]
    exact min_double _ _
  monotone := by
    intro early late hle
    have hpow : 2 ^ early ≤ 2 ^ late := Nat.pow_le_pow_right (by decide) hle
    exact min_le_min_right cap (Nat.mul_le_mul_left initial hpow)
  initial_le retry := by
    apply Nat.le_min.2
    exact ⟨Nat.le_mul_of_pos_right initial (Nat.two_pow_pos retry), h⟩
  le_cap retry := Nat.min_le_right _ _

/-- Whatever words a policy is made of, its delays double from the first up to the larger of the
two. They are words, and so are the numbers on the way to them. -/
theorem delays_double_up_to_cap (maxRetries : Nat) (initial cap : UInt64) :
    CappedDoubling initial.toNat (max initial.toNat cap.toNat)
      (new maxRetries initial.toNat cap.toNat).backoff ∧
    ∀ retry, factor retry < Word.bound 64 ∧
      saturatingMul initial.toNat (factor retry) < Word.bound 64 ∧
      (new maxRetries initial.toNat cap.toNat).backoff retry < Word.bound 64 := by
  have hmax : max cap.toNat initial.toNat ≤ wordMax :=
    Nat.max_le.2 ⟨le_wordMax cap, le_wordMax initial⟩
  have hbackoff : (new maxRetries initial.toNat cap.toNat).backoff =
      fun retry => min (initial.toNat * 2 ^ retry) (max cap.toNat initial.toNat) :=
    funext (backoff_eq hmax)
  have hdoubling := cappedDoubling_min (Nat.le_max_right cap.toNat initial.toNat)
  rw [hbackoff, Nat.max_comm initial.toNat]
  constructor
  · exact hdoubling
  · intro retry
    have hword := (hdoubling.le_cap retry).trans hmax
    exact ⟨lt_bound_of_le (factor_le_wordMax retry), lt_bound_of_le (saturatingMul_le_wordMax _ _),
      lt_bound_of_le hword⟩

/-- At 63 the product saturates, and at 64 the power is no word. -/
example : [0, 1, 2, 62, 63, 64].map (new 5 3 (2 ^ 64 - 1)).backoff =
    [3, 6, 12, 3 * 2 ^ 62, 2 ^ 64 - 1, 2 ^ 64 - 1] := by decide

end Anneal.RetryPolicy
