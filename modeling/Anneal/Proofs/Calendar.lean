import Anneal.Timestamp
import Mathlib.Tactic.IntervalCases

/-! Every day number belongs to a date of the calendar. Days are counted in eras of 400 years that
begin with March, so that a leap day is the last day of its year. -/

namespace Anneal.Timestamp

structure IsDate (year : Int) (month day : Nat) : Prop where
  month_pos : 1 ≤ month
  month_le : month ≤ 12
  day_pos : 1 ≤ day
  day_le : day ≤ daysInMonth year month

/-- The years of a century and their days; the shortest year has 365. -/
theorem year_of_century {n b a y : Int} (b0 : 0 ≤ b) (b1 : b ≤ 3)
    (hb : 36524 * b ≤ n ∧ n < 36524 * b + 36524) (ha : 1460 * a ≤ n ∧ n < 1460 * a + 1460)
    (hy : 365 * y ≤ n - a + b ∧ n - a + b < 365 * y + 365) :
    100 * b ≤ y ∧ y ≤ 100 * b + 99 ∧ 365 * y + y / 4 - b ≤ n ∧ n ≤ 365 * y + y / 4 - b + 365 ∧
      (n = 365 * y + y / 4 - b + 365 → y % 4 = 3 ∧ y ≤ 100 * b + 98) := by
  have century : b = 0 ∨ b = 1 ∨ b = 2 ∨ b = 3 := by omega
  have low : 100 * b ≤ y := by omega
  have high : y ≤ 100 * b + 99 := by omega
  have cycles : y / 4 ≤ a ∧ a ≤ y / 4 + 1 := by omega
  refine ⟨low, high, by omega, by omega, ?_⟩
  intro last
  have leap : y % 4 = 3 := by omega
  refine ⟨leap, ?_⟩
  obtain rfl | rfl | rfl | rfl := century <;> omega

/-- The year of a day in its era and the day in that year. -/
theorem year_of_era {n y : Int} (h0 : 0 ≤ n) (h1 : n < 146097)
    (hy : y = (n - n / 1460 + n / 36524 - n / 146096) / 365) :
    0 ≤ y ∧ 365 * y + y / 4 - y / 100 ≤ n ∧ n ≤ 365 * y + y / 4 - y / 100 + 365 ∧
      (n = 365 * y + y / 4 - y / 100 + 365 → (y + 1) % 4 = 0 ∧
        ((y + 1) % 100 ≠ 0 ∨ (y + 1) % 400 = 0)) := by
  by_cases last : n = 146096
  · subst last
    have : y = 399 := by rw [hy]; rfl
    subst this
    decide
  · have := year_of_century (n := n) (b := n / 36524) (a := n / 1460) (y := y) (by omega) (by omega)
      (by omega) (by omega) (by omega)
    obtain ⟨low, high, first, close, leap⟩ := this
    have century : y / 100 = n / 36524 := by omega
    refine ⟨by omega, by omega, by omega, fun h => ?_⟩
    obtain ⟨hy, hc⟩ := leap (by omega)
    exact ⟨by omega, by omega⟩

theorem isLeapYear_eq {y : Int} (h4 : y % 4 = 0) (h : y % 100 ≠ 0 ∨ y % 400 = 0) :
    isLeapYear y = true := by
  rw [isLeapYear, decide_eq_true h4, Bool.true_and, Bool.or_eq_true, decide_eq_true_eq,
    decide_eq_true_eq]
  exact h

/-- The month and the day of the month, from the day of a year that begins with March. -/
theorem isDate_of_dayOfYear {year doy m : Int} (h0 : 0 ≤ doy) (h1 : doy ≤ 365)
    (hm : m = (5 * doy + 2) / 153) (leap : doy = 365 → isLeapYear year = true) :
    IsDate year (if m < 10 then m + 3 else m - 9).toNat (doy - (153 * m + 2) / 5 + 1).toNat := by
  have low : 0 ≤ m := by omega
  have high : m ≤ 11 := by omega
  by_cases february : m = 11
  · subst february
    refine ⟨by decide, by decide, by omega, ?_⟩
    have day : (doy - (153 * 11 + 2) / 5 + 1).toNat ≤ 29 := by omega
    by_cases last : doy = 365
    · have days : daysInMonth year 2 = 29 := by simp [daysInMonth, leap last]
      exact days ▸ day
    · have days : 28 ≤ daysInMonth year 2 := by
        unfold daysInMonth
        cases isLeapYear year <;> simp
      refine Nat.le_trans ?_ days
      omega
  · have high : m ≤ 10 := by omega
    interval_cases m
    all_goals
      refine ⟨by decide, by decide, by omega, ?_⟩
      simp [daysInMonth]
      omega

theorem dateOfDay_isDate (n : Int) :
    IsDate (dateOfDay n).1 (dateOfDay n).2.1 (dateOfDay n).2.2 := by
  unfold dateOfDay
  dsimp only
  have h0 : 0 ≤ (n + 719468) % 146097 := by omega
  have h1 : (n + 719468) % 146097 < 146097 := by omega
  generalize (n + 719468) % 146097 = d at h0 h1 ⊢
  generalize hy : (d - d / 1460 + d / 36524 - d / 146096) / 365 = y
  obtain ⟨pos, first, close, leap⟩ := year_of_era h0 h1 hy.symm
  generalize hdoy : d - (365 * y + y / 4 - y / 100) = doy
  generalize hm : (5 * doy + 2) / 153 = m
  refine isDate_of_dayOfYear (by omega) (by omega) hm.symm fun last => ?_
  -- The last day of a year is in February, where the year of the calendar is the next one.
  obtain ⟨h4, h400⟩ := leap (by omega)
  have february : (if m < 10 then m + 3 else m - 9) ≤ 2 := by
    rw [← hm, last]
    decide
  rw [if_pos february]
  exact isLeapYear_eq (by omega) (by omega)

theorem le_dateOfDay_year (n : Int) :
    (n + 719468) / 146097 * 400 ≤ (dateOfDay n).1 := by
  unfold dateOfDay
  dsimp only
  have h0 : 0 ≤ (n + 719468) % 146097 := by omega
  have h1 : (n + 719468) % 146097 < 146097 := by omega
  generalize (n + 719468) % 146097 = d at h0 h1 ⊢
  generalize hy : (d - d / 1460 + d / 36524 - d / 146096) / 365 = y
  obtain ⟨pos, -⟩ := year_of_era h0 h1 hy.symm
  split <;> omega

end Anneal.Timestamp
