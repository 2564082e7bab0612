import Folio.Calendar.Date
import Mathlib.Tactic

/-!
# Day numbers and dates

Every day number has a date: the year that is guessed and corrected is the one that holds
the day, the walk through its months ends in the month that does, and counting the date
again gives the number back.
-/

namespace Folio.Calendar

/-! ## Years -/

def daysInYear (year : Int) : ℕ :=
  if isLeapYear year then 366 else 365

theorem isLeapYear_iff (year : Int) :
    isLeapYear year = true ↔ year % 4 = 0 ∧ (year % 100 ≠ 0 ∨ year % 400 = 0) := by
  simp [isLeapYear]

theorem daysBeforeYear_succ (year : Int) : daysBeforeYear (year + 1) = daysBeforeYear year + daysInYear year := by
  have fours : year / 4 = (year - 1) / 4 + if year % 4 = 0 then 1 else 0 := by split <;> omega
  have centuries : year / 100 = (year - 1) / 100 + if year % 100 = 0 then 1 else 0 := by split <;> omega
  have cycles : year / 400 = (year - 1) / 400 + if year % 400 = 0 then 1 else 0 := by split <;> omega
  simp only [daysBeforeYear, daysInYear, isLeapYear_iff, add_sub_cancel_right, fours, centuries, cycles]
  split_ifs <;> omega

/-- The year of a day holds the day. -/
theorem yearOfDay_bounds (day : Int) :
    daysBeforeYear (yearOfDay day) - 719528 ≤ day ∧ day < daysBeforeYear (yearOfDay day + 1) - 719528 := by
  have least := Int.emod_nonneg ((day + 719528) * 400) (b := 146097) (by norm_num)
  have most := Int.emod_lt_of_pos ((day + 719528) * 400) (b := 146097) (by norm_num)
  have whole := Int.mul_ediv_add_emod ((day + 719528) * 400) 146097
  simp only [yearOfDay]
  generalize (day + 719528) * 400 / 146097 = guess at whole
  -- Every 400 years have 146097 days, so the guess is off by a year at most.
  by_cases early : day < daysBeforeYear guess - 719528
  · rw [if_pos early, sub_add_cancel]
    simp only [daysBeforeYear] at early ⊢
    omega
  · rw [if_neg early]
    by_cases late : daysBeforeYear (guess + 1) - 719528 ≤ day
    · rw [if_pos late]
      simp only [daysBeforeYear] at late ⊢
      omega
    · rw [if_neg late]
      exact ⟨not_lt.1 early, not_le.1 late⟩

/-! ## Months -/

theorem daysBeforeMonth_succ (year : Int) {month : ℕ} (positive : 1 ≤ month) :
    daysBeforeMonth year (month + 1) = daysBeforeMonth year month + daysInMonth year month := by
  obtain ⟨m, rfl⟩ := Nat.exists_eq_add_of_le' positive
  simp [daysBeforeMonth, List.range_succ, List.foldl_append]

theorem daysBeforeMonth_end (year : Int) : daysBeforeMonth year 13 = daysInYear year := by
  simp only [daysBeforeMonth, List.range_succ, List.range_zero, List.nil_append, List.foldl_append,
    List.foldl_cons, List.foldl_nil, daysInMonth, daysInYear]
  split <;> rfl

theorem monthOfOrdinal_spec {year : Int} {fuel month n : ℕ} (positive : 1 ≤ month) (left : month + fuel = 12)
    (inside : daysBeforeMonth year month + n < daysInYear year) {m d : ℕ}
    (found : monthOfOrdinal year fuel month n = (m, d)) :
    m ≤ 12 ∧ 1 ≤ d ∧ d ≤ daysInMonth year m ∧
      daysBeforeMonth year m + d = daysBeforeMonth year month + n + 1 := by
  induction fuel generalizing month n with
  | zero =>
    obtain ⟨rfl, rfl⟩ := Prod.mk.inj found
    obtain rfl : month = 12 := by omega
    have last := daysBeforeMonth_succ year positive
    rw [daysBeforeMonth_end] at last
    omega
  | succ fuel ih =>
    rw [monthOfOrdinal] at found
    have next := daysBeforeMonth_succ year positive
    by_cases here : n < daysInMonth year month
    · rw [if_pos here] at found
      cases found
      omega
    · rw [if_neg here] at found
      obtain ⟨bound, first, last, same⟩ := ih (by omega) (by omega) (by omega) found
      exact ⟨bound, first, last, by omega⟩

/-! ## Dates -/

structure Date.Valid (d : Date) : Prop where
  month_le : d.month ≤ 12
  day_pos : 1 ≤ d.day
  day_le : d.day ≤ daysInMonth d.year d.month

/-- A day number has a date, and the date has the number. -/
theorem ofDay_spec (day : Int) : (Date.ofDay day).Valid ∧ (Date.ofDay day).toDay = day := by
  obtain ⟨after, before⟩ := yearOfDay_bounds day
  rw [daysBeforeYear_succ] at before
  simp only [Date.ofDay]
  generalize yearOfDay day = year at after before
  have inside : daysBeforeMonth year 1 + (day - (daysBeforeYear year - 719528)).toNat < daysInYear year := by
    show 0 + _ < _
    omega
  cases found : monthOfOrdinal year 11 1 (day - (daysBeforeYear year - 719528)).toNat with
  | mk month dayOfMonth =>
    obtain ⟨bound, first, last, same⟩ := monthOfOrdinal_spec le_rfl rfl inside found
    refine ⟨⟨bound, first, last⟩, ?_⟩
    rw [show daysBeforeMonth year 1 = 0 from rfl] at same
    show daysBeforeYear year + ((daysBeforeMonth year month + dayOfMonth : ℕ) : ℤ) - 1 - 719528 = day
    omega

end Folio.Calendar
