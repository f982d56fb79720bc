/-
Counting days and naming them are inverse: the date of a number of days is a day of the calendar, and it
lies that number of days after the first of January 1970. The length of a year that begins in March depends
on its last day only, so it is enough to know where in its four hundred years a day falls.
-/
import Mathlib
import Tollgate.Time.Calendar

namespace Tollgate.Date

/-! ## A day within four hundred years -/

/-- Where a day of an era falls: the year and the day of the year make up the days again, and a year has a
last day more exactly if the next year of the calendar has a leap day. -/
theorem splitEra_spec {n : Nat} (h : n < daysInEra) :
    (splitEra n).1 < 400 ∧ (splitEra n).2 ≤ 365 ∧
      365 * (splitEra n).1 + (splitEra n).1 / 4 - (splitEra n).1 / 100 + (splitEra n).2 = n ∧
      ((splitEra n).2 = 365 →
        ((splitEra n).1 + 1) % 4 = 0 ∧ (((splitEra n).1 + 1) % 100 ≠ 0 ∨ (splitEra n).1 = 399)) := by
  unfold daysInEra at h
  simp only [splitEra]
  generalize hc : min (n / 36524) 3 = c
  generalize hf : (n - 36524 * c) / 1461 = f
  generalize hy : min ((n - 36524 * c - 1461 * f) / 365) 3 = y
  have hcentury : 36524 * c ≤ n ∧ n - 36524 * c < 36524 ∨ c = 3 ∧ n - 36524 * c ≤ 36524 ∧ 36524 * c ≤ n := by
    omega
  have hfour : f ≤ 24 := by omega
  have hyear : y ≤ 3 := by omega
  have hday : n - 36524 * c - 1461 * f < 1461 := by omega
  have hfourths : (100 * c + 4 * f + y) / 4 = 25 * c + f := by omega
  have hcenturies : (100 * c + 4 * f + y) / 100 = c := by omega
  rw [hfourths, hcenturies]
  refine ⟨by omega, by omega, by omega, fun hl => ?_⟩
  omega

/-! ## Months -/

/-- The month that a day of the year falls into, counted from March. -/
theorem month_spec {day : Nat} (h : day ≤ 365) :
    (5 * day + 2) / 153 ≤ 11 ∧ monthStart ((5 * day + 2) / 153) ≤ day ∧
      day < monthStart ((5 * day + 2) / 153 + 1) := by
  unfold monthStart
  omega

/-- A month is as long as the next one is away; the last one is as long as its year allows. -/
theorem daysInMonth_spec (year : Int) {m : Nat} (h : m ≤ 11) :
    daysInMonth year (if m < 10 then m + 3 else m - 9) =
      if m = 11 then if isLeap year then 29 else 28 else monthStart (m + 1) - monthStart m := by
  interval_cases m <;> rfl

/-! ## Both directions -/

/-- The number of days determines the year within its era, and the day within that year. -/
theorem ofDays_spec (n : Int) : ∃ era : Int, ∃ year day : Nat,
    year < 400 ∧ day ≤ 365 ∧
      era * daysInEra + (365 * year + year / 4 - year / 100 + day : Nat) = n + daysToEpoch ∧
      (day = 365 → (year + 1) % 4 = 0 ∧ ((year + 1) % 100 ≠ 0 ∨ year = 399)) ∧
      ofDays n = ⟨if (5 * day + 2) / 153 < 10 then era * 400 + year else era * 400 + year + 1,
        if (5 * day + 2) / 153 < 10 then (5 * day + 2) / 153 + 3 else (5 * day + 2) / 153 - 9,
        day - monthStart ((5 * day + 2) / 153) + 1⟩ := by
  have hmod : (n + daysToEpoch - (n + daysToEpoch) / daysInEra * daysInEra).toNat < daysInEra := by
    unfold daysInEra; omega
  obtain ⟨h1, h2, h3, h4⟩ := splitEra_spec hmod
  refine ⟨(n + daysToEpoch) / daysInEra, _, _, h1, h2, ?_, h4, ?_⟩
  · rw [h3]
    unfold daysInEra; omega
  · have hm := (month_spec h2).1
    simp only [ofDays]
    congr 1
    split_ifs <;> omega

/-- The date of a number of days lies that number of days after the first of January 1970. -/
theorem toDays_ofDays (n : Int) : (ofDays n).toDays = n := by
  obtain ⟨era, year, day, hy, hd, hsum, -, he⟩ := ofDays_spec n
  obtain ⟨hm, hle, -⟩ := month_spec hd
  rw [he]
  generalize (5 * day + 2) / 153 = m at hm hle ⊢
  -- the year that begins in March, and the month counted from there, are those of the split
  have hyear : (if (if m < 10 then m + 3 else m - 9) ≤ 2
      then (if m < 10 then era * 400 + year else era * 400 + year + 1) - 1
      else if m < 10 then era * 400 + year else era * 400 + year + 1) = era * 400 + (year : Int) := by
    split_ifs <;> omega
  have hmonth : ((if m < 10 then m + 3 else m - 9) + 9) % 12 = m := by
    split_ifs <;> omega
  have hera : (era * 400 + (year : Int)) / 400 = era := by omega
  have hrest : (era * 400 + (year : Int) - 400 * era).toNat = year := by omega
  have hday : monthStart m + (day - monthStart m + 1 - 1) = day := by omega
  simp only [toDays, hyear, hmonth, hera, hrest, hday]
  omega

/-- The date of a number of days is a day of the calendar. -/
theorem isValid_ofDays (n : Int) : (ofDays n).isValid = true := by
  obtain ⟨era, year, day, hy, hd, -, hleap, he⟩ := ofDays_spec n
  obtain ⟨hm, hle, hlt⟩ := month_spec hd
  rw [he]
  unfold isValid
  simp only [Bool.and_eq_true, decide_eq_true_eq, daysInMonth_spec _ hm]
  refine ⟨⟨⟨?_, ?_⟩, by omega⟩, ?_⟩
  · split_ifs <;> omega
  · split_ifs <;> omega
  · by_cases h11 : (5 * day + 2) / 153 = 11
    · simp only [h11, if_true, if_neg (show ¬ (11 < 10) by decide)] at hle hlt ⊢
      -- only the last day of the last month needs a leap day
      by_cases hlast : day = 365
      · have hl : isLeap (era * 400 + (year : Int) + 1) = true := by
          obtain ⟨h4, h100⟩ := hleap hlast
          unfold isLeap
          simp only [Bool.and_eq_true, Bool.or_eq_true, decide_eq_true_eq]
          omega
        rw [hl, if_pos rfl, hlast]; decide
      · unfold monthStart at hle ⊢
        split_ifs <;> omega
    · rw [if_neg h11]
      omega

end Tollgate.Date
