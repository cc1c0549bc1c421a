/-
  TrinoGateway.Lib.Calendar — the proleptic Gregorian calendar as a count of days.

  Day 0 is 2000-01-01. A year is taken to start in March, so that the leap day is its
  last one: 400 years are 146097 days, a century of them 36524 (the last one 36525), four
  years 1461 and a year 365, and the months of such a year have 153 days every five.

  `daysFromCivil_civilFromDays`: a day's year, month and day count up to that day again.
-/

import Mathlib

namespace TrinoGateway.Lib

structure Civil where
  year : ℤ
  month : ℕ
  day : ℕ
  deriving DecidableEq, Repr

/-- Days from 2000-01-01 to a date. -/
def daysFromCivil (c : Civil) : ℤ :=
  let y := if c.month ≤ 2 then c.year - 2001 else c.year - 2000
  let m : ℤ := if c.month ≤ 2 then c.month + 9 else c.month - 3
  60 + 365 * y + y / 4 - y / 100 + y / 400 + (153 * m + 2) / 5 + c.day - 1

/-- The year of a day of the 400 year cycle, and the day of that year; years start in March. -/
def yearOfCycle (n : ℤ) : ℤ × ℤ :=
  let century := min (n / 36524) 3
  let n := n - 36524 * century
  let leaps := n / 1461
  let n := n - 1461 * leaps
  let year := min (n / 365) 3
  (100 * century + 4 * leaps + year, n - 365 * year)

/-- The date of a day of a year that starts in March; years count from 2000. -/
def civilOfMarch (year day : ℤ) : Civil :=
  let month := (5 * day + 2) / 153
  let date := (day - (153 * month + 2) / 5 + 1).toNat
  if month < 10 then ⟨2000 + year, (month + 3).toNat, date⟩ else ⟨2001 + year, (month - 9).toNat, date⟩

/-- The date a number of days after 2000-01-01. -/
def civilFromDays (n : ℤ) : Civil :=
  let (year, day) := yearOfCycle ((n - 60) % 146097)
  civilOfMarch (400 * ((n - 60) / 146097) + year) day

/-- The day `n` of the cycle is day `p.2` of its year `p.1`. -/
structure InCycle (n : ℤ) (p : ℤ × ℤ) : Prop where
  year_nonneg : 0 ≤ p.1
  year_lt : p.1 < 400
  day_nonneg : 0 ≤ p.2
  day_lt : p.2 < 366
  count : n = 365 * p.1 + p.1 / 4 - p.1 / 100 + p.2

theorem yearOfCycle_spec {n : ℤ} (h0 : 0 ≤ n) (h1 : n < 146097) : InCycle n (yearOfCycle n) := by
  unfold yearOfCycle
  simp only
  have hc : 0 ≤ min (n / 36524) 3 ∧ min (n / 36524) 3 ≤ 3 ∧ 0 ≤ n - 36524 * min (n / 36524) 3 ∧
      n - 36524 * min (n / 36524) 3 ≤ 36524 := by omega
  generalize min (n / 36524) 3 = c at hc ⊢
  generalize hr : n - 36524 * c = r at hc ⊢
  have hl : 0 ≤ r / 1461 ∧ r / 1461 ≤ 24 ∧ 0 ≤ r - 1461 * (r / 1461) ∧ r - 1461 * (r / 1461) ≤ 1460 := by omega
  generalize r / 1461 = l at hl ⊢
  generalize hs : r - 1461 * l = s at hl ⊢
  have hy : 0 ≤ min (s / 365) 3 ∧ min (s / 365) 3 ≤ 3 ∧ 0 ≤ s - 365 * min (s / 365) 3 ∧
      s - 365 * min (s / 365) 3 ≤ 365 := by omega
  generalize min (s / 365) 3 = y at hy ⊢
  have h4 : (100 * c + 4 * l + y) / 4 = 25 * c + l := by omega
  have h100 : (100 * c + 4 * l + y) / 100 = c := by omega
  constructor <;> simp only <;> omega

theorem civilOfMarch_bounds (year : ℤ) {day : ℤ} (h0 : 0 ≤ day) (h1 : day < 366) :
    1 ≤ (civilOfMarch year day).month ∧ (civilOfMarch year day).month ≤ 12 ∧ 1 ≤ (civilOfMarch year day).day ∧
      (civilOfMarch year day).day ≤ 31 := by
  simp only [civilOfMarch]
  split_ifs <;> simp only <;> omega

theorem daysFromCivil_civilOfMarch (year : ℤ) {day : ℤ} (h0 : 0 ≤ day) (h1 : day < 366) :
    daysFromCivil (civilOfMarch year day) = 60 + 365 * year + year / 4 - year / 100 + year / 400 + day := by
  simp only [civilOfMarch]
  split_ifs with hm
  · have hmonth : ¬ ((5 * day + 2) / 153 + 3).toNat ≤ 2 := by omega
    have hyear : 2000 + year - 2000 = year := by ring
    simp only [daysFromCivil, if_neg hmonth, hyear]
    omega
  · -- January and February belong to the year that started in March
    have hmonth : ((5 * day + 2) / 153 - 9).toNat ≤ 2 := by omega
    have hyear : 2001 + year - 2001 = year := by ring
    simp only [daysFromCivil, if_pos hmonth, hyear]
    omega

theorem yearOfCycle_emod (n : ℤ) : InCycle (n % 146097) (yearOfCycle (n % 146097)) :=
  yearOfCycle_spec (Int.emod_nonneg n (by decide)) (Int.emod_lt_of_pos n (by decide))

theorem civilFromDays_bounds (n : ℤ) :
    1 ≤ (civilFromDays n).month ∧ (civilFromDays n).month ≤ 12 ∧ 1 ≤ (civilFromDays n).day ∧
      (civilFromDays n).day ≤ 31 :=
  civilOfMarch_bounds _ (yearOfCycle_emod (n - 60)).day_nonneg (yearOfCycle_emod (n - 60)).day_lt

theorem daysFromCivil_civilFromDays (n : ℤ) : daysFromCivil (civilFromDays n) = n := by
  have hsplit := Int.emod_add_mul_ediv (n - 60) 146097
  obtain ⟨h1, h2, h3, h4, h5⟩ := yearOfCycle_emod (n - 60)
  rw [civilFromDays, daysFromCivil_civilOfMarch _ h3 h4]
  generalize (yearOfCycle ((n - 60) % 146097)).1 = year at *
  generalize (n - 60) / 146097 = cycle at *
  have e4 : (400 * cycle + year) / 4 = 100 * cycle + year / 4 := by omega
  have e100 : (400 * cycle + year) / 100 = 4 * cycle + year / 100 := by omega
  have e400 : (400 * cycle + year) / 400 = cycle := by omega
  omega

end TrinoGateway.Lib
