/-
  TrinoGateway.Types.WallClock — `time` and `timestamp` in the two formats. As text such a
  value is Trino's own, with every digit of its fraction; as binary it is a whole number of
  microseconds. A reader of the text that keeps microseconds rounds to the nearest one.

  Proved: `wallClock_nearest_iff`. The binary cell is always less than a microsecond from
  the time the text writes. It is a nearest microsecond if and only if what the text writes
  past the last whole one is at most half, or, before 2000-01-01 with a digit among the
  seventh to the ninth, at least half (`moonLanding_nearest_summer_not`).
-/

import TrinoGateway.Types.Truncation

namespace TrinoGateway.Types

open TrinoGateway.Lib

/-! ## Nearest whole numbers -/

theorem abs_sub_floor (x : ℚ) : |x - ⌊x⌋| = Int.fract x := by
  rw [Int.self_sub_floor, abs_of_nonneg (Int.fract_nonneg x)]

theorem abs_sub_floor_succ (x : ℚ) : |x - (⌊x⌋ + 1 : ℤ)| = 1 - Int.fract x := by
  have hfract := Int.self_sub_floor x
  have hlt := Int.fract_lt_one x
  rw [abs_of_nonpos (by push_cast; linarith)]
  push_cast
  linarith

/-! ## Values -/

/-- A value without a zone, without its fraction. -/
inductive WallClock (C : Chrono) where
  | time (t : Clock)
  | timestamp (m : Moment C)

variable {C : Chrono}

def WallClock.temporal : WallClock C → Temporal C
  | .time t => .time t
  | .timestamp m => .timestamp m

/-- Whole seconds after midnight, or after 2000-01-01. -/
def WallClock.seconds : WallClock C → ℤ
  | .time t => t.secs
  | .timestamp m => m.seconds

/-- The microseconds the text writes, none of its digits dropped. -/
def WallClock.written (v : WallClock C) (f : Fraction) : ℚ := 10 ^ 6 * (v.seconds + f.value)

theorem WallClock.floor_written (v : WallClock C) (f : Fraction) : ⌊v.written f⌋ = 10 ^ 6 * v.seconds + f.units 6 := by
  have hsplit : v.written f = ((10 ^ 6 * v.seconds : ℤ) : ℚ) + f.value * 10 ^ 6 := by
    unfold WallClock.written
    push_cast
    ring
  rw [hsplit, Int.floor_intCast_add, f.units_eq_floor]

/-- One of those digits is past the last whole microsecond. -/
theorem WallClock.fract_written_pos (v : WallClock C) {f : Fraction} (h : FineDigits f) :
    0 < Int.fract (v.written f) := by
  have hrest := Nat.pos_of_ne_zero ((fineDigits_iff f).mp h)
  have h9 : 1000 * f.units 6 + 1 ≤ f.units 9 := by
    rw [f.units_add 6 3]
    omega
  have hfloor : (f.units 9 : ℚ) ≤ f.value * 10 ^ 9 := by
    rw [← Int.cast_natCast, f.units_eq_floor]
    exact Int.floor_le _
  have hvalue : (f.units 6 : ℚ) < f.value * 10 ^ 6 := by
    have h9' : 1000 * (f.units 6 : ℚ) + 1 ≤ f.units 9 := by exact_mod_cast h9
    linarith
  rw [← Int.self_sub_floor, v.floor_written, WallClock.written]
  push_cast
  linarith

/-- The division rounds down, except before 2000-01-01 with something to round. -/
theorem microseconds_fraction (s : ℤ) (f : Fraction) :
    (s < 0 ∧ FineDigits f → microseconds s (f.units 9) = 10 ^ 6 * s + f.units 6 + 1) ∧
      (¬ (s < 0 ∧ FineDigits f) → microseconds s (f.units 9) = 10 ^ 6 * s + f.units 6) := by
  have h9 : f.units 9 = 1000 * f.units 6 + units 3 (f.digits.drop 6) := by
    rw [f.units_add 6 3]
    ring
  have hu := units_six_lt f
  have hrest : units 3 (f.digits.drop 6) < 1000 := units_lt (f.digits_digits.drop 6) 3
  rw [fineDigits_iff, h9]
  constructor
  · rintro ⟨hs, hfine⟩
    rw [microseconds_before hs hu hrest, if_neg hfine]
  · intro hnot
    by_cases hs : s < 0
    · have h0 : units 3 (f.digits.drop 6) = 0 := by
        by_contra hfine
        exact hnot ⟨hs, hfine⟩
      rw [microseconds_before hs hu hrest, if_pos h0, add_zero]
    · exact microseconds_after (by omega) _ hrest

/-! ## The cells -/

/-- The text cell is what Trino wrote. -/
theorem textCell_wallClock (X : Crates) (ty : Text) (v : WallClock X.chrono) (f : Fraction) :
    encodeCell X (.string (v.temporal.text f)) v.temporal.pgType ty .text = .ok (.text (v.temporal.text f)) := by
  cases v <;> rfl

/-- The binary cell is the last whole microsecond, or the one after it. -/
theorem binaryCell_wallClock {X : Crates} (hC : ReadsFractions X.chrono) (ty : Text) (v : WallClock X.chrono)
    (f : Fraction) :
    ∃ k : ℤ, binaryCell X ty v.temporal f = .ok (.bytes (putInt 8 k)) ∧
      (v.seconds < 0 ∧ FineDigits f → k = ⌊v.written f⌋ + 1) ∧
      (¬ (v.seconds < 0 ∧ FineDigits f) → k = ⌊v.written f⌋) := by
  rw [v.floor_written]
  cases v with
  | time t =>
    refine ⟨_, binaryCell_time hC ty t f, ?_, fun _ => rfl⟩
    rintro ⟨hs, -⟩
    exact absurd hs (not_lt.mpr (Int.natCast_nonneg t.secs))
  | timestamp m =>
    rcases binaryCell_dated hC ty (.timestamp m) (Or.inl rfl) with ⟨s, hat, hcell⟩ | ⟨hno, -⟩
    · obtain rfl := hat.unique (.timestamp m)
      exact ⟨_, hcell f, microseconds_fraction m.seconds f⟩
    · exact absurd (.timestamp m) (hno _)

/-- How far the binary cell is from what the text cell writes, and when no whole microsecond is nearer. -/
theorem wallClock_nearest_iff (X : Crates) (hC : ReadsFractions X.chrono) (ty : Text) (v : WallClock X.chrono)
    (f : Fraction) :
    encodeCell X (.string (v.temporal.text f)) v.temporal.pgType ty .text = .ok (.text (v.temporal.text f)) ∧
      ∃ k : ℤ, encodeCell X (.string (v.temporal.text f)) v.temporal.pgType ty .binary = .ok (.bytes (putInt 8 k)) ∧
        |v.written f - k| < 1 ∧
        (|v.written f - k| ≤ 1 / 2 ↔
          (v.seconds < 0 ∧ FineDigits f → 1 / 2 ≤ Int.fract (v.written f)) ∧
            (¬ (v.seconds < 0 ∧ FineDigits f) → Int.fract (v.written f) ≤ 1 / 2)) := by
  refine ⟨textCell_wallClock X ty v f, ?_⟩
  obtain ⟨k, hcell, hup, hdown⟩ := binaryCell_wallClock hC ty v f
  refine ⟨k, hcell, ?_⟩
  by_cases hearly : v.seconds < 0 ∧ FineDigits f
  · have hpos := v.fract_written_pos hearly.2
    rw [hup hearly, abs_sub_floor_succ]
    refine ⟨by linarith, fun h => ⟨fun _ => by linarith, fun hn => absurd hearly hn⟩, fun h => ?_⟩
    have hhalf := h.1 hearly
    linarith
  · rw [hdown hearly, abs_sub_floor]
    refine ⟨Int.fract_lt_one _, fun h => ⟨fun he => absurd he hearly, fun _ => h⟩, fun h => h.2 hearly⟩

theorem sevenDigits_fine : FineDigits sevenDigits := ⟨'7', by decide, by decide⟩

theorem sevenDigits_fract (v : WallClock C) : Int.fract (v.written sevenDigits) = 7 / 10 := by
  have hunits : sevenDigits.units 6 = 123456 := by decide
  have hvalue : sevenDigits.value = 1234567 / 10 ^ 7 := by decide +kernel
  rw [← Int.self_sub_floor, v.floor_written, WallClock.written, hunits, hvalue]
  push_cast
  ring

/-- Seven tenths past the last whole microsecond: the landing is rounded to the nearest one, the summer day is not. -/
theorem moonLanding_nearest_summer_not :
    (∃ k : ℤ, encodeCell nineDigitCrates (.string "1969-07-20 20:17:40.1234567".toList) .timestamp [] .binary =
        .ok (.bytes (putInt 8 k)) ∧ |(WallClock.timestamp moonLanding).written sevenDigits - k| ≤ 1 / 2) ∧
      ∃ k : ℤ, encodeCell nineDigitCrates (.string "2026-06-01 10:30:00.1234567".toList) .timestamp [] .binary =
        .ok (.bytes (putInt 8 k)) ∧ ¬ |(WallClock.timestamp summerMorningStamp).written sevenDigits - k| ≤ 1 / 2 := by
  have hmoon : "1969-07-20 20:17:40.1234567".toList = (Temporal.timestamp moonLanding).text sevenDigits := by
    decide +kernel
  have hsummer : "2026-06-01 10:30:00.1234567".toList = (Temporal.timestamp summerMorningStamp).text sevenDigits := by
    decide +kernel
  rw [hmoon, hsummer]
  constructor
  · obtain ⟨-, k, hcell, -, hnear⟩ :=
      wallClock_nearest_iff nineDigitCrates nineDigits_reads [] (.timestamp moonLanding) sevenDigits
    refine ⟨k, hcell, hnear.mpr ⟨fun _ => ?_, fun hn => absurd ⟨by decide, sevenDigits_fine⟩ hn⟩⟩
    rw [sevenDigits_fract]
    norm_num
  · obtain ⟨-, k, hcell, -, hnear⟩ :=
      wallClock_nearest_iff nineDigitCrates nineDigits_reads [] (.timestamp summerMorningStamp) sevenDigits
    refine ⟨k, hcell, fun h => ?_⟩
    have hhalf := (hnear.mp h).2 fun he => absurd he.1 (by decide)
    rw [sevenDigits_fract] at hhalf
    norm_num at hhalf

end TrinoGateway.Types
