/-
  TrinoGateway.Types.Truncation — the digits after the sixth in the binary format. A
  fraction is cut to nine digits by `truncate_fraction`, kept in nanoseconds by `chrono`,
  and divided to microseconds after 2000-01-01 or after midnight by `postgres-types`; the
  division rounds towards zero.

  Proved: `fraction_cut_iff`, for every value of the four types and every fraction. The cell
  is that of the value cut after the sixth digit if and only if the value does not lie
  before 2000-01-01 (UTC, if it has a zone) with a digit other than zero among the seventh
  to the ninth. Before that date the difference is negative, so dropping them rounds up
  (`moon_landing_rounded_up`).
-/

import TrinoGateway.Types.Timetz

namespace TrinoGateway.Types

open TrinoGateway.Lib

/-! ## Values -/

/-- A value of one of the four types, without its fraction. -/
inductive Temporal (C : Chrono) where
  | time (t : Clock)
  | timetz (t : Clock) (spaced : Bool) (o : Offset)
  | timestamp (m : Moment C)
  | timestamptz (m : Moment C) (spaced : Bool) (o : Offset)
  | zoned (m : Moment C) (name : Text) (tz : Tz) (h : C.parseZone name = some tz)

variable {C : Chrono}

def Temporal.pgType : Temporal C → PgType
  | .time _ => .time
  | .timetz _ _ _ => .timetz
  | .timestamp _ => .timestamp
  | .timestamptz _ _ _ => .timestamptz
  | .zoned _ _ _ _ => .timestamptz

/-- The text with a fraction. -/
def Temporal.text (f : Fraction) : Temporal C → Text
  | .time t => t.text ++ f.text
  | .timetz t spaced o => t.text ++ (f.text ++ o.text spaced)
  | .timestamp m => m.text ++ f.text
  | .timestamptz m spaced o => m.text ++ (f.text ++ o.text spaced)
  | .zoned m name _ _ => m.text ++ (f.text ++ ' ' :: name)

/-- The value stands for the second `s` after 2000-01-01: of its own clock if it has no zone, of UTC otherwise. A
    local time of a zone does so if no other second has it. -/
inductive Temporal.At : Temporal C → ℤ → Prop
  | timestamp (m : Moment C) : At (.timestamp m) m.seconds
  | timestamptz (m : Moment C) (spaced : Bool) (o : Offset) : InRange (m.seconds - o.seconds) →
      At (.timestamptz m spaced o) (m.seconds - o.seconds)
  | zoned (m : Moment C) {name : Text} {tz : Tz} (h : C.parseZone name = some tz) {s : ℤ} : InRange s →
      (∀ s', s' + tz.offsetAt s' = m.seconds ↔ s' = s) → At (.zoned m name tz h) s

/-- The value lies before 2000-01-01 00:00. -/
def Temporal.Early (v : Temporal C) : Prop := ∃ s, v.At s ∧ s < 0

/-- One of the seventh to the ninth digit is not zero. -/
def FineDigits (f : Fraction) : Prop := ∃ c ∈ (f.digits.drop 6).take 3, c ≠ '0'

theorem Temporal.At.unique {v : Temporal C} {s t : ℤ} (hs : v.At s) (ht : v.At t) : s = t := by
  cases hs with
  | timestamp m =>
    cases ht
    rfl
  | timestamptz m spaced o _ =>
    cases ht
    rfl
  | zoned m h _ huniq =>
    cases ht with
    | zoned _ _ _ huniq' => exact (huniq' s).mp ((huniq s).mpr rfl)

/-! ## Rounding towards zero -/

/-- Microseconds after 2000-01-01 of a second and its nanoseconds. -/
def microseconds (s : ℤ) (nanos : ℕ) : ℤ := (s * 1000000000 + nanos).tdiv 1000

theorem microseconds_after {s : ℤ} (hs : 0 ≤ s) (u : ℕ) {rest : ℕ} (hrest : rest < 1000) :
    microseconds s (1000 * u + rest) = 10 ^ 6 * s + u := by
  unfold microseconds
  rw [Int.tdiv_eq_ediv_of_nonneg (by positivity)]
  push_cast
  omega

/-- Before 2000-01-01 what is left of a microsecond counts as one. -/
theorem microseconds_before {s : ℤ} (hs : s < 0) {u rest : ℕ} (hu : u < 10 ^ 6) (hrest : rest < 1000) :
    microseconds s (1000 * u + rest) = 10 ^ 6 * s + u + if rest = 0 then 0 else 1 := by
  have hneg : s * 1000000000 + ((1000 * u + rest : ℕ) : ℤ) = -(-(s * 1000000000 + ((1000 * u + rest : ℕ) : ℤ))) := by ring
  unfold microseconds
  rw [hneg, Int.neg_tdiv, Int.tdiv_eq_ediv_of_nonneg (by push_cast; omega)]
  push_cast
  split_ifs <;> omega

theorem fineDigits_iff (f : Fraction) : FineDigits f ↔ units 3 (f.digits.drop 6) ≠ 0 := by
  rw [Ne, units_eq_zero_iff (f.digits_digits.drop 6) 3, FineDigits]
  push Not
  rfl

/-- The bytes are those of the cut value. -/
theorem putInt_cut_iff (s : ℤ) (f : Fraction) :
    putInt 8 (microseconds s (f.units 9)) = putInt 8 (microseconds s ((f.take 6).units 9)) ↔ ¬ (s < 0 ∧ FineDigits f) := by
  have h9 : f.units 9 = 1000 * f.units 6 + units 3 (f.digits.drop 6) := by
    rw [f.units_add 6 3]
    ring
  have hcut : (f.take 6).units 9 = 1000 * f.units 6 + 0 := by
    rw [f.units_take_add 6 3]
    ring
  have hu := units_six_lt f
  have hrest : units 3 (f.digits.drop 6) < 1000 := units_lt (f.digits_digits.drop 6) 3
  rw [fineDigits_iff, h9, hcut]
  by_cases hs : s < 0
  · rw [microseconds_before hs hu hrest, microseconds_before hs hu (by decide)]
    by_cases h0 : units 3 (f.digits.drop 6) = 0
    · simp [h0]
    · simp only [h0, if_false, if_true, hs, ne_eq, not_false_eq_true, and_self, not_true_eq_false, iff_false]
      intro he
      have hb := congrArg (fun bs => (readBytes bs : ℤ)) he
      simp only [readBytes_putInt] at hb
      omega
  · rw [microseconds_after (by omega) _ hrest, microseconds_after (by omega) _ (by decide)]
    simp [hs]

/-! ## The cells -/

theorem numMicroseconds_eq (dt : NaiveDateTime) : dt.numMicroseconds = microseconds dt.seconds dt.time.nanos := rfl

theorem withSeconds_microseconds (m : Moment C) (f : Fraction) (s : ℤ) :
    ((m.naive f).withSeconds s).numMicroseconds = microseconds s (f.units 9) := by
  rw [numMicroseconds_eq, NaiveDateTime.withSeconds, ofSeconds_seconds]
  rfl

theorem shift_microseconds (m : Moment C) (f : Fraction) (d : ℤ) :
    ((m.naive f).shift d).numMicroseconds = microseconds (m.seconds + d) (f.units 9) :=
  withSeconds_microseconds m f (m.seconds + d)

section
variable {X : Crates} (hC : ReadsFractions X.chrono) (ty : Text)

/-- The cell of a value with a fraction. -/
def binaryCell (X : Crates) (ty : Text) (v : Temporal X.chrono) (f : Fraction) : PgWireResult Payload :=
  encodeCell X (.string (v.text f)) v.pgType ty .binary

include hC

theorem binaryCell_time (t : Clock) (f : Fraction) :
    binaryCell X ty (.time t) f = .ok (.bytes (putInt 8 (10 ^ 6 * t.secs + f.units 6))) := by
  simp only [binaryCell, Temporal.text, Temporal.pgType, encodeCell, encodeBinaryCell, jsonToTime, Value.asStr,
    Option.bind_some, parseTime_text hC]
  rw [← numMicroseconds_time]
  rfl

theorem binaryCell_timetz (t : Clock) (spaced : Bool) (o : Offset) (f : Fraction) :
    binaryCell X ty (.timetz t spaced o) f = .ok (.bytes (putInt 8 (10 ^ 6 * t.secs + f.units 6) ++ putInt 4 (-o.seconds))) := by
  rw [← numMicroseconds_time]
  exact (encodeCell_timetz (parseTimetz_text hC t f spaced o) ty).1

/-- A value with a date is one second and its fraction, or it is refused whatever the fraction. -/
theorem binaryCell_dated (v : Temporal X.chrono) (hv : v.pgType = .timestamp ∨ v.pgType = .timestamptz) :
    (∃ s, v.At s ∧ ∀ f, binaryCell X ty v f = .ok (.bytes (putInt 8 (microseconds s (f.units 9))))) ∨
      (∀ s, ¬ v.At s) ∧ ∀ f, binaryCell X ty v f = .error (conversionError "timestamptz" ty) := by
  cases v with
  | time t => simp [Temporal.pgType] at hv
  | timetz t spaced o => simp [Temporal.pgType] at hv
  | timestamp m =>
    refine Or.inl ⟨_, .timestamp m, fun f => ?_⟩
    have hsolid := m.solid f (Or.inl rfl)
    rw [List.append_nil] at hsolid
    simp only [binaryCell, Temporal.text, Temporal.pgType, encodeCell, encodeBinaryCell, jsonToTimestamp, Value.asStr,
      Option.bind_some, trim_solid hsolid, parseNaive_text hC]
    rfl
  | timestamptz m spaced o =>
    by_cases hrange : InRange (m.seconds - o.seconds)
    · refine Or.inl ⟨_, .timestamptz m spaced o hrange, fun f => ?_⟩
      have hparse := (parseTimestamptz_offset hC m f spaced o).1 hrange
      rw [sub_eq_add_neg, ← shift_microseconds]
      exact (encodeCell_of_parse ty hparse).1
    · refine Or.inr ⟨?_, fun f => ?_⟩
      · intro s hs
        cases hs with
        | timestamptz _ _ _ h => exact hrange h
      · exact (encodeCell_of_no_parse ty ((parseTimestamptz_offset hC m f spaced o).2 hrange)).1
  | zoned m name tz h =>
    by_cases hex : ∃ s, InRange s ∧ ∀ s', s' + tz.offsetAt s' = m.seconds ↔ s' = s
    · obtain ⟨s, hrange, huniq⟩ := hex
      refine Or.inl ⟨s, .zoned m h hrange huniq, fun f => ?_⟩
      have hsingle := (single_moment hC m f tz).mpr ⟨s, rfl, hrange, huniq⟩
      rw [← withSeconds_microseconds]
      exact (encodeCell_of_parse ty ((parseTimestamptz_named hC m f h).trans hsingle)).1
    · refine Or.inr ⟨?_, fun f => ?_⟩
      · intro s hs
        cases hs with
        | zoned _ _ hrange huniq => exact hex ⟨s, hrange, huniq⟩
      · have hnone : X.chrono.single tz (m.naive f) = none := by
          cases hsingle : X.chrono.single tz (m.naive f) with
          | none => rfl
          | some utc =>
            obtain ⟨s, -, hrange, huniq⟩ := (single_moment hC m f tz).mp hsingle
            exact absurd ⟨s, hrange, huniq⟩ hex
        exact (encodeCell_of_no_parse ty ((parseTimestamptz_named hC m f h).trans hnone)).1

/-- A time of day is cut, never rounded. -/
theorem cut_of_timeOfDay (v : Temporal X.chrono) (hv : v.pgType = .time ∨ v.pgType = .timetz) (f : Fraction) :
    binaryCell X ty v f = binaryCell X ty v (f.take 6) ∧ ¬ v.Early := by
  cases v with
  | time t =>
    refine ⟨?_, ?_⟩
    · rw [binaryCell_time hC, binaryCell_time hC, f.units_take le_rfl]
    · rintro ⟨s, hs, -⟩
      cases hs
  | timetz t spaced o =>
    refine ⟨?_, ?_⟩
    · rw [binaryCell_timetz hC, binaryCell_timetz hC, f.units_take le_rfl]
    · rintro ⟨s, hs, -⟩
      cases hs
  | timestamp m => simp [Temporal.pgType] at hv
  | timestamptz m spaced o => simp [Temporal.pgType] at hv
  | zoned m name tz h => simp [Temporal.pgType] at hv

theorem cut_of_dated (v : Temporal X.chrono) (hv : v.pgType = .timestamp ∨ v.pgType = .timestamptz) (f : Fraction) :
    binaryCell X ty v f = binaryCell X ty v (f.take 6) ↔ ¬ (v.Early ∧ FineDigits f) := by
  rcases binaryCell_dated hC ty v hv with ⟨s, hat, hcell⟩ | ⟨hno, hcell⟩
  · have hearly : v.Early ↔ s < 0 := by
      constructor
      · rintro ⟨t, ht, hlt⟩
        rwa [hat.unique ht]
      · intro hlt
        exact ⟨s, hat, hlt⟩
    rw [hcell, hcell, hearly, ← putInt_cut_iff]
    simp only [Except.ok.injEq, Payload.bytes.injEq]
  · have hearly : ¬ v.Early := by
      rintro ⟨s, hs, -⟩
      exact hno s hs
    simp [hcell, hearly]
end

/-- The binary cell of a value is that of the value cut after the sixth fraction digit, unless the value lies before
    2000-01-01 and the cut takes something away from the first nine digits. -/
theorem fraction_cut_iff (X : Crates) (hC : ReadsFractions X.chrono) (ty : Text) (v : Temporal X.chrono) (f : Fraction) :
    encodeCell X (.string (v.text f)) v.pgType ty .binary = encodeCell X (.string (v.text (f.take 6))) v.pgType ty .binary ↔
      ¬ (v.Early ∧ FineDigits f) := by
  have htype : (v.pgType = .time ∨ v.pgType = .timetz) ∨ (v.pgType = .timestamp ∨ v.pgType = .timestamptz) := by
    cases v <;> simp [Temporal.pgType]
  rcases htype with hv | hv
  · obtain ⟨hcell, hearly⟩ := cut_of_timeOfDay hC ty v hv f
    exact ⟨fun _ h => hearly h.1, fun _ => hcell⟩
  · exact cut_of_dated hC ty v hv f

def summerDay : Day nineDigits := ⟨"2026-06-01".toList, 9648, by decide, isDate_of_all (by decide), by decide +kernel⟩

def moonDay : Day nineDigits := ⟨"1969-07-20".toList, -11122, by decide, isDate_of_all (by decide), by decide +kernel⟩

def summerMorningStamp : Moment nineDigits := ⟨summerDay, .space, ⟨37800, by decide⟩⟩

def moonLanding : Moment nineDigits := ⟨moonDay, .space, ⟨73060, by decide⟩⟩

def sevenDigits : Fraction := ⟨"1234567".toList, List.all_eq_true.mp (by decide)⟩

/-- After 2000-01-01 the seventh digit is dropped. -/
theorem summer_cut :
    encodeCell nineDigitCrates (.string "2026-06-01 10:30:00.1234567".toList) .timestamp [] .binary =
      encodeCell nineDigitCrates (.string "2026-06-01 10:30:00.123456".toList) .timestamp [] .binary := by
  have hlong : "2026-06-01 10:30:00.1234567".toList = (Temporal.timestamp summerMorningStamp).text sevenDigits := by
    decide +kernel
  have hshort : "2026-06-01 10:30:00.123456".toList =
      (Temporal.timestamp summerMorningStamp).text (sevenDigits.take 6) := by decide +kernel
  rw [hlong, hshort]
  refine (fraction_cut_iff nineDigitCrates nineDigits_reads [] (.timestamp summerMorningStamp) sevenDigits).mpr ?_
  rintro ⟨⟨s, hs, hlt⟩, -⟩
  rw [hs.unique (.timestamp summerMorningStamp)] at hlt
  exact absurd hlt (by decide)

/-- Before it the microseconds are rounded up. -/
theorem moon_landing_rounded_up :
    encodeCell nineDigitCrates (.string "1969-07-20 20:17:40.1234567".toList) .timestamp [] .binary =
        .ok (.bytes (putInt 8 (-960867739876543))) ∧
      encodeCell nineDigitCrates (.string "1969-07-20 20:17:40.123456".toList) .timestamp [] .binary =
        .ok (.bytes (putInt 8 (-960867739876544))) ∧
      putInt 8 (-960867739876543) ≠ putInt 8 (-960867739876544) := by
  have hlong : "1969-07-20 20:17:40.1234567".toList = (Temporal.timestamp moonLanding).text sevenDigits := by
    decide +kernel
  have hshort : "1969-07-20 20:17:40.123456".toList = (Temporal.timestamp moonLanding).text (sevenDigits.take 6) := by
    decide +kernel
  rcases binaryCell_dated (X := nineDigitCrates) nineDigits_reads [] (.timestamp moonLanding) (Or.inl rfl) with
    ⟨s, hat, hcell⟩ | ⟨hno, -⟩
  · obtain rfl := hat.unique (.timestamp moonLanding)
    rw [hlong, hshort]
    exact ⟨hcell sevenDigits, hcell (sevenDigits.take 6), by decide⟩
  · exact absurd (.timestamp moonLanding) (hno _)

end TrinoGateway.Types
