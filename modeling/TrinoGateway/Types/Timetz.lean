/-
  TrinoGateway.Types.Timetz — `time with time zone` columns in both formats
  (`parse_trino_timetz`, `TimeTz::to_sql`, `TimeTz::to_pg_text` of `src/types.rs`).

  Proved: `timetz_exact`. For every time of day, fraction and offset, the twelve bytes hold
  the microseconds since midnight, rounded down, and the offset in seconds west; the text
  reads as the same microseconds and the same offset under PostgreSQL's grammar, and its
  fraction is the shortest one. What is behind it: the first nine digits of a fraction
  determine the first six (`units_nine`), and the two printers are read back
  (`readUtcOffset_formatUtcOffset`, `formatFraction_canonical`).
-/

import TrinoGateway.Types.Timestamptz

namespace TrinoGateway.Types

open TrinoGateway.Lib

/-! ## PostgreSQL's reading -/

/-- `HH[:MM[:SS]]`, in seconds. -/
def readHours (s : Text) : Option ℕ := do
  let (hours, s) ← readTwo s
  match s with
  | [] => some (3600 * hours)
  | _ => do
    let (minutes, s) ← (expect ':' s).bind readTwo
    match s with
    | [] => some (3600 * hours + 60 * minutes)
    | _ => do
      let (seconds, s) ← (expect ':' s).bind readTwo
      if s = [] then some (3600 * hours + 60 * minutes + seconds) else none

/-- An offset with its sign, in seconds east. -/
def readUtcOffset : Text → Option ℤ
  | '+' :: s => (readHours s).map fun n : ℕ => (n : ℤ)
  | '-' :: s => (readHours s).map fun n : ℕ => -(n : ℤ)
  | _ => none

/-- `HH:MM:SS[.f]` and an offset: microseconds since midnight and seconds east. -/
def readTimetz (s : Text) : Option (ℤ × ℤ) := do
  let (clock, s) ← readClock s
  let (micros, s) := readMicros s
  let offset ← readUtcOffset s
  some (10 ^ 6 * clock + micros, offset)

/-- The spelling of a fraction of a second: nothing, or up to six digits of which the last is not zero. -/
def CanonicalFraction (micros : ℤ) (s : Text) : Prop :=
  (micros = 0 ∧ s = []) ∨ (micros ≠ 0 ∧ ∃ ds d, s = '.' :: (ds ++ [d]) ∧ Digits (ds ++ [d]) ∧ ds.length < 6 ∧ d ≠ '0')

/-! ## The offset -/

theorem readHours_hours {h : ℕ} (hh : h < 100) : readHours (pad 2 h) = some (3600 * h) := by
  have hr := readTwo_pad hh []
  rw [List.append_nil] at hr
  rw [readHours, hr]
  rfl

theorem readHours_minutes {h m : ℕ} (hh : h < 100) (hm : m < 100) :
    readHours (pad 2 h ++ ':' :: pad 2 m) = some (3600 * h + 60 * m) := by
  have hr := readTwo_pad hm []
  rw [List.append_nil] at hr
  rw [readHours, readTwo_pad hh]
  simp only [Option.bind_eq_bind, Option.bind_some, expect_cons, hr]

theorem readHours_seconds {h m s : ℕ} (hh : h < 100) (hm : m < 100) (hs : s < 100) :
    readHours (pad 2 h ++ ':' :: (pad 2 m ++ ':' :: pad 2 s)) = some (3600 * h + 60 * m + s) := by
  have hr := readTwo_pad hs []
  rw [List.append_nil] at hr
  rw [readHours, readTwo_pad hh]
  simp only [Option.bind_eq_bind, Option.bind_some, expect_cons, readTwo_pad hm, hr, if_true]

/-- The digits after the sign. -/
def hoursText (total : ℕ) : Text :=
  if total % 60 ≠ 0 then pad 2 (total / 3600) ++ ':' :: (pad 2 (total % 3600 / 60) ++ ':' :: pad 2 (total % 60))
  else if total % 3600 / 60 ≠ 0 then pad 2 (total / 3600) ++ ':' :: pad 2 (total % 3600 / 60)
  else pad 2 (total / 3600)

theorem formatUtcOffset_eq (n : ℤ) : formatUtcOffset n = (if n < 0 then '-' else '+') :: hoursText n.natAbs := by
  unfold formatUtcOffset hoursText
  simp only
  split_ifs <;> simp

theorem readHours_hoursText {total : ℕ} (h : total < 360000) : readHours (hoursText total) = some total := by
  have hh : total / 3600 < 100 := by omega
  have hm : total % 3600 / 60 < 100 := by omega
  have hs : total % 60 < 100 := by omega
  unfold hoursText
  split_ifs with h1 h2
  · rw [readHours_seconds hh hm hs]
    congr 1
    omega
  · rw [readHours_minutes hh hm]
    congr 1
    omega
  · rw [readHours_hours hh]
    congr 1
    omega

theorem readUtcOffset_formatUtcOffset {n : ℤ} (h : n.natAbs < 360000) : readUtcOffset (formatUtcOffset n) = some n := by
  rw [formatUtcOffset_eq]
  by_cases hneg : n < 0
  · rw [if_pos hneg, readUtcOffset, readHours_hoursText h, Option.map_some]
    congr 1
    omega
  · rw [if_neg hneg, readUtcOffset, readHours_hoursText h, Option.map_some]
    congr 1
    omega

theorem afterFraction_formatUtcOffset (n : ℤ) : AfterFraction (formatUtcOffset n) := by
  intro c hc
  rw [formatUtcOffset_eq, List.head?_cons, Option.mem_some_iff] at hc
  rw [← hc]
  split_ifs <;> decide

/-! ## The fraction -/

/-- The digits after the sixth are less than a microsecond. -/
theorem units_nine (f : Fraction) : ∃ rest < 1000, f.units 9 = 1000 * f.units 6 + rest := by
  refine ⟨units 3 (f.digits.drop 6), units_lt (f.digits_digits.drop 6) 3, ?_⟩
  rw [f.units_add 6 3]
  ring

theorem units_six_lt (f : Fraction) : f.units 6 < 10 ^ 6 := f.units_lt 6

theorem numMicroseconds_time (t : Clock) (f : Fraction) : (t.time f).numMicroseconds = 10 ^ 6 * t.secs + f.units 6 := by
  obtain ⟨rest, hrest, h9⟩ := units_nine f
  show ((t.secs : ℤ) * 1000000000 + (f.units 9 : ℕ)).tdiv 1000 = _
  rw [h9, Int.tdiv_eq_ediv_of_nonneg (by positivity)]
  omega

theorem formatFraction_units (f : Fraction) : formatFraction (f.units 9) = formatFraction (1000 * f.units 6) := by
  obtain ⟨rest, hrest, h9⟩ := units_nine f
  have hmin : min (f.units 9 / 1000) 999999 = min (1000 * f.units 6 / 1000) 999999 := by omega
  simp only [formatFraction, hmin]

theorem formatFraction_canonical {u : ℕ} (hu : u < 10 ^ 6) : CanonicalFraction u (formatFraction (1000 * u)) := by
  have hmin : min (1000 * u / 1000) 999999 = u := by omega
  simp only [formatFraction, hmin]
  split_ifs with h0
  · exact Or.inl ⟨by exact_mod_cast h0, rfl⟩
  · refine Or.inr ⟨by exact_mod_cast h0, ?_⟩
    have hne : trimZeros (pad 6 u) ≠ [] := fun hnil => h0 (eq_zero_of_trimZeros_pad hnil)
    obtain ⟨ds, d, hds⟩ : ∃ ds d, trimZeros (pad 6 u) = ds ++ [d] :=
      ⟨_, _, (List.dropLast_append_getLast hne).symm⟩
    have hdig : Digits (trimZeros (pad 6 u)) := fun c hc => pad_isDigit ((List.rdropWhile_prefix _ _).subset hc)
    have hlen : (trimZeros (pad 6 u)).length ≤ 6 := by
      have hle := (List.rdropWhile_prefix (· == '0') (pad 6 u)).length_le
      rwa [pad_length (by decide) hu] at hle
    have hlast : d ≠ '0' := by
      have h := List.rdropWhile_last_not (· == '0') (pad 6 u) hne
      have hd : (trimZeros (pad 6 u)).getLast hne = d := by simp only [hds, List.getLast_append_singleton]
      intro he
      exact h (beq_iff_eq.mpr (hd.trans he))
    rw [trimZeros_point, hds]
    rw [hds] at hdig hlen
    exact ⟨ds, d, rfl, hdig, by simpa using hlen, hlast⟩

/-! ## Both formats -/

theorem toPgText_eq {C : Chrono} (hC : ReadsFractions C) (t : Clock) (f : Fraction) (o : Offset) :
    TimeTz.toPgText C ⟨t.time f, o.seconds⟩ =
      t.text ++ (formatFraction (1000 * f.units 6) ++ formatUtcOffset o.seconds) := by
  rw [TimeTz.toPgText, hC.formatTime, ← formatFraction_units, List.append_assoc]
  rfl

theorem readTimetz_text {C : Chrono} (hC : ReadsFractions C) (t : Clock) (f : Fraction) (o : Offset) :
    readTimetz (TimeTz.toPgText C ⟨t.time f, o.seconds⟩) = some (10 ^ 6 * (t.secs : ℤ) + f.units 6, o.seconds) := by
  have ho := o.minutes_lt
  have hoffset : o.seconds.natAbs < 360000 := by
    simp only [Offset.seconds]
    omega
  rw [toPgText_eq hC, readTimetz, Clock.text, readClock_clockText t.secs_lt]
  simp only [Option.bind_eq_bind, Option.bind_some,
    readMicros_formatFraction (units_six_lt f) (afterFraction_formatUtcOffset o.seconds),
    readUtcOffset_formatUtcOffset hoffset]

theorem readSigned_toSql (t : Clock) (f : Fraction) (o : Offset) :
    (TimeTz.toSql ⟨t.time f, o.seconds⟩).length = 12 ∧
      readSigned ((TimeTz.toSql ⟨t.time f, o.seconds⟩).take 8) = 10 ^ 6 * t.secs + f.units 6 ∧
      readSigned ((TimeTz.toSql ⟨t.time f, o.seconds⟩).drop 8) = -o.seconds := by
  have ht := t.secs_lt
  have hf := units_six_lt f
  have ho := o.minutes_lt
  have htake : (TimeTz.toSql ⟨t.time f, o.seconds⟩).take 8 = putInt 8 (10 ^ 6 * t.secs + f.units 6) := by
    rw [TimeTz.toSql, numMicroseconds_time, List.take_left' (putInt_length 8 _)]
  have hdrop : (TimeTz.toSql ⟨t.time f, o.seconds⟩).drop 8 = putInt 4 (-o.seconds) := by
    rw [TimeTz.toSql, List.drop_left' (putInt_length 8 _)]
  refine ⟨by simp [TimeTz.toSql], ?_, ?_⟩
  · rw [htake]
    exact readSigned_putInt (by omega) (by omega)
  · rw [hdrop]
    simp only [Offset.seconds]
    exact readSigned_putInt (by omega) (by omega)

theorem encodeCell_timetz {X : Crates} {s : Text} {v : TimeTz} (h : parseTrinoTimetz X.chrono s = some v) (ty : Text) :
    encodeCell X (.string s) .timetz ty .binary = .ok (.bytes v.toSql) ∧
      encodeCell X (.string s) .timetz ty .text = .ok (.text (v.toPgText X.chrono)) := by
  constructor
  · simp only [encodeCell, encodeBinaryCell, jsonToTimetz, Value.asStr, Option.bind_some, h]
    rfl
  · simp only [encodeCell, textValue, Value.asStr, Option.bind_some, h, if_true]
    rfl

/-- A `time with time zone` goes out as its microseconds and its offset in both formats. -/
theorem timetz_exact (X : Crates) (hC : ReadsFractions X.chrono) (ty : Text) (t : Clock) (f : Fraction) (o : Offset)
    (spaced : Bool) :
    ∃ v, parseTrinoTimetz X.chrono (t.text ++ (f.text ++ o.text spaced)) = some v ∧
      v.toSql.length = 12 ∧ readSigned (v.toSql.take 8) = 10 ^ 6 * t.secs + ⌊f.value * 10 ^ 6⌋ ∧
      readSigned (v.toSql.drop 8) = -o.seconds ∧
      readTimetz (v.toPgText X.chrono) = some (10 ^ 6 * t.secs + ⌊f.value * 10 ^ 6⌋, o.seconds) ∧
      (∃ fraction, v.toPgText X.chrono = t.text ++ (fraction ++ formatUtcOffset o.seconds) ∧
        CanonicalFraction ⌊f.value * 10 ^ 6⌋ fraction) ∧
      encodeCell X (.string (t.text ++ (f.text ++ o.text spaced))) .timetz ty .binary = .ok (.bytes v.toSql) ∧
      encodeCell X (.string (t.text ++ (f.text ++ o.text spaced))) .timetz ty .text =
        .ok (.text (v.toPgText X.chrono)) := by
  have hparse := parseTimetz_text hC t f spaced o
  obtain ⟨hlen, htake, hdrop⟩ := readSigned_toSql t f o
  rw [← f.units_eq_floor 6]
  refine ⟨_, hparse, hlen, htake, hdrop, readTimetz_text hC t f o, ⟨_, toPgText_eq hC t f o, ?_⟩, encodeCell_timetz hparse ty⟩
  exact formatFraction_canonical (units_six_lt f)

/-- Half past ten and a fraction of ten digits, west of UTC. -/
theorem timetz_exact_newfoundland : ∃ v,
    parseTrinoTimetz nineDigits "10:30:00.1234567899 -03:30".toList = some v ∧
      readSigned (v.toSql.drop 8) = 12600 := by
  obtain ⟨v, hparse, -, -, hdrop, -⟩ := timetz_exact nineDigitCrates nineDigits_reads [] ⟨37800, by decide⟩
    ⟨"1234567899".toList, List.all_eq_true.mp (by decide)⟩ ⟨-210, by decide⟩ true
  have htext : "10:30:00.1234567899 -03:30".toList = Clock.text ⟨37800, by decide⟩ ++
      (Fraction.text ⟨"1234567899".toList, List.all_eq_true.mp (by decide)⟩ ++ Offset.text ⟨-210, by decide⟩ true) := by
    decide +kernel
  refine ⟨v, ?_, hdrop⟩
  rw [htext]
  exact hparse

end TrinoGateway.Types
