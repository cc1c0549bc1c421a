/-
  TrinoGateway.Types.PgTimestamp — does `render_timestamptz_text` (`src/types.rs`) print an
  instant as PostgreSQL does?

  PostgreSQL under TimeZone UTC and DateStyle ISO prints a year of at least four digits and
  no sign, month, day and time of two digits each, a fraction without zeros at its end,
  `+00`, and ` BC` for the years before year 1 (`PgForm`). `chrono` prints a year outside
  0000 to 9999 with a sign and knows no ` BC` (`PrintsDates`).

  Proved: `pg_text_iff`. Every value the parser accepts, whatever its zone, is printed in
  PostgreSQL's form exactly if its year in UTC is one of 1 to 9999. The year is the one after
  the conversion: the last evening of 9999 west of UTC is not (`last_evening_signed`).
-/

import TrinoGateway.Types.Truncation

namespace TrinoGateway.Types

open TrinoGateway.Lib

/-! ## PostgreSQL's form -/

def TwoDigits (s : Text) : Prop := s.length = 2 ∧ Digits s

/-- The form of PostgreSQL's text for an instant of a year; the year before year 1 is year 0. -/
def PgForm (year : ℤ) (s : Text) : Prop :=
  ∃ y month day hour minute second fraction : Text, ∃ micros : ℤ,
    s = y ++ ('-' :: month ++ ('-' :: day ++ (' ' :: hour ++ (':' :: minute ++ (':' :: second ++
      (fraction ++ ("+00".toList ++ if year < 1 then " BC".toList else []))))))) ∧
    4 ≤ y.length ∧ Digits y ∧ TwoDigits month ∧ TwoDigits day ∧ TwoDigits hour ∧ TwoDigits minute ∧ TwoDigits second ∧
    CanonicalFraction micros fraction

/-- How `chrono` prints a date and time that is no leap second. -/
def PrintsDates (C : Chrono) : Prop :=
  ∀ dt : NaiveDateTime, dt.time.nanos < 10 ^ 9 →
    C.formatDateTime dt = dateText dt.date ++ ' ' :: clockText dt.time.secs

/-- The year of a UTC date and time. -/
def NaiveDateTime.year (dt : NaiveDateTime) : ℤ := (civilFromDays dt.date).year

/-! ## The printed text -/

theorem twoDigits_pad {n : ℕ} (h : n < 100) : TwoDigits (pad 2 n) :=
  ⟨pad_length (by decide) h, fun _ hc => pad_isDigit hc⟩

theorem formatFraction_form {nanos : ℕ} (h : nanos < 10 ^ 9) :
    CanonicalFraction ((nanos / 1000 : ℕ) : ℤ) (formatFraction nanos) := by
  have hmin : min (nanos / 1000) 999999 = min (1000 * (nanos / 1000) / 1000) 999999 := by omega
  have hsame : formatFraction nanos = formatFraction (1000 * (nanos / 1000)) := by
    unfold formatFraction
    rw [hmin]
  rw [hsame]
  exact formatFraction_canonical (by omega)

variable {C : Chrono} (hC : PrintsDates C) {dt : NaiveDateTime} (hnanos : dt.time.nanos < 10 ^ 9)
include hC hnanos

theorem render_eq :
    renderTimestamptzText C dt =
      yearText dt.year ++ ('-' :: pad 2 (civilFromDays dt.date).month ++ ('-' :: pad 2 (civilFromDays dt.date).day ++
        (' ' :: pad 2 (dt.time.secs / 3600) ++ (':' :: pad 2 (dt.time.secs % 3600 / 60) ++
          (':' :: pad 2 (dt.time.secs % 60) ++ (formatFraction dt.time.nanos ++ "+00".toList)))))) := by
  rw [renderTimestamptzText, hC dt hnanos, dateText, clockText, NaiveDateTime.year]
  simp only [List.append_assoc, List.cons_append]

theorem render_form (hfirst : 1 ≤ dt.year) (hlast : dt.year ≤ 9999) : PgForm dt.year (renderTimestamptzText C dt) := by
  obtain ⟨hm1, hm2, hd1, hd2⟩ := civilFromDays_bounds dt.date
  have hsecs := dt.time.secs_lt
  have hyear : yearText dt.year = pad 4 dt.year.natAbs := if_pos ⟨by omega, hlast⟩
  have hlen : (pad 4 dt.year.natAbs).length = 4 := pad_length (by decide) (by omega)
  refine ⟨pad 4 dt.year.natAbs, pad 2 (civilFromDays dt.date).month, pad 2 (civilFromDays dt.date).day,
    pad 2 (dt.time.secs / 3600), pad 2 (dt.time.secs % 3600 / 60), pad 2 (dt.time.secs % 60),
    formatFraction dt.time.nanos, (dt.time.nanos / 1000 : ℕ), ?_, hlen.ge, fun c hc => pad_isDigit hc,
    twoDigits_pad (by omega), twoDigits_pad (by omega), twoDigits_pad (by omega), twoDigits_pad (by omega),
    twoDigits_pad (by omega), formatFraction_form hnanos⟩
  rw [render_eq hC hnanos, hyear, if_neg (by omega), List.append_nil]

omit hC hnanos in
/-- The text ends in `+00`, whatever the year. -/
theorem render_not_bc (hyear : dt.year < 1) : ¬ PgForm dt.year (renderTimestamptzText C dt) := by
  intro h
  obtain ⟨y, month, day, hour, minute, second, fraction, micros, hs, -⟩ := h
  have hbc : " BC".toList <:+ renderTimestamptzText C dt := by
    rw [hs, if_pos hyear]
    iterate 8 refine List.IsSuffix.trans ?_ (List.suffix_append _ _)
    exact List.suffix_refl _
  have hutc : "+00".toList <:+ renderTimestamptzText C dt := List.suffix_append _ _
  rcases List.suffix_or_suffix_of_suffix hbc hutc with h | h <;> exact absurd h (by decide)

/-- The text starts with a sign. -/
theorem render_not_signed (hyear : 9999 < dt.year) : ¬ PgForm dt.year (renderTimestamptzText C dt) := by
  intro h
  obtain ⟨y, month, day, hour, minute, second, fraction, micros, hs, hlen, hdigits, -⟩ := h
  have hsign : yearText dt.year = '+' :: pad 4 dt.year.natAbs := by
    rw [yearText, if_neg (by omega), if_neg (by omega)]
  obtain ⟨c, y, rfl⟩ := List.exists_cons_of_ne_nil (List.length_pos_iff.mp (by omega : 0 < y.length))
  rw [render_eq hC hnanos, hsign, List.cons_append, List.cons_append] at hs
  have hc := hdigits c List.mem_cons_self
  rw [← (List.cons.inj hs).1] at hc
  exact absurd hc (by decide)

omit hC hnanos

theorem pg_text_iff (X : Crates) (hC : PrintsDates X.chrono) (ty : Text) {s : Text} {dt : NaiveDateTime}
    (hparse : parseTrinoTimestamptz X.chrono s = some dt) (hnanos : dt.time.nanos < 10 ^ 9) :
    textValue X (.string s) .timestamptz ty = some (renderTimestamptzText X.chrono dt) ∧
    (PgForm dt.year (renderTimestamptzText X.chrono dt) ↔ 1 ≤ dt.year ∧ dt.year ≤ 9999) := by
  constructor
  · have hvalue : (Value.string s).asStr.bind (parseTrinoTimestamptz X.chrono) = some dt := hparse
    rw [textValue, if_pos rfl, hvalue]
  · constructor
    · intro h
      constructor
      · by_contra hyear
        exact render_not_bc (by omega) h
      · by_contra hyear
        exact render_not_signed hC hnanos (by omega) h
    · intro h
      exact render_form hC hnanos h.1 h.2

/-! ## Two instants -/

theorem nineDigits_prints : PrintsDates nineDigits := fun _ _ => rfl

def halfSecond : Fraction := ⟨"5".toList, List.all_eq_true.mp (by decide)⟩

def noFraction : Fraction := ⟨[], List.forall_mem_nil _⟩

/-- Half past eleven on the last evening of 9999. -/
def lastEvening : Moment nineDigits :=
  ⟨⟨"9999-12-31".toList, 2921939, by decide, isDate_of_all (by decide), by decide +kernel⟩, .space, ⟨84600, by decide⟩⟩

theorem morning_parses :
    parseTrinoTimestamptz nineDigits "2026-06-01 10:30:00.5 +02:00".toList =
      some ((summerMorningStamp.naive halfSecond).shift (-7200)) := by
  have htext : "2026-06-01 10:30:00.5 +02:00".toList =
      summerMorningStamp.text ++ (halfSecond.text ++ Offset.text ⟨120, by decide⟩ true) := by decide +kernel
  rw [htext]
  exact (parseTimestamptz_offset nineDigits_reads summerMorningStamp halfSecond true ⟨120, by decide⟩).1 (by decide +kernel)

theorem evening_parses :
    parseTrinoTimestamptz nineDigits "9999-12-31 23:30:00 -05:00".toList =
      some ((lastEvening.naive noFraction).shift 18000) := by
  have htext : "9999-12-31 23:30:00 -05:00".toList =
      lastEvening.text ++ (noFraction.text ++ Offset.text ⟨-300, by decide⟩ true) := by decide +kernel
  rw [htext]
  exact (parseTimestamptz_offset nineDigits_reads lastEvening noFraction true ⟨-300, by decide⟩).1 (by decide +kernel)

theorem june_morning_form : ∃ text,
    textValue nineDigitCrates (.string "2026-06-01 10:30:00.5 +02:00".toList) .timestamptz [] = some text ∧
      PgForm 2026 text := by
  obtain ⟨htext, hform⟩ := pg_text_iff nineDigitCrates nineDigits_prints [] morning_parses (by decide +kernel)
  have hyear : ((summerMorningStamp.naive halfSecond).shift (-7200)).year = 2026 := by decide +kernel
  rw [hyear] at hform
  exact ⟨_, htext, hform.mpr ⟨by decide, by decide⟩⟩

/-- The first hours of the year 10000 in UTC. -/
theorem last_evening_signed : ∃ dt,
    parseTrinoTimestamptz nineDigits "9999-12-31 23:30:00 -05:00".toList = some dt ∧ dt.time.nanos < 10 ^ 9 ∧
      renderTimestamptzText nineDigits dt = "+10000-01-01 04:30:00+00".toList ∧
      ¬ PgForm dt.year (renderTimestamptzText nineDigits dt) := by
  refine ⟨_, evening_parses, by decide +kernel, by decide +kernel, ?_⟩
  exact render_not_signed nineDigits_prints (by decide +kernel) (by decide +kernel)

end TrinoGateway.Types
