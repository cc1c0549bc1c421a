/-
  TrinoGateway.Types.Timestamptz — `timestamp with time zone` columns on both paths of
  `src/types.rs` (`parse_trino_timestamptz`, `render_timestamptz_text`).

  A `Stamp` is a date and time of microsecond resolution on some clock. Trino renders the
  local stamp of an instant with its zone, an offset in whole minutes or a name
  (`Renders`: either separator, a space before the offset or none, zero to six fraction
  digits, white space around). What `chrono` does with such texts is `Documented`: it reads
  the stamps of four-digit years as it documents, resolves a local time if and only if one
  instant has it, and prints a date and time.

  Proved: `timestamptz_exact`. A fixed offset and an unambiguous local time come out as
  the instant in both formats, and an ambiguous or skipped local time is refused in binary
  and passed through in text.
-/

import TrinoGateway.Types.Moment

namespace TrinoGateway.Types

open TrinoGateway.Lib

/-! ## Instants, zones and their renderings -/

/-- Seconds and microseconds after 2000-01-01 00:00 on some clock. -/
structure Stamp where
  seconds : ℤ
  micros : ℕ
  micros_lt : micros < 10 ^ 6

def Stamp.naive (l : Stamp) : NaiveDateTime := ofSeconds l.seconds (1000 * l.micros) (by have := l.micros_lt; omega)

/-- The stamp `t` microseconds after 2000-01-01 00:00. -/
def Stamp.ofMicros (t : ℤ) : Stamp := ⟨t / 10 ^ 6, (t % 10 ^ 6).toNat, by omega⟩

def Stamp.FourDigit (l : Stamp) : Prop :=
  0 ≤ (civilFromDays (l.seconds / 86400)).year ∧ (civilFromDays (l.seconds / 86400)).year ≤ 9999

/-- `p` fraction digits hold the microseconds. -/
def Stamp.Digits (l : Stamp) (p : ℕ) : Prop := p ≤ 6 ∧ 10 ^ (6 - p) ∣ l.micros

/-- Date, separator, time of day and fraction. -/
def stampText (sep : Separator) (l : Stamp) (p : ℕ) : Text :=
  dateText (l.seconds / 86400) ++ sep.char :: clockText (l.seconds % 86400).toNat ++ fractionText p l.micros

inductive Zone where
  | fixed (minutes : ℤ) (h : minutes.natAbs < 1440)
  | named (name : Text) (tz : Tz)

def Zone.offsetAt : Zone → ℤ → ℤ
  | .fixed minutes _, _ => 60 * minutes
  | .named _ tz, s => tz.offsetAt s

/-- The local stamp of the instant `t` microseconds after 2000-01-01 00:00 UTC. -/
def Zone.localStamp (z : Zone) (t : ℤ) : Stamp :=
  let utc := Stamp.ofMicros t
  ⟨utc.seconds + z.offsetAt utc.seconds, utc.micros, utc.micros_lt⟩

/-- Exactly one second has the local time. -/
def Zone.Unambiguous (z : Zone) (l : Stamp) : Prop := ∃! s : ℤ, s + z.offsetAt s = l.seconds

/-- The texts Trino writes for a local stamp and its zone. -/
inductive Renders (C : Chrono) (l : Stamp) : Zone → Text → Prop
  | offset (minutes : ℤ) (h : minutes.natAbs < 1440) (sep : Separator) (spaced : Bool) {p : ℕ} {w w' : Text} :
      l.Digits p → Blank w → Blank w' →
      Renders C l (.fixed minutes h) (w ++ (stampText sep l p ++ (gap spaced ++ offsetText minutes)) ++ w')
  | named (name : Text) (tz : Tz) (sep : Separator) {p : ℕ} {w w' : Text} :
      C.parseZone name = some tz → l.Digits p → Blank w → Blank w' →
      Renders C l (.named name tz) (w ++ (stampText sep l p ++ ' ' :: name) ++ w')

/-! ## What chrono documents -/

def Stamp.localText (l : Stamp) (sep : Separator) (p : ℕ) : LocalText := ⟨stampText sep l p, sep, l.naive⟩

/-- A stamp of a four-digit year. -/
def IsStamp (w : LocalText) : Prop := ∃ l sep p, Stamp.FourDigit l ∧ l.Digits p ∧ l.localText sep p = w

structure Documented (C : Chrono) : Prop extends ReadsLocal C IsStamp where
  format : ∀ l : Stamp, C.formatDateTime l.naive =
    dateText (l.seconds / 86400) ++ ' ' :: clockText (l.seconds % 86400).toNat

/-! ## Stamps -/

theorem ofSeconds_seconds (n : ℤ) (nanos : ℕ) (h : nanos < 2000000000) : (ofSeconds n nanos h).seconds = n := by
  simp only [NaiveDateTime.seconds, ofSeconds]
  omega

theorem Stamp.naive_seconds (l : Stamp) : l.naive.seconds = l.seconds := ofSeconds_seconds _ _ _

theorem Stamp.naive_shift (l : Stamp) (d : ℤ) : l.naive.shift d = Stamp.naive ⟨l.seconds + d, l.micros, l.micros_lt⟩ := by
  rw [NaiveDateTime.shift, l.naive_seconds]
  rfl

theorem Stamp.naive_numMicroseconds (l : Stamp) : l.naive.numMicroseconds = 10 ^ 6 * l.seconds + l.micros := by
  have hn : (l.naive.time.nanos : ℤ) = 1000 * l.micros := by
    show ((1000 * l.micros : ℕ) : ℤ) = _
    push_cast
    rfl
  have e : l.seconds * 1000000000 + 1000 * (l.micros : ℤ) = 1000 * (10 ^ 6 * l.seconds + l.micros) := by ring
  rw [NaiveDateTime.numMicroseconds, l.naive_seconds, hn, e]
  exact Int.mul_tdiv_cancel_left _ (by decide)

/-- The first ten thousand years are within three million days of 2000. -/
theorem Stamp.FourDigit.bounds {l : Stamp} (h : l.FourDigit) : -10 ^ 12 < l.seconds ∧ l.seconds < 10 ^ 12 := by
  obtain ⟨h1, h2⟩ := h
  have hd := daysFromCivil_civilFromDays (l.seconds / 86400)
  obtain ⟨hm1, hm2, hd1, hd2⟩ := civilFromDays_bounds (l.seconds / 86400)
  generalize civilFromDays (l.seconds / 86400) = c at *
  have hdays : -3000000 < l.seconds / 86400 ∧ l.seconds / 86400 < 3000000 := by
    rw [← hd]
    simp only [daysFromCivil]
    split_ifs <;> omega
  omega

theorem Stamp.FourDigit.inRange {l : Stamp} (h : l.FourDigit) {s : ℤ} (hs : -86400 < l.seconds - s ∧ l.seconds - s < 86400) :
    InRange s := by
  have hmin : minSecond ≤ -10 ^ 12 - 86400 := by decide
  have hmax : 10 ^ 12 + 86400 ≤ maxSecond := by decide
  have hb := h.bounds
  unfold InRange
  omega

/-! ## The texts -/

/-- The fraction of a stamp has at most six digits and counts its microseconds. -/
theorem fractionText_fraction {p micros : ℕ} (hp : p ≤ 6) (hdvd : 10 ^ (6 - p) ∣ micros) (hmicros : micros < 10 ^ 6) :
    ∃ f : Fraction, fractionText p micros = f.text ∧ f.digits.length ≤ 6 ∧ f.units 6 = micros := by
  by_cases h0 : p = 0
  · refine ⟨⟨[], fun c hc => absurd hc List.not_mem_nil⟩, ?_, Nat.zero_le 6, ?_⟩
    · rw [fractionText, if_pos h0, Fraction.text, if_pos rfl]
    · rw [h0] at hdvd
      exact (Nat.eq_zero_of_dvd_of_lt hdvd hmicros).symm
  · have hlen : (pad p (micros / 10 ^ (6 - p))).length = p := by
      refine pad_length (by omega) (Nat.div_lt_of_lt_mul ?_)
      rw [← pow_add, Nat.sub_add_cancel hp]
      exact hmicros
    refine ⟨⟨pad p (micros / 10 ^ (6 - p)), fun c hc => pad_isDigit hc⟩, ?_, by rw [hlen]; exact hp, ?_⟩
    · have hne : pad p (micros / 10 ^ (6 - p)) ≠ [] := by
        intro hnil
        rw [hnil] at hlen
        exact h0 hlen.symm
      rw [fractionText, if_neg h0, Fraction.text, if_neg hne]
    · show units 6 (pad p (micros / 10 ^ (6 - p))) = micros
      rw [units_eq_ofDigitChars (by omega), ofDigitChars_pad, hlen, Nat.div_mul_cancel hdvd]

section
variable {l : Stamp} {p : ℕ} (sep : Separator)

/-- Six fraction digits are nothing to shorten. -/
theorem truncateFraction_stamp (hp : l.Digits p) {r : Text} (hr : Suffix r) :
    truncateFraction (stampText sep l p ++ r) = stampText sep l p ++ r := by
  have hfront : '.' ∉ dateText (l.seconds / 86400) ++ sep.char :: clockText (l.seconds % 86400).toNat := by
    intro h
    simp only [List.mem_append, List.mem_cons] at h
    rcases h with h | h | h
    · rcases dateText_mem h with h | h | h <;> exact absurd h (by decide)
    · cases sep <;> exact absurd h (by decide)
    · rcases clockText_mem h with h | h <;> exact absurd h (by decide)
  obtain ⟨f, htext, hlen, -⟩ := fractionText_fraction hp.1 hp.2 l.micros_lt
  have hcut : f.take 9 = f := f.take_of_length_le (by omega)
  have htrunc := truncateFraction_fraction hfront f hr
  rw [hcut, ← htext, ← List.append_assoc] at htrunc
  exact htrunc

theorem dateText_solid {days : ℤ} {c : Char} (h : c ∈ dateText days) : isWhitespace c = false := by
  rcases dateText_mem h with h | rfl | rfl
  · exact isDigit_solid h
  · decide
  · decide

/-- A stamp, and a stamp with a zone, has no white space at its ends. -/
theorem stampText_solid : Solid (stampText sep l p) := by
  have hb : ∀ c ∈ clockText (l.seconds % 86400).toNat ++ fractionText p l.micros, isWhitespace c = false := by
    intro c hc
    rcases List.mem_append.mp hc with hc | hc
    · rcases clockText_mem hc with h | rfl
      · exact isDigit_solid h
      · decide
    · rcases fractionText_mem hc with h | rfl
      · exact isDigit_solid h
      · decide
  have := solid_of_ends (m := [sep.char]) (dateText_ne_nil (l.seconds / 86400))
    (by simp [clockText_ne_nil] : clockText (l.seconds % 86400).toNat ++ fractionText p l.micros ≠ [])
    (fun c hc => dateText_solid hc) hb
  simpa [stampText] using this

theorem stampText_append_solid {m b : Text} (hb : b ≠ []) (hw : ∀ c ∈ b, isWhitespace c = false) :
    Solid (stampText sep l p ++ (m ++ b)) := by
  have := solid_of_ends (m := sep.char :: clockText (l.seconds % 86400).toNat ++ fractionText p l.micros ++ m)
    (dateText_ne_nil (l.seconds / 86400)) hb (fun c hc => dateText_solid hc) hw
  simpa [stampText] using this
end

/-! ## What the code finds in them -/

section
variable {C : Chrono} (hC : Documented C) {l : Stamp} (hy : l.FourDigit) {p : ℕ} (hp : l.Digits p) {w w' : Text}
  (hw : Blank w) (hw' : Blank w')
include hC hy hp hw hw'

theorem parse_offset (sep : Separator) (spaced : Bool) {minutes : ℤ} (hm : minutes.natAbs < 1440) :
    parseTrinoTimestamptz C (w ++ (stampText sep l p ++ (gap spaced ++ offsetText minutes)) ++ w') =
      some (Stamp.naive ⟨l.seconds - 60 * minutes, l.micros, l.micros_lt⟩) := by
  have hsolid : Solid (stampText sep l p ++ (gap spaced ++ offsetText minutes)) :=
    stampText_append_solid sep (by simp [offsetText]) fun c hc => offsetText_solid hc
  have htext : truncateFraction (trim (w ++ (stampText sep l p ++ (gap spaced ++ offsetText minutes)) ++ w')) =
      (l.localText sep p).text ++ Offset.text ⟨minutes, hm⟩ spaced := by
    rw [trim_surrounded hw hsolid hw', truncateFraction_stamp sep hp (suffix_offset spaced minutes)]
    rfl
  have hrange : InRange ((l.localText sep p).naive.seconds - Offset.seconds ⟨minutes, hm⟩) := by
    show InRange (l.naive.seconds - 60 * minutes)
    rw [l.naive_seconds]
    exact hy.inRange (by omega)
  rw [(hC.parse_offset ⟨l, sep, p, hy, hp, rfl⟩ htext).1 hrange, sub_eq_add_neg]
  exact congrArg some (l.naive_shift _)

theorem parse_named (sep : Separator) {name : Text} {tz : Tz} (hz : C.parseZone name = some tz) :
    parseTrinoTimestamptz C (w ++ (stampText sep l p ++ ' ' :: name) ++ w') = C.single tz l.naive := by
  obtain ⟨hne, hchars⟩ := hC.zone_name hz
  have hsolid : Solid (stampText sep l p ++ ' ' :: name) := by
    have := stampText_append_solid (l := l) (p := p) sep (m := [' ']) hne fun c hc => (isZoneChar_solid (hchars c hc)).1
    simpa using this
  have hcut : truncateFraction (l.localText sep p).text = (l.localText sep p).text := by
    have htr := truncateFraction_stamp (l := l) sep hp suffix_nil
    rwa [List.append_nil] at htr
  refine hC.parse_named ⟨l, sep, p, hy, hp, rfl⟩ hz hcut (stampText_solid sep) ?_
  rw [trim_surrounded hw hsolid hw', truncateFraction_stamp sep hp (suffix_zone hchars)]
  rfl

omit hw hw' in
/-- The range of instants is no matter with four-digit years. -/
theorem single_stamp (sep : Separator) (tz : Tz) {utc : NaiveDateTime} : C.single tz l.naive = some utc ↔
    ∃ s, utc = Stamp.naive ⟨s, l.micros, l.micros_lt⟩ ∧ ∀ s', s' + tz.offsetAt s' = l.seconds ↔ s' = s := by
  have hsingle : C.single tz l.naive = some utc ↔
      ∃ s, utc = l.naive.withSeconds s ∧ InRange s ∧ ∀ s', s' + tz.offsetAt s' = l.naive.seconds ↔ s' = s :=
    hC.single tz (w := l.localText sep p) ⟨l, sep, p, hy, hp, rfl⟩
  rw [hsingle, l.naive_seconds]
  constructor
  · rintro ⟨s, hutc, -, huniq⟩
    exact ⟨s, hutc, huniq⟩
  · rintro ⟨s, hutc, huniq⟩
    have hs := (huniq s).mpr rfl
    have hbounded := tz.bounded s
    exact ⟨s, hutc, hy.inRange (by omega), huniq⟩
end

/-! ## Reading the text back -/

/-- A UTC timestamp with an optionally signed year, in microseconds after 2000-01-01. -/
def readUtcTimestamp (s : Text) : Option ℤ := do
  let (date, s) ← readDate s
  let s ← expect ' ' s
  let (clock, s) ← readClock s
  let (micros, s) := readMicros s
  if s = "+00".toList then some (10 ^ 6 * (86400 * daysFromCivil date + clock) + micros) else none

theorem afterFraction_utc : AfterFraction "+00".toList := by
  intro c hc
  rw [← Option.some.inj hc]
  decide

/-- The printed fraction holds the microseconds. -/
theorem readMicros_formatFraction {u : ℕ} (hu : u < 10 ^ 6) {r : Text} (hr : AfterFraction r) :
    readMicros (formatFraction (1000 * u) ++ r) = (u, r) := by
  have hmin : min (1000 * u / 1000) 999999 = u := by omega
  simp only [formatFraction, hmin]
  split_ifs with h0
  · rw [h0]; exact readMicros_nil hr
  · obtain ⟨k, hk⟩ := trimZeros_append (pad 6 u)
    have hdig : ∀ c ∈ trimZeros (pad 6 u), c.isDigit = true := fun c hc =>
      pad_isDigit ((List.rdropWhile_prefix _ _).subset hc)
    have hlen : (trimZeros (pad 6 u)).length + k = 6 := by
      have := congrArg List.length hk
      rw [pad_length (by decide) hu, List.length_append, List.length_replicate] at this
      exact this.symm
    have hval : Nat.ofDigitChars 10 (trimZeros (pad 6 u)) 0 * 10 ^ k = u := by
      have := ofDigitChars_pad 6 u
      rw [hk, Nat.ofDigitChars_append, Nat.ofDigitChars_replicate_zero] at this
      rw [mul_comm]
      exact this
    rw [trimZeros_point, List.cons_append, readMicros_digits hdig hr]
    have hk6 : 6 - (trimZeros (pad 6 u)).length = k := by omega
    rw [hk6, hval]

theorem readUtcTimestamp_render {C : Chrono} (hC : Documented C) (l : Stamp) :
    readUtcTimestamp (renderTimestamptzText C l.naive) = some (10 ^ 6 * l.seconds + l.micros) := by
  have hsecs : (l.seconds % 86400).toNat < 86400 := by omega
  have hsum : 86400 * (l.seconds / 86400) + ((l.seconds % 86400).toNat : ℤ) = l.seconds := by omega
  have hn : l.naive.time.nanos = 1000 * l.micros := rfl
  have htext : renderTimestamptzText C l.naive = dateText (l.seconds / 86400) ++
      (' ' :: (clockText (l.seconds % 86400).toNat ++ (formatFraction (1000 * l.micros) ++ "+00".toList))) := by
    rw [renderTimestamptzText, hC.format, hn]
    simp
  rw [htext, readUtcTimestamp]
  simp only [readDate_dateText, expect_cons, readClock_clockText hsecs, readMicros_formatFraction l.micros_lt afterFraction_utc,
    Option.bind_eq_bind, Option.bind_some, if_true, daysFromCivil_civilFromDays, hsum]

/-! ## Both formats -/

theorem ofMicros_eq (t : ℤ) : 10 ^ 6 * (Stamp.ofMicros t).seconds + (Stamp.ofMicros t).micros = t := by
  simp only [Stamp.ofMicros]
  omega

section
variable {X : Crates} {text : Text}

theorem encodeCell_of_parse (ty : Text) {utc : NaiveDateTime} (h : parseTrinoTimestamptz X.chrono text = some utc) :
    encodeCell X (.string text) .timestamptz ty .binary = .ok (.bytes (putInt 8 utc.numMicroseconds)) ∧
    encodeCell X (.string text) .timestamptz ty .text = .ok (.text (renderTimestamptzText X.chrono utc)) := by
  constructor
  · simp only [encodeCell, encodeBinaryCell, jsonToTimestamptz, Value.asStr, Option.bind_some, h]
    rfl
  · simp only [encodeCell, textValue, Value.asStr, Option.bind_some, h, if_true]
    rfl

theorem encodeCell_of_no_parse (ty : Text) (h : parseTrinoTimestamptz X.chrono text = none) :
    encodeCell X (.string text) .timestamptz ty .binary = .error (conversionError "timestamptz" ty) ∧
    encodeCell X (.string text) .timestamptz ty .text = .ok (.text text) := by
  constructor
  · simp only [encodeCell, encodeBinaryCell, jsonToTimestamptz, Value.asStr, Option.bind_some, h]
    rfl
  · simp only [encodeCell, textValue, Value.asStr, Option.bind_some, h, if_true]
    rfl
end

/-- A rendering of an instant whose local time only it has is parsed to the instant. -/
theorem parse_rendering {C : Chrono} (hC : Documented C) {z : Zone} {t : ℤ} {text : Text}
    (hy : (z.localStamp t).FourDigit) (hr : Renders C (z.localStamp t) z text) (hu : z.Unambiguous (z.localStamp t)) :
    parseTrinoTimestamptz C text = some (Stamp.ofMicros t).naive := by
  cases hr with
  | offset minutes h sep spaced hp hw hw' =>
    rw [parse_offset hC hy hp hw hw' sep spaced h]
    congr 2
    simp only [Zone.localStamp, Zone.offsetAt, Stamp.ofMicros, Stamp.mk.injEq, and_true]
    omega
  | named name tz sep hz hp hw hw' =>
    rw [parse_named hC hy hp hw hw' sep hz, single_stamp hC hy hp sep]
    refine ⟨(Stamp.ofMicros t).seconds, rfl, fun s' => ⟨fun hs => ?_, ?_⟩⟩
    · exact hu.unique hs rfl
    · rintro rfl; rfl

theorem Zone.fixed_unambiguous (minutes : ℤ) (h : minutes.natAbs < 1440) (l : Stamp) :
    (Zone.fixed minutes h).Unambiguous l := by
  refine ⟨l.seconds - 60 * minutes, ?_, fun s hs => ?_⟩
  · simp [Zone.offsetAt]
  · simp only [Zone.offsetAt] at hs
    omega

theorem Zone.offsetAt_bounded (z : Zone) (s : ℤ) : -86400 < z.offsetAt s ∧ z.offsetAt s < 86400 := by
  cases z with
  | fixed minutes h => simp only [Zone.offsetAt]; omega
  | named _ tz => exact tz.bounded s

/-- The instant of a local time with a four-digit year fits the wire. -/
theorem instant_fits {z : Zone} {t : ℤ} (hy : (z.localStamp t).FourDigit) : -256 ^ 8 ≤ 2 * t ∧ 2 * t < 256 ^ 8 := by
  have hb := hy.bounds
  have ho := z.offsetAt_bounded (Stamp.ofMicros t).seconds
  simp only [Zone.localStamp, Stamp.ofMicros] at hb ho
  omega

/-- Both formats carry the instant of every rendering of a local time that only it has;
    of any other local time the binary format is refused and the text is passed on. -/
theorem timestamptz_exact (X : Crates) (hC : Documented X.chrono) (ty : Text) :
    (∀ (t : ℤ) (z : Zone) (text : Text), (z.localStamp t).FourDigit → Renders X.chrono (z.localStamp t) z text →
      (∃ minutes h, z = .fixed minutes h) ∨ z.Unambiguous (z.localStamp t) →
      (∃ bs, encodeCell X (.string text) .timestamptz ty .binary = .ok (.bytes bs) ∧ bs.length = 8 ∧ readSigned bs = t) ∧
      ∃ out, encodeCell X (.string text) .timestamptz ty .text = .ok (.text out) ∧ readUtcTimestamp out = some t) ∧
    ∀ (l : Stamp) (name : Text) (tz : Tz) (text : Text), l.FourDigit → Renders X.chrono l (.named name tz) text →
      ¬ (Zone.named name tz).Unambiguous l →
      (∃ e, encodeCell X (.string text) .timestamptz ty .binary = .error e) ∧
      encodeCell X (.string text) .timestamptz ty .text = .ok (.text text) := by
  constructor
  · intro t z text hy hr hu
    have hunamb : z.Unambiguous (z.localStamp t) := by
      rcases hu with ⟨minutes, h, rfl⟩ | hu
      · exact Zone.fixed_unambiguous minutes h _
      · exact hu
    obtain ⟨hbin, htext⟩ := encodeCell_of_parse ty (parse_rendering hC hy hr hunamb)
    rw [Stamp.naive_numMicroseconds, ofMicros_eq] at hbin
    have hfit := instant_fits hy
    refine ⟨⟨_, hbin, putInt_length _ _, readSigned_putInt hfit.1 hfit.2⟩, _, htext, ?_⟩
    rw [readUtcTimestamp_render hC, ofMicros_eq]
  · intro l name tz text hy hr hu
    have hnone : parseTrinoTimestamptz X.chrono text = none := by
      cases hr with
      | named _ _ sep hz hp hw hw' =>
        rw [parse_named hC hy hp hw hw' sep hz]
        cases hs : X.chrono.single tz l.naive with
        | none => rfl
        | some utc =>
          obtain ⟨s, -, huniq⟩ := (single_stamp hC hy hp sep tz).mp hs
          exact absurd ⟨s, (huniq s).mpr rfl, fun s' h => (huniq s').mp h⟩ hu
    obtain ⟨hbin, htext⟩ := encodeCell_of_no_parse ty hnone
    exact ⟨⟨_, hbin⟩, htext⟩

/-! ## A chrono with two zones -/

/-- The stamps are moments to a chrono that reads all dates. -/
theorem stamp_isMoment {l : Stamp} {p : ℕ} (hp : l.Digits p) (sep : Separator) : IsMoment nineDigits (l.localText sep p) := by
  obtain ⟨f, htext, hlen, hunits⟩ := fractionText_fraction hp.1 hp.2 l.micros_lt
  have hdate : nineDigits.parseDate (dateText (l.seconds / 86400)) = some (l.seconds / 86400) := by
    have hread := readDate_dateText (l.seconds / 86400) []
    rw [List.append_nil] at hread
    show (readDate _).bind _ = _
    rw [hread, Option.bind_some, if_pos rfl, daysFromCivil_civilFromDays]
  let m : Moment nineDigits := ⟨⟨dateText (l.seconds / 86400), l.seconds / 86400, dateText_ne_nil _,
    fun _ hc => dateText_mem hc, hdate⟩, sep, ⟨(l.seconds % 86400).toNat, by omega⟩⟩
  refine ⟨m, f, by omega, ?_⟩
  have hnanos : f.units 9 = 1000 * l.micros := by
    have h : f.units 9 = l.micros * 10 ^ 3 := by
      rw [← hunits, ← f.units_take_add 6 3, f.take_of_length_le hlen]
    omega
  have hnaive : m.naive f = l.naive := by
    simp only [Moment.naive, Clock.time, Stamp.naive, ofSeconds, hnanos, m]
  show (⟨m.text ++ f.text, sep, m.naive f⟩ : LocalText) = ⟨stampText sep l p, sep, l.naive⟩
  rw [hnaive, ← htext]
  rfl

theorem nineDigits_documented : Documented nineDigits := by
  refine ⟨nineDigits_reads.toReadsLocal.mono ?_, fun _ => rfl⟩
  rintro _ ⟨l, sep, p, -, hp, rfl⟩
  exact stamp_isMoment hp sep

/-- Half past ten on a summer morning. -/
def summerMorning : Stamp := (Zone.fixed 120 (by decide)).localStamp 833617800500000

/-- Half past two in the night in which the clocks go back. -/
def clocksBack : Stamp := ⟨846210600, 0, by decide⟩

theorem summerMorning_renders :
    Renders nineDigits summerMorning (.fixed 120 (by decide)) "2026-06-01T10:30:00.5+02:00".toList := by
  have e : "2026-06-01T10:30:00.5+02:00".toList =
      [] ++ (stampText .t summerMorning 1 ++ (gap false ++ offsetText 120)) ++ [] := by decide
  rw [e]
  exact .offset 120 _ .t false ⟨by decide, by decide⟩ (List.forall_mem_nil _) (List.forall_mem_nil _)

theorem clocksBack_renders : Renders nineDigits clocksBack (.named "Europe/Berlin".toList berlinZone)
    "2026-10-25 02:30:00 Europe/Berlin".toList := by
  have e : "2026-10-25 02:30:00 Europe/Berlin".toList =
      [] ++ (stampText .space clocksBack 0 ++ ' ' :: "Europe/Berlin".toList) ++ [] := by decide
  rw [e]
  exact .named _ _ .space rfl ⟨by decide, by decide⟩ (List.forall_mem_nil _) (List.forall_mem_nil _)

theorem clocksBack_ambiguous : ¬ (Zone.named "Europe/Berlin".toList berlinZone).Unambiguous clocksBack := by
  rintro ⟨s, -, huniq⟩
  have h1 : 846203400 = s := huniq _ (by decide)
  have h2 : 846207000 = s := huniq _ (by decide)
  omega

theorem timestamptz_exact_two_zones :
    (∃ out, encodeCell nineDigitCrates (.string "2026-06-01T10:30:00.5+02:00".toList) .timestamptz [] .text =
      .ok (.text out) ∧ readUtcTimestamp out = some 833617800500000) ∧
    ∃ e, encodeCell nineDigitCrates (.string "2026-10-25 02:30:00 Europe/Berlin".toList) .timestamptz [] .binary =
      .error e := by
  obtain ⟨hexact, hrefused⟩ := timestamptz_exact nineDigitCrates nineDigits_documented []
  have hmorning := hexact _ _ _ ⟨by decide, by decide⟩ summerMorning_renders (Or.inl ⟨_, _, rfl⟩)
  have hback := hrefused _ _ _ _ ⟨by decide, by decide⟩ clocksBack_renders clocksBack_ambiguous
  exact ⟨hmorning.2, hback.1⟩

end TrinoGateway.Types
