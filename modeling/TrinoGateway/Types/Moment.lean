/-
  TrinoGateway.Types.Moment — dates and times with a fraction of any length, as Trino writes
  them, and what the parsers of `src/types.rs` find in them.

  A `Moment` is a date in a text `chrono` accepts, a separator and a time of day; a time
  zone is an offset in whole minutes or a name. `chrono` reads at most nine fraction digits,
  so `truncate_fraction` comes first (`truncateFraction_fraction`). What `chrono` does with
  local times in texts of some form, alone and with a zone behind them, is `ReadsLocal`: the
  formats it documents, its range of instants, and local times resolved if and only if one
  instant has them. `ReadsFractions` asks it of all moments.

  The code tries four formats with an offset and then cuts a zone off at the last space;
  `ReadsLocal.parse_offset` and `ReadsLocal.parse_named` say what that finds in a text that
  is trimmed and cut. `parseTime_text`, `parseNaive_text`, `parseTimetz_text`,
  `parseTimestamptz_offset` and `parseTimestamptz_named` say it of the texts of moments: the
  value with its first nine fraction digits.
-/

import TrinoGateway.Lib.Fraction
import TrinoGateway.Lib.IsoTime
import TrinoGateway.Types.Integers

namespace TrinoGateway.Types

open TrinoGateway.Lib

/-! ## Values and their texts -/

/-- `+02:00` -/
def offsetText (minutes : ℤ) : Text :=
  (if minutes < 0 then '-' else '+') :: pad 2 (minutes.natAbs / 60) ++ ':' :: pad 2 (minutes.natAbs % 60)

def gap (spaced : Bool) : Text := if spaced then [' '] else []

/-- A time of day with seconds 00 to 59. -/
structure Clock where
  secs : ℕ
  secs_lt : secs < 86400

def Clock.text (t : Clock) : Text := clockText t.secs

def Clock.time (t : Clock) (f : Fraction) : NaiveTime :=
  ⟨t.secs, f.units 9, t.secs_lt, (f.units_lt 9).trans (by decide)⟩

/-- An offset in whole minutes, less than a day. -/
structure Offset where
  minutes : ℤ
  minutes_lt : minutes.natAbs < 1440

def Offset.text (o : Offset) (spaced : Bool) : Text := gap spaced ++ offsetText o.minutes

def Offset.seconds (o : Offset) : ℤ := 60 * o.minutes

/-- A date, in a text of digits and signs that `chrono` accepts. -/
structure Day (C : Chrono) where
  text : Text
  days : ℤ
  nonempty : text ≠ []
  chars : ∀ c ∈ text, c.isDigit = true ∨ c = '-' ∨ c = '+'
  parsed : C.parseDate text = some days

structure Moment (C : Chrono) where
  day : Day C
  sep : Separator
  clock : Clock

variable {C : Chrono}

def Moment.text (m : Moment C) : Text := m.day.text ++ m.sep.char :: m.clock.text

def Moment.naive (m : Moment C) (f : Fraction) : NaiveDateTime := ⟨m.day.days, m.clock.time f⟩

/-- Whole seconds from 2000-01-01 00:00 on the clock of the moment. -/
def Moment.seconds (m : Moment C) : ℤ := 86400 * m.day.days + m.clock.secs

/-! ## What chrono documents -/

/-- The first and the last second of `DateTime<Utc>`. -/
def minSecond : ℤ := 86400 * daysFromCivil ⟨-262143, 1, 1⟩

def maxSecond : ℤ := 86400 * daysFromCivil ⟨262142, 12, 31⟩ + 86399

def InRange (s : ℤ) : Prop := minSecond ≤ s ∧ s ≤ maxSecond

/-- The characters of the names in the time zone database. -/
def isZoneChar (c : Char) : Bool := c.isAlphanum || c == '/' || c == '_' || c == '+' || c == '-'

/-- A local date and time, with a text and the separator in it. -/
structure LocalText where
  text : Text
  sep : Separator
  naive : NaiveDateTime

/-- What the formats with a date read in the texts of `S`, and how their local times are resolved. -/
structure ReadsLocal (C : Chrono) (S : LocalText → Prop) : Prop where
  naive : ∀ {w : LocalText}, S w → C.parseNaive w.sep w.text = some w.naive
  /-- A format that reads a text of another one's shape reads the same. -/
  naive_sound : ∀ {w : LocalText} (sep : Separator) {r : NaiveDateTime}, S w → C.parseNaive sep w.text = some r → r = w.naive
  dateTime : ∀ {w : LocalText} (spaced : Bool) (o : Offset), S w → InRange (w.naive.seconds - o.seconds) →
    C.parseDateTime w.sep spaced (w.text ++ o.text spaced) = some (w.naive, o.seconds)
  dateTime_sound : ∀ {w : LocalText} (spaced spaced' : Bool) (sep : Separator) (o : Offset) {r : NaiveDateTime × ℤ}, S w →
    C.parseDateTime sep spaced' (w.text ++ o.text spaced) = some r →
    InRange (w.naive.seconds - o.seconds) ∧ r = (w.naive, o.seconds)
  zone_name : ∀ {name : Text} {tz : Tz}, C.parseZone name = some tz → name ≠ [] ∧ ∀ c ∈ name, isZoneChar c = true
  /-- A zone name that reads as an offset (`UTC` may) is a zone with that offset. -/
  zone_offset : ∀ {w : LocalText} {name : Text} {tz : Tz} (sep : Separator) (spaced : Bool) {dt : NaiveDateTime} {offset : ℤ},
    S w → C.parseZone name = some tz → C.parseDateTime sep spaced (w.text ++ ' ' :: name) = some (dt, offset) →
    dt = w.naive ∧ C.single tz dt = some (dt.shift (-offset))
  /-- `single` finds the instant if and only if exactly one has the local time. -/
  single : ∀ {w : LocalText} (tz : Tz) {utc : NaiveDateTime}, S w → (C.single tz w.naive = some utc ↔
    ∃ s, utc = w.naive.withSeconds s ∧ InRange s ∧ ∀ s', s' + tz.offsetAt s' = w.naive.seconds ↔ s' = s)

theorem ReadsLocal.mono {S S' : LocalText → Prop} (h : ReadsLocal C S) (hsub : ∀ w, S' w → S w) : ReadsLocal C S' where
  naive hw := h.naive (hsub _ hw)
  naive_sound sep _ hw := h.naive_sound sep (hsub _ hw)
  dateTime spaced o hw := h.dateTime spaced o (hsub _ hw)
  dateTime_sound spaced spaced' sep o _ hw := h.dateTime_sound spaced spaced' sep o (hsub _ hw)
  zone_name := h.zone_name
  zone_offset sep spaced _ _ hw := h.zone_offset sep spaced (hsub _ hw)
  single tz _ hw := h.single tz (hsub _ hw)

def Moment.localText (m : Moment C) (f : Fraction) : LocalText := ⟨m.text ++ f.text, m.sep, m.naive f⟩

/-- A moment with at most nine fraction digits. -/
def IsMoment (C : Chrono) (w : LocalText) : Prop := ∃ (m : Moment C) (f : Fraction), f.digits.length ≤ 9 ∧ m.localText f = w

def epochText : Text := "2000-01-01".toList

structure ReadsFractions (C : Chrono) : Prop extends ReadsLocal C (IsMoment C) where
  epoch : C.parseDate epochText = some 0
  time : ∀ (t : Clock) {f : Fraction}, f.digits.length ≤ 9 → C.parseTime (t.text ++ f.text) = some (t.time f)
  formatTime : ∀ (t : Clock) (f : Fraction), C.formatTime (t.time f) = t.text

/-! ## The texts -/

/-- What can follow the stamp: nothing of a fraction, and no point. -/
structure Suffix (r : Text) : Prop where
  head : ∀ c ∈ r.head?, c.isDigit = false
  point : '.' ∉ r

theorem suffix_nil : Suffix [] := ⟨by simp, by simp⟩

theorem suffix_offset (spaced : Bool) (minutes : ℤ) : Suffix (gap spaced ++ offsetText minutes) := by
  have hpoint : '.' ∉ offsetText minutes := by
    intro h
    simp only [offsetText, List.mem_append, List.mem_cons] at h
    rcases h with (h | h) | h | h
    · split_ifs at h <;> exact absurd h (by decide)
    · exact absurd (pad_isDigit h) (by decide)
    · exact absurd h (by decide)
    · exact absurd (pad_isDigit h) (by decide)
  cases spaced with
  | true => exact ⟨by simp [gap], by simp [gap, hpoint]⟩
  | false =>
    refine ⟨?_, by simpa [gap] using hpoint⟩
    intro c hc
    simp only [gap, offsetText, Bool.false_eq_true, if_false, List.nil_append, List.cons_append, List.head?_cons,
      Option.mem_some_iff] at hc
    rw [← hc]
    split_ifs <;> decide

theorem isZoneChar_solid {c : Char} (h : isZoneChar c = true) : isWhitespace c = false ∧ c ≠ '.' ∧ c ≠ ' ' := by
  have ha : isAscii c = true := by
    simp only [isZoneChar, Bool.or_eq_true, beq_iff_eq] at h
    rcases h with (((h | rfl) | rfl) | rfl) | rfl
    · simp only [Char.isAlphanum, Char.isAlpha, Char.isUpper, Char.isLower, Char.isDigit, Bool.or_eq_true, Bool.and_eq_true,
        decide_eq_true_eq] at h
      have hn : c.toNat ≤ 122 := by
        rcases h with (⟨-, h⟩ | ⟨-, h⟩) | ⟨-, h⟩
        · exact (show c.toNat ≤ 90 from h).trans (by decide)
        · exact h
        · exact (show c.toNat ≤ 57 from h).trans (by decide)
      simp only [isAscii, decide_eq_true_eq]
      omega
    all_goals decide
  exact ascii_cases (P := fun c => isZoneChar c = true → isWhitespace c = false ∧ c ≠ '.' ∧ c ≠ ' ') (by decide) c ha h

theorem suffix_zone {name : Text} (h : ∀ c ∈ name, isZoneChar c = true) : Suffix (' ' :: name) := by
  refine ⟨by simp, ?_⟩
  intro hm
  rcases List.mem_cons.mp hm with hm | hm
  · exact absurd hm (by decide)
  · exact (isZoneChar_solid (h _ hm)).2.1 rfl

/-- The digits of a fraction end where something else begins. -/
theorem takeWhile_digits {s r : Text} (hs : Digits s) (hr : ∀ c ∈ r.head?, c.isDigit = false) :
    (s ++ r).takeWhile Char.isDigit = s := by
  rw [List.takeWhile_append_of_pos hs]
  cases r with
  | nil => simp
  | cons c r => simp [hr c (by simp)]

/-- At most nine digits are left. -/
theorem truncateFraction_fraction {a r : Text} (ha : '.' ∉ a) (f : Fraction) (hr : Suffix r) :
    truncateFraction (a ++ (f.text ++ r)) = a ++ ((f.take 9).text ++ r) := by
  by_cases hnil : f.digits = []
  · have htake : (f.take 9).digits = [] := by rw [Fraction.take_digits, hnil, List.take_nil]
    have hnone : (a ++ r).idxOf? '.' = none := by
      rw [List.idxOf?_eq_none_iff]
      simp [ha, hr.point]
    simp only [Fraction.text, hnil, htake, if_true, List.nil_append]
    rw [truncateFraction, hnone]
  · have htake : (f.take 9).digits ≠ [] := by simp [hnil]
    have hdrop : (a ++ '.' :: (f.digits ++ r)).drop (a.length + 1) = f.digits ++ r := by
      rw [← List.drop_drop, List.drop_left]
      rfl
    simp only [Fraction.text, if_neg hnil, if_neg htake, List.cons_append]
    rw [truncateFraction, idxOf?_append ha]
    simp only [hdrop, takeWhile_digits f.digits_digits hr.head]
    split_ifs with hlen
    · rw [Fraction.take_digits, List.take_of_length_le hlen]
    · have hfront : (a ++ '.' :: (f.digits ++ r)).take (a.length + 1 + 9) = a ++ '.' :: f.digits.take 9 := by
        rw [Nat.add_assoc, List.take_length_add_append, Nat.add_comm 1 9, List.take_succ_cons,
          List.take_append_of_le_length (by omega)]
      have hback : (a ++ '.' :: (f.digits ++ r)).drop (a.length + 1 + f.digits.length) = r := by
        rw [← List.drop_drop, hdrop, List.drop_left]
      rw [hfront, hback, Fraction.take_digits, List.append_assoc, List.cons_append]

/-- Nine digits are all that count. -/
theorem Clock.time_take (t : Clock) (f : Fraction) : t.time (f.take 9) = t.time f := by
  simp only [Clock.time, f.units_take le_rfl]

theorem Moment.naive_take (m : Moment C) (f : Fraction) : m.naive (f.take 9) = m.naive f := by
  rw [Moment.naive, Clock.time_take, Moment.naive]

theorem Clock.text_mem {t : Clock} {c : Char} (h : c ∈ t.text) : c.isDigit = true ∨ c = ':' := clockText_mem h

theorem offsetText_mem {minutes : ℤ} {c : Char} (h : c ∈ offsetText minutes) :
    c.isDigit = true ∨ c = ':' ∨ c = '-' ∨ c = '+' := by
  simp only [offsetText, List.mem_append, List.mem_cons] at h
  rcases h with (h | h) | rfl | h
  · split_ifs at h
    · exact Or.inr (Or.inr (Or.inl h))
    · exact Or.inr (Or.inr (Or.inr h))
  · exact Or.inl (pad_isDigit h)
  · exact Or.inr (Or.inl rfl)
  · exact Or.inl (pad_isDigit h)

theorem Clock.text_no_point (t : Clock) : '.' ∉ t.text := by
  intro h
  rcases Clock.text_mem h with h | h <;> exact absurd h (by decide)

theorem Moment.text_no_point (m : Moment C) : '.' ∉ m.text := by
  intro h
  rcases List.mem_append.mp h with h | h
  · rcases m.day.chars _ h with h | h | h <;> exact absurd h (by decide)
  · rcases List.mem_cons.mp h with h | h
    · cases hs : m.sep <;> rw [hs] at h <;> exact absurd h (by decide)
    · exact m.clock.text_no_point h

theorem dateText_ne_nil (days : ℤ) : dateText days ≠ [] := by simp [dateText]

theorem clockText_ne_nil (secs : ℕ) : clockText secs ≠ [] := by simp [clockText]

theorem Clock.text_ne_nil (t : Clock) : t.text ≠ [] := clockText_ne_nil t.secs

theorem Clock.text_solid {t : Clock} {c : Char} (h : c ∈ t.text) : isWhitespace c = false := by
  rcases Clock.text_mem h with h | rfl
  · exact isDigit_solid h
  · decide

theorem offsetText_solid {minutes : ℤ} {c : Char} (h : c ∈ offsetText minutes) : isWhitespace c = false := by
  rcases offsetText_mem h with h | rfl | rfl | rfl
  · exact isDigit_solid h
  · decide
  · decide
  · decide

theorem Day.text_solid {d : Day C} {c : Char} (h : c ∈ d.text) : isWhitespace c = false := by
  rcases d.chars c h with h | rfl | rfl
  · exact isDigit_solid h
  · decide
  · decide

/-- A clock in front and no white space at the end. -/
theorem Clock.solid (t : Clock) (f : Fraction) {r : Text} (hr : r = [] ∨ ∃ m b, r = m ++ b ∧ b ≠ [] ∧
    ∀ c ∈ b, isWhitespace c = false) : Solid (t.text ++ (f.text ++ r)) := by
  rcases hr with rfl | ⟨m, b, rfl, hb, hw⟩
  · have hall : ∀ c ∈ t.text ++ f.text, isWhitespace c = false := by
      intro c hc
      rcases List.mem_append.mp hc with hc | hc
      · exact Clock.text_solid hc
      · exact Fraction.text_solid hc
    rw [List.append_nil]
    exact ⟨by simp [t.text_ne_nil], fun c hc => hall c (List.mem_of_mem_head? hc), fun c hc => hall c (List.mem_of_getLast? hc)⟩
  · have h := solid_of_ends (m := f.text ++ m) t.text_ne_nil hb (fun c hc => Clock.text_solid hc) hw
    simpa only [List.append_assoc] using h

theorem Moment.solid (m : Moment C) (f : Fraction) {r : Text} (hr : r = [] ∨ ∃ x b, r = x ++ b ∧ b ≠ [] ∧
    ∀ c ∈ b, isWhitespace c = false) : Solid (m.text ++ (f.text ++ r)) := by
  have hclock := m.clock.solid f hr
  have hlast : ∀ c ∈ (m.text ++ (f.text ++ r)).getLast?, isWhitespace c = false := by
    intro c hc
    have htext : m.text ++ (f.text ++ r) = m.day.text ++ [m.sep.char] ++ (m.clock.text ++ (f.text ++ r)) := by
      simp [Moment.text]
    rw [htext, List.getLast?_append_of_ne_nil _ hclock.nonempty] at hc
    exact hclock.last c hc
  refine ⟨by simp [Moment.text, m.day.nonempty], ?_, hlast⟩
  intro c hc
  obtain ⟨d, s, hd⟩ := List.exists_cons_of_ne_nil m.day.nonempty
  rw [Moment.text, hd] at hc
  rw [← Option.some.inj hc]
  exact Day.text_solid (by rw [hd]; exact List.mem_cons_self)

theorem suffix_offset_text (o : Offset) (spaced : Bool) : Suffix (o.text spaced) := suffix_offset spaced o.minutes

theorem offset_ends (o : Offset) (spaced : Bool) :
    o.text spaced = [] ∨ ∃ m b, o.text spaced = m ++ b ∧ b ≠ [] ∧ ∀ c ∈ b, isWhitespace c = false :=
  Or.inr ⟨gap spaced, offsetText o.minutes, rfl, by simp [offsetText], fun _ hc => offsetText_solid hc⟩

theorem colon_mem_offsetText (minutes : ℤ) : ':' ∈ offsetText minutes := by simp [offsetText]

theorem isDate_of_all {s : Text} (h : (s.all fun c => c.isDigit || c == '-') = true) :
    ∀ c ∈ s, c.isDigit = true ∨ c = '-' ∨ c = '+' := by
  intro c hc
  have hd := List.all_eq_true.mp h c hc
  rw [Bool.or_eq_true, beq_iff_eq] at hd
  exact hd.imp_right Or.inl

/-! ## What the code finds in them -/

theorem findSome?_eq {α β : Type} {fs : List α} {g : α → Option β} {b : β} (hsound : ∀ f ∈ fs, ∀ b', g f = some b' → b' = b)
    (hex : ∃ f ∈ fs, g f = some b) : fs.findSome? g = some b := by
  cases h : fs.findSome? g with
  | none =>
    obtain ⟨f, hf, hg⟩ := hex
    rw [List.findSome?_eq_none_iff.mp h f hf] at hg
    cases hg
  | some b' =>
    obtain ⟨f, hf, hg⟩ := List.exists_of_findSome?_eq_some h
    rw [hsound f hf b' hg]

theorem mem_offsetFormats (sep : Separator) (spaced : Bool) : (sep, spaced) ∈ offsetFormats := by
  cases sep <;> cases spaced <;> decide

theorem offsetText_no_space (minutes : ℤ) : ' ' ∉ offsetText minutes := fun hm => absurd (offsetText_solid hm) (by decide)

section
variable {S : LocalText → Prop} (hC : ReadsLocal C S) {w : LocalText} (hw : S w)
include hC

/-- What the code takes for a zone in a text with an offset is none. -/
theorem ReadsLocal.no_zone {x stamp zone : Text} {minutes : ℤ}
    (h : rsplitOnce ' ' (x ++ offsetText minutes) = some (stamp, zone)) : C.parseZone zone = none := by
  cases hz : C.parseZone zone with
  | none => rfl
  | some tz =>
    have hcolon := (suffix_of_rsplitOnce (offsetText_no_space minutes) h).subset (colon_mem_offsetText minutes)
    exact absurd ((hC.zone_name hz).2 ':' hcolon) (by decide)

include hw

theorem ReadsLocal.parse_naive (hcut : truncateFraction w.text = w.text) :
    parseNaiveDatetime C w.text = some w.naive := by
  have hown := hC.naive hw
  rw [parseNaiveDatetime, hcut]
  cases hs : C.parseNaive .space w.text with
  | some r => rw [hC.naive_sound .space hw hs, Option.some_or]
  | none =>
    cases hsep : w.sep with
    | space =>
      rw [hsep, hs] at hown
      cases hown
    | t =>
      rw [hsep] at hown
      rw [hown, Option.none_or]

/-- One of the formats of a list reads an offset, if the instant is in range. -/
theorem ReadsLocal.find_offset (spaced : Bool) (o : Offset) {formats : List (Separator × Bool)}
    (hmem : (w.sep, spaced) ∈ formats) (hrange : InRange (w.naive.seconds - o.seconds)) :
    (formats.findSome? fun p => C.parseDateTime p.1 p.2 (w.text ++ o.text spaced)) = some (w.naive, o.seconds) := by
  refine findSome?_eq ?_ ⟨(w.sep, spaced), hmem, hC.dateTime spaced o hw hrange⟩
  intro p _ r hr
  exact (hC.dateTime_sound spaced p.2 p.1 o hw hr).2

/-- No format reads an instant out of range. -/
theorem ReadsLocal.find_offset_none (spaced : Bool) (o : Offset) (hrange : ¬ InRange (w.naive.seconds - o.seconds))
    (formats : List (Separator × Bool)) :
    (formats.findSome? fun p => C.parseDateTime p.1 p.2 (w.text ++ o.text spaced)) = none := by
  rw [List.findSome?_eq_none_iff]
  intro p _
  cases hr : C.parseDateTime p.1 p.2 (w.text ++ o.text spaced) with
  | none => rfl
  | some r => exact absurd (hC.dateTime_sound spaced p.2 p.1 o hw hr).1 hrange

/-- An offset is read by one of the four formats. -/
theorem ReadsLocal.parse_offset {s : Text} {spaced : Bool} {o : Offset}
    (hs : truncateFraction (trim s) = w.text ++ o.text spaced) :
    (InRange (w.naive.seconds - o.seconds) → parseTrinoTimestamptz C s = some (w.naive.shift (-o.seconds))) ∧
    (¬ InRange (w.naive.seconds - o.seconds) → parseTrinoTimestamptz C s = none) := by
  constructor
  · intro hrange
    have hfind := hC.find_offset hw spaced o (mem_offsetFormats w.sep spaced) hrange
    rw [parseTrinoTimestamptz]
    simp only [hs, hfind]
  · intro hrange
    have hfind := hC.find_offset_none hw spaced o hrange offsetFormats
    rw [parseTrinoTimestamptz]
    simp only [hs, hfind]
    cases hsplit : rsplitOnce ' ' (w.text ++ o.text spaced) with
    | none => rfl
    | some p =>
      have hsplit' : rsplitOnce ' ' (w.text ++ gap spaced ++ offsetText o.minutes) = some (p.1, p.2) := by
        simpa only [Offset.text, List.append_assoc] using hsplit
      have hzone : C.parseZone p.2 = none := hC.no_zone hsplit'
      simp only [Option.bind_eq_bind, Option.bind_some, hzone, Option.bind_none]

/-- A name is cut off at the last space and resolved. -/
theorem ReadsLocal.parse_named {s name : Text} {tz : Tz} (hz : C.parseZone name = some tz)
    (hcut : truncateFraction w.text = w.text) (hsolid : Solid w.text)
    (hs : truncateFraction (trim s) = w.text ++ ' ' :: name) : parseTrinoTimestamptz C s = C.single tz w.naive := by
  rw [parseTrinoTimestamptz]
  simp only [hs]
  cases hfind : offsetFormats.findSome? fun p => C.parseDateTime p.1 p.2 (w.text ++ ' ' :: name) with
  | some r =>
    obtain ⟨p, -, hp⟩ := List.exists_of_findSome?_eq_some hfind
    obtain ⟨dt, offset⟩ := r
    obtain ⟨rfl, hsingle⟩ := hC.zone_offset p.1 p.2 hw hz hp
    simp only [hsingle]
  | none =>
    have hspace : ' ' ∉ name := fun hm => (isZoneChar_solid ((hC.zone_name hz).2 _ hm)).2.2 rfl
    simp only [rsplitOnce_append _ hspace, Option.bind_eq_bind, Option.bind_some, hz, trim_solid hsolid,
      hC.parse_naive hw hcut]
end

/-- Nine digits are not cut. -/
theorem Moment.truncateFraction_localText (m : Moment C) {f : Fraction} (hf : f.digits.length ≤ 9) :
    truncateFraction (m.localText f).text = (m.localText f).text := by
  have htrunc := truncateFraction_fraction m.text_no_point f suffix_nil
  rw [f.take_of_length_le hf, List.append_nil] at htrunc
  exact htrunc

theorem Moment.localText_isMoment (m : Moment C) (f : Fraction) : IsMoment C (m.localText (f.take 9)) :=
  ⟨m, f.take 9, f.take_length_le 9, rfl⟩

theorem Moment.localText_solid (m : Moment C) (f : Fraction) : Solid (m.localText f).text := by
  have hsolid := m.solid f (Or.inl rfl)
  rwa [List.append_nil] at hsolid

section
variable (hC : ReadsFractions C)
include hC

theorem parseTime_text (t : Clock) (f : Fraction) :
    C.parseTime (truncateFraction (trim (t.text ++ f.text))) = some (t.time f) := by
  have hsolid := t.solid f (Or.inl rfl)
  have htrunc := truncateFraction_fraction t.text_no_point f suffix_nil
  simp only [List.append_nil] at hsolid htrunc
  rw [trim_solid hsolid, htrunc, hC.time t (f.take_length_le 9), Clock.time_take]

theorem parseNaive_text (m : Moment C) (f : Fraction) : parseNaiveDatetime C (m.text ++ f.text) = some (m.naive f) := by
  have hcut := m.truncateFraction_localText (f.take_length_le 9)
  have htrunc : truncateFraction (m.text ++ f.text) = (m.localText (f.take 9)).text := by
    have h := truncateFraction_fraction m.text_no_point f suffix_nil
    simp only [List.append_nil] at h
    exact h
  have hparse := hC.parse_naive (m.localText_isMoment f) hcut
  rw [parseNaiveDatetime, hcut] at hparse
  rw [parseNaiveDatetime, htrunc, hparse, ← m.naive_take f]
  rfl

theorem single_moment (m : Moment C) (f : Fraction) (tz : Tz) {utc : NaiveDateTime} :
    C.single tz (m.naive f) = some utc ↔
      ∃ s, utc = (m.naive f).withSeconds s ∧ InRange s ∧ ∀ s', s' + tz.offsetAt s' = m.seconds ↔ s' = s := by
  rw [← m.naive_take f]
  exact hC.single tz (m.localText_isMoment f)

/-- 2000-01-01, the date the code lends to a time of day. -/
def epochDay : Day C := ⟨epochText, 0, by decide, isDate_of_all (by decide), hC.epoch⟩

theorem epoch_inRange (t : Clock) (o : Offset) :
    InRange (Moment.seconds (C := C) ⟨epochDay hC, .space, t⟩ - o.seconds) := by
  have hmin : minSecond ≤ -86400 := by decide
  have hmax : 172800 ≤ maxSecond := by decide
  have ht := t.secs_lt
  have ho := o.minutes_lt
  simp only [InRange, Moment.seconds, Offset.seconds, epochDay]
  omega

theorem parseTimetz_text (t : Clock) (f : Fraction) (spaced : Bool) (o : Offset) :
    parseTrinoTimetz C (t.text ++ (f.text ++ o.text spaced)) = some ⟨t.time f, o.seconds⟩ := by
  have htrunc := truncateFraction_fraction t.text_no_point f (suffix_offset_text o spaced)
  have hmem : (Separator.space, spaced) ∈ [(Separator.space, false), (Separator.space, true)] := by
    cases spaced <;> decide
  let m : Moment C := ⟨epochDay hC, .space, t⟩
  have hfind := hC.find_offset (m.localText_isMoment f) spaced o hmem (epoch_inRange hC t o)
  -- The lent date and its space stand in front of the time.
  have hdated : "2000-01-01 ".toList ++ (t.text ++ ((f.take 9).text ++ o.text spaced)) =
      (m.localText (f.take 9)).text ++ o.text spaced :=
    (List.append_assoc m.text (f.take 9).text (o.text spaced)).symm
  rw [parseTrinoTimetz, trim_solid (t.solid f (offset_ends o spaced)), htrunc]
  simp only [hdated, hfind, Option.map_some]
  rw [← t.time_take f]
  rfl

theorem parseTimestamptz_offset (m : Moment C) (f : Fraction) (spaced : Bool) (o : Offset) :
    (InRange (m.seconds - o.seconds) →
      parseTrinoTimestamptz C (m.text ++ (f.text ++ o.text spaced)) = some ((m.naive f).shift (-o.seconds))) ∧
    (¬ InRange (m.seconds - o.seconds) → parseTrinoTimestamptz C (m.text ++ (f.text ++ o.text spaced)) = none) := by
  rw [← m.naive_take f]
  apply hC.parse_offset (m.localText_isMoment f)
  rw [trim_solid (m.solid f (offset_ends o spaced)),
    truncateFraction_fraction m.text_no_point f (suffix_offset_text o spaced), ← List.append_assoc]
  rfl

theorem parseTimestamptz_named (m : Moment C) (f : Fraction) {name : Text} {tz : Tz} (hz : C.parseZone name = some tz) :
    parseTrinoTimestamptz C (m.text ++ (f.text ++ ' ' :: name)) = C.single tz (m.naive f) := by
  obtain ⟨hne, hchars⟩ := hC.zone_name hz
  have hends : ' ' :: name = [] ∨ ∃ x b, ' ' :: name = x ++ b ∧ b ≠ [] ∧ ∀ c ∈ b, isWhitespace c = false :=
    Or.inr ⟨[' '], name, rfl, hne, fun c hc => (isZoneChar_solid (hchars c hc)).1⟩
  rw [← m.naive_take f]
  refine hC.parse_named (m.localText_isMoment f) hz (m.truncateFraction_localText (f.take_length_le 9))
    (m.localText_solid (f.take 9)) ?_
  rw [trim_solid (m.solid f hends), truncateFraction_fraction m.text_no_point f (suffix_zone hchars),
    ← List.append_assoc]
  rfl
end

/-! ## A chrono that reads nine digits -/

def readOffset (s : Text) : Option ℤ := do
  let (neg, body) := splitSign s
  let (hours, s) ← readTwo body
  let s ← expect ':' s
  let (minutes, s) ← readTwo s
  if s = [] then some (signed neg (60 * (60 * hours + minutes : ℕ) : ℤ)) else none

theorem readOffset_offsetText {minutes : ℤ} (h : minutes.natAbs < 1440) :
    readOffset (offsetText minutes) = some (60 * minutes) := by
  have hs : splitSign (offsetText minutes) =
      (decide (minutes < 0), pad 2 (minutes.natAbs / 60) ++ (':' :: (pad 2 (minutes.natAbs % 60) ++ []))) := by
    unfold offsetText
    split_ifs with hneg <;> simp [splitSign, hneg]
  have hsum : (60 * (60 * (minutes.natAbs / 60) + minutes.natAbs % 60 : ℕ) : ℤ) = 60 * (minutes.natAbs : ℤ) := by omega
  rw [readOffset, hs]
  simp only [readTwo_pad (by omega : minutes.natAbs / 60 < 100), readTwo_pad (by omega : minutes.natAbs % 60 < 100),
    expect_cons, Option.bind_eq_bind, Option.bind_some, if_true, hsum]
  congr 1
  by_cases hneg : minutes < 0
  · simp only [signed, hneg, decide_true, if_true]; omega
  · simp only [signed, hneg, decide_false, Bool.false_eq_true, if_false]; omega

/-- An offset starts with a sign or a digit. -/
theorem readOffset_other {c : Char} {s : Text} (hs : c ≠ '-' ∧ c ≠ '+') (hd : c.isDigit = false) :
    readOffset (c :: s) = none := by
  have hsplit : splitSign (c :: s) = (false, c :: s) := by
    unfold splitSign
    split
    · rename_i e; exact absurd (List.cons.inj e).1 hs.1
    · rename_i e; exact absurd (List.cons.inj e).1 hs.2
    · rfl
  have htwo : readTwo (c :: s) = none := by
    cases s with
    | nil => rfl
    | cons b s =>
      have hn : isNumeral [c, b] = false := by simp [isNumeral, hd]
      simp [readTwo, readNat, hn]
  rw [readOffset, hsplit]
  simp only [htwo, Option.bind_eq_bind, Option.bind_none]

/-- A time of day and at most nine fraction digits. -/
def readTimeOfDay (s : Text) : Option (NaiveTime × Text) := do
  let (clock, s) ← readClock s
  let (fraction, s) := splitFraction s
  if h : clock < 86400 ∧ units 9 fraction < 10 ^ 9 ∧ fraction.length ≤ 9 then
    some (⟨clock, units 9 fraction, h.1, h.2.1.trans (by decide)⟩, s)
  else none

def readMoment (sep : Separator) (s : Text) : Option (NaiveDateTime × Text) := do
  let (date, s) ← readDate s
  let s ← expect sep.char s
  let (time, s) ← readTimeOfDay s
  some (⟨daysFromCivil date, time⟩, s)

instance (s : ℤ) : Decidable (InRange s) := inferInstanceAs (Decidable (_ ∧ _))

def utcZone : Tz := ⟨fun _ => 0, fun _ => by omega⟩

/-- Central European time around the summer of 2026. -/
def berlinZone : Tz where
  offsetAt s := if 828061200 ≤ s ∧ s < 846205200 then 7200 else 3600
  bounded s := by split_ifs <;> omega

open Classical in
/-- The documented formats with a fixed width, the range of `chrono` and two zones. -/
noncomputable def nineDigits : Chrono where
  parseDateTime sep spaced s :=
    (readMoment sep s).bind fun p => (if spaced then expect ' ' p.2 else some p.2).bind fun s =>
      (readOffset s).bind fun offset => if InRange (p.1.seconds - offset) then some (p.1, offset) else none
  parseNaive sep s := (readMoment sep s).bind fun p => if p.2 = [] then some p.1 else none
  parseDate s := (readDate s).bind fun p => if p.2 = [] then some (daysFromCivil p.1) else none
  parseTime s := (readTimeOfDay s).bind fun p => if p.2 = [] then some p.1 else none
  parseZone name :=
    if name = "UTC".toList then some utcZone else if name = "Europe/Berlin".toList then some berlinZone else none
  single tz dt :=
    if h : ∃ s, InRange s ∧ ∀ s', s' + tz.offsetAt s' = dt.seconds ↔ s' = s then some (dt.withSeconds h.choose) else none
  formatDateTime dt := dateText dt.date ++ ' ' :: clockText dt.time.secs
  formatTime t := clockText t.secs

theorem nineDigits_parseDateTime (sep : Separator) (spaced : Bool) (s : Text) : nineDigits.parseDateTime sep spaced s =
    (readMoment sep s).bind fun p => (if spaced then expect ' ' p.2 else some p.2).bind fun s =>
      (readOffset s).bind fun offset => if InRange (p.1.seconds - offset) then some (p.1, offset) else none := rfl

theorem nineDigits_parseNaive (sep : Separator) (s : Text) :
    nineDigits.parseNaive sep s = (readMoment sep s).bind fun p => if p.2 = [] then some p.1 else none := rfl

theorem afterFraction_gap (spaced : Bool) (minutes : ℤ) : AfterFraction (gap spaced ++ offsetText minutes) := by
  intro c hc
  refine ⟨?_, (suffix_offset spaced minutes).head c hc⟩
  rintro rfl
  exact (suffix_offset spaced minutes).point (List.mem_of_mem_head? hc)

theorem readTimeOfDay_text (t : Clock) {f : Fraction} (hf : f.digits.length ≤ 9) {r : Text} (hr : AfterFraction r) :
    readTimeOfDay (t.text ++ (f.text ++ r)) = some (t.time f, r) := by
  have hsplit : splitFraction (f.text ++ r) = (f.digits, r) := by
    unfold Fraction.text
    split_ifs with hnil
    · rw [hnil, List.nil_append, splitFraction_other hr]
    · exact splitFraction_digits f.digits_digits hr
  have hok : t.secs < 86400 ∧ units 9 f.digits < 10 ^ 9 ∧ f.digits.length ≤ 9 := ⟨t.secs_lt, f.units_lt 9, hf⟩
  rw [readTimeOfDay, Clock.text, readClock_clockText t.secs_lt]
  simp only [Option.bind_eq_bind, Option.bind_some, hsplit, dif_pos hok]
  rfl

theorem readMoment_text (m : Moment nineDigits) {f : Fraction} (hf : f.digits.length ≤ 9) (sep : Separator) {r : Text}
    (hr : AfterFraction r) :
    readMoment sep (m.text ++ (f.text ++ r)) = if sep = m.sep then some (m.naive f, r) else none := by
  obtain ⟨⟨date, rest⟩, hread, hdays⟩ := Option.bind_eq_some_iff.mp m.day.parsed
  obtain ⟨hrest, hdays⟩ := Option.ite_none_right_eq_some.mp hdays
  obtain rfl : rest = [] := hrest
  have hdate := readDate_append hread (m.sep.char :: (m.clock.text ++ (f.text ++ r)))
  have htext : m.text ++ (f.text ++ r) = m.day.text ++ m.sep.char :: (m.clock.text ++ (f.text ++ r)) := by
    simp [Moment.text]
  rw [List.nil_append] at hdate
  rw [readMoment, htext, hdate]
  simp only [Option.bind_eq_bind, Option.bind_some]
  by_cases hsep : sep = m.sep
  · rw [hsep, expect_cons, Option.bind_some, readTimeOfDay_text m.clock hf hr, if_pos rfl, Option.bind_some,
      Option.some.inj hdays]
    rfl
  · have hchar : ¬ m.sep.char = sep.char := by
      intro he
      apply hsep
      cases hm : m.sep <;> cases hs : sep <;> rw [hm, hs] at he <;> first | rfl | exact absurd he (by decide)
    rw [expect, if_neg hchar, Option.bind_none, if_neg hsep]

theorem nineDigits_dateTime (m : Moment nineDigits) {f : Fraction} (hf : f.digits.length ≤ 9) (sep : Separator)
    (spaced spaced' : Bool) (o : Offset) :
    nineDigits.parseDateTime sep spaced' (m.text ++ (f.text ++ o.text spaced)) =
      if sep = m.sep ∧ spaced' = spaced ∧ InRange (m.seconds - o.seconds) then some (m.naive f, o.seconds) else none := by
  have hoff := readOffset_offsetText o.minutes_lt
  have hspace : expect ' ' (offsetText o.minutes) = none := by
    unfold offsetText expect
    split_ifs <;> simp_all
  have hblank : readOffset (' ' :: offsetText o.minutes) = none := readOffset_other (by decide) (by decide)
  have hsecs : (m.naive f).seconds = m.seconds := rfl
  have hafter : AfterFraction (o.text spaced) := afterFraction_gap spaced o.minutes
  rw [nineDigits_parseDateTime, readMoment_text m hf sep hafter]
  by_cases hs : sep = m.sep
  · simp only [hs, if_true, Option.bind_some, true_and]
    cases spaced <;> cases spaced' <;> simp [Offset.text, gap, hoff, hspace, hblank, hsecs, Offset.seconds]
  · simp [hs]

theorem nineDigits_naive (m : Moment nineDigits) {f : Fraction} (hf : f.digits.length ≤ 9) (sep : Separator) :
    nineDigits.parseNaive sep (m.text ++ f.text) = if sep = m.sep then some (m.naive f) else none := by
  have h := readMoment_text m hf sep (r := []) (by intro c hc; cases hc)
  rw [List.append_nil] at h
  rw [nineDigits_parseNaive, h]
  by_cases hs : sep = m.sep <;> simp [hs]

theorem nineDigits_zone {name : Text} {tz : Tz} (h : nineDigits.parseZone name = some tz) :
    name = "UTC".toList ∨ name = "Europe/Berlin".toList := by
  simp only [nineDigits] at h
  split_ifs at h with h1 h2
  · exact Or.inl h1
  · exact Or.inr h2

/-- The names of the zones are no offsets. -/
theorem nineDigits_zone_offset (m : Moment nineDigits) {f : Fraction} (hf : f.digits.length ≤ 9) {name : Text} {tz : Tz}
    (hz : nineDigits.parseZone name = some tz) (sep : Separator) (spaced : Bool) :
    nineDigits.parseDateTime sep spaced (m.text ++ (f.text ++ ' ' :: name)) = none := by
  have hname : readOffset name = none := by
    rcases nineDigits_zone hz with rfl | rfl <;> exact readOffset_other (by decide) (by decide)
  have hblank : readOffset (' ' :: name) = none := readOffset_other (by decide) (by decide)
  have hafter : AfterFraction (' ' :: name) := by
    intro c hc
    rw [← Option.some.inj hc]
    decide
  rw [nineDigits_parseDateTime, readMoment_text m hf sep hafter]
  by_cases hs : sep = m.sep
  · cases spaced <;> simp [hs, hname, hblank]
  · simp [hs]

theorem nineDigits_single (tz : Tz) (dt : NaiveDateTime) {utc : NaiveDateTime} : nineDigits.single tz dt = some utc ↔
    ∃ s, utc = dt.withSeconds s ∧ InRange s ∧ ∀ s', s' + tz.offsetAt s' = dt.seconds ↔ s' = s := by
  by_cases hex : ∃ s, InRange s ∧ ∀ s', s' + tz.offsetAt s' = dt.seconds ↔ s' = s
  · have hfound : nineDigits.single tz dt = some (dt.withSeconds hex.choose) := dif_pos hex
    obtain ⟨hrange, hspec⟩ := hex.choose_spec
    rw [hfound, Option.some.injEq]
    constructor
    · intro he
      exact ⟨_, he.symm, hrange, hspec⟩
    · intro h
      obtain ⟨s, rfl, -, huniq⟩ := h
      have he : hex.choose = s := (huniq _).mp ((hspec _).mpr rfl)
      rw [he]
  · have hnone : nineDigits.single tz dt = none := dif_neg hex
    rw [hnone]
    simp only [reduceCtorEq, false_iff]
    intro h
    obtain ⟨s, -, hrange, huniq⟩ := h
    exact hex ⟨s, hrange, huniq⟩

theorem nineDigits_reads : ReadsFractions nineDigits where
  epoch := by decide +kernel
  time t _ hf := by
    have h := readTimeOfDay_text t hf (r := []) (by intro c hc; cases hc)
    rw [List.append_nil] at h
    simp only [nineDigits, h, Option.bind_some, if_true]
  formatTime _ _ := rfl
  naive := by
    rintro _ ⟨m, f, hf, rfl⟩
    show nineDigits.parseNaive m.sep (m.text ++ f.text) = _
    rw [nineDigits_naive m hf, if_pos rfl]
    rfl
  naive_sound := by
    rintro _ sep r ⟨m, f, hf, rfl⟩ h
    change nineDigits.parseNaive sep (m.text ++ f.text) = some r at h
    rw [nineDigits_naive m hf] at h
    split_ifs at h
    exact (Option.some.inj h).symm
  dateTime := by
    rintro _ spaced o ⟨m, f, hf, rfl⟩ hrange
    show nineDigits.parseDateTime m.sep spaced (m.text ++ f.text ++ o.text spaced) = _
    rw [List.append_assoc, nineDigits_dateTime m hf, if_pos ⟨rfl, rfl, hrange⟩]
    rfl
  dateTime_sound := by
    rintro _ spaced spaced' sep o r ⟨m, f, hf, rfl⟩ h
    change nineDigits.parseDateTime sep spaced' (m.text ++ f.text ++ o.text spaced) = some r at h
    rw [List.append_assoc, nineDigits_dateTime m hf] at h
    split_ifs at h with hc
    exact ⟨hc.2.2, (Option.some.inj h).symm⟩
  zone_name h := by
    rcases nineDigits_zone h with rfl | rfl
    · exact ⟨by decide, List.all_eq_true.mp (by decide)⟩
    · exact ⟨by decide, List.all_eq_true.mp (by decide)⟩
  zone_offset := by
    rintro _ name tz sep spaced dt offset ⟨m, f, hf, rfl⟩ hz h
    change nineDigits.parseDateTime sep spaced (m.text ++ f.text ++ ' ' :: name) = some (dt, offset) at h
    rw [List.append_assoc, nineDigits_zone_offset m hf hz] at h
    cases h
  single tz _ _ := nineDigits_single tz _

noncomputable def nineDigitCrates : Crates := { plainCrates with chrono := nineDigits }

end TrinoGateway.Types
