/-
  TrinoGateway.Lib.IsoTime — dates and times of day as text, `2026-06-01`, `10:30:00` and
  a fraction, printed and read.

  Years have at least four digits, and a sign outside 0000 to 9999. Each reader takes a
  part off the front and leaves the rest, and reads what the printer prints whatever
  follows (`readDate_dateText`, `readClock_clockText`, `readMicros_digits`).
-/

import TrinoGateway.Lib.Numeral
import TrinoGateway.Lib.Calendar

namespace TrinoGateway.Lib

/-! ## Printing -/

def yearText (y : ℤ) : Text :=
  if 0 ≤ y ∧ y ≤ 9999 then pad 4 y.natAbs else (if y < 0 then '-' else '+') :: pad 4 y.natAbs

/-- The date `days` after 2000-01-01. -/
def dateText (days : ℤ) : Text :=
  let c := civilFromDays days
  yearText c.year ++ '-' :: pad 2 c.month ++ '-' :: pad 2 c.day

/-- A time of day in seconds. -/
def clockText (secs : ℕ) : Text := pad 2 (secs / 3600) ++ ':' :: pad 2 (secs % 3600 / 60) ++ ':' :: pad 2 (secs % 60)

/-- Microseconds as a fraction of `p` digits. -/
def fractionText (p micros : ℕ) : Text := if p = 0 then [] else '.' :: pad p (micros / 10 ^ (6 - p))

/-! ## Reading -/

def expect (c : Char) : Text → Option Text
  | [] => none
  | d :: s => if d = c then some s else none

def readTwo : Text → Option (ℕ × Text)
  | a :: b :: s => (readNat [a, b]).map fun n => (n, s)
  | _ => none

def readDate (s : Text) : Option (Civil × Text) := do
  let (neg, s) := splitSign s
  let year ← readNat (s.takeWhile Char.isDigit)
  let s ← expect '-' (s.dropWhile Char.isDigit)
  let (month, s) ← readTwo s
  let s ← expect '-' s
  let (day, s) ← readTwo s
  if 1 ≤ month ∧ month ≤ 12 ∧ 1 ≤ day ∧ day ≤ 31 then some (⟨signed neg (year : ℤ), month, day⟩, s) else none

def readClock (s : Text) : Option (ℕ × Text) := do
  let (hour, s) ← readTwo s
  let s ← expect ':' s
  let (minute, s) ← readTwo s
  let s ← expect ':' s
  let (second, s) ← readTwo s
  if hour < 24 ∧ minute < 60 ∧ second < 60 then some (3600 * hour + 60 * minute + second, s) else none

/-- A fraction of a second in microseconds, or none. -/
def readMicros (s : Text) : ℕ × Text :=
  let (fraction, s) := splitFraction s
  (Nat.ofDigitChars 10 fraction 0 * 10 ^ (6 - fraction.length), s)

/-! ## The characters of a printed time -/

theorem dateText_mem {days : ℤ} {c : Char} (h : c ∈ dateText days) : c.isDigit = true ∨ c = '-' ∨ c = '+' := by
  have hy : c ∈ yearText (civilFromDays days).year → c.isDigit = true ∨ c = '-' ∨ c = '+' := by
    unfold yearText
    split_ifs <;> intro hc
    · exact Or.inl (pad_isDigit hc)
    · exact (List.mem_cons.mp hc).elim (fun e => Or.inr (Or.inl e)) fun hc => Or.inl (pad_isDigit hc)
    · exact (List.mem_cons.mp hc).elim (fun e => Or.inr (Or.inr e)) fun hc => Or.inl (pad_isDigit hc)
  simp only [dateText, List.mem_append, List.mem_cons] at h
  rcases h with (h | rfl | h) | rfl | h
  · exact hy h
  · exact Or.inr (Or.inl rfl)
  · exact Or.inl (pad_isDigit h)
  · exact Or.inr (Or.inl rfl)
  · exact Or.inl (pad_isDigit h)

theorem clockText_mem {secs : ℕ} {c : Char} (h : c ∈ clockText secs) : c.isDigit = true ∨ c = ':' := by
  simp only [clockText, List.mem_append, List.mem_cons] at h
  rcases h with (h | rfl | h) | rfl | h
  · exact Or.inl (pad_isDigit h)
  · exact Or.inr rfl
  · exact Or.inl (pad_isDigit h)
  · exact Or.inr rfl
  · exact Or.inl (pad_isDigit h)

theorem fractionText_mem {p micros : ℕ} {c : Char} (h : c ∈ fractionText p micros) : c.isDigit = true ∨ c = '.' := by
  unfold fractionText at h
  split_ifs at h
  · cases h
  · exact (List.mem_cons.mp h).elim Or.inr fun h => Or.inl (pad_isDigit h)

/-! ## What is printed is read -/

@[simp] theorem expect_cons (c : Char) (s : Text) : expect c (c :: s) = some s := by simp [expect]

theorem pad_two {n : ℕ} (h : n < 100) : ∃ a b, pad 2 n = [a, b] :=
  List.length_eq_two.mp (pad_length (by decide) h)

@[simp] theorem readTwo_pad {n : ℕ} (h : n < 100) (r : Text) : readTwo (pad 2 n ++ r) = some (n, r) := by
  obtain ⟨a, b, e⟩ := pad_two h
  have hr := readNat_pad 2 n
  rw [e] at hr
  rw [e]
  show (readNat [a, b]).map _ = _
  rw [hr]
  rfl

theorem splitSign_pad (w n : ℕ) (r : Text) : splitSign (pad w n ++ r) = (false, pad w n ++ r) := by
  have hne : pad w n ≠ [] := by simp [pad, natText_ne_nil]
  obtain ⟨c, t, h⟩ := List.exists_cons_of_ne_nil hne
  have hc : c.isDigit = true := pad_isDigit (w := w) (n := n) (by rw [h]; simp)
  rw [h]
  exact splitSign_digit hc

theorem splitSign_yearText (y : ℤ) (r : Text) :
    splitSign (yearText y ++ r) = (decide (y < 0), pad 4 y.natAbs ++ r) := by
  unfold yearText
  split_ifs with h1 h2
  · rw [splitSign_pad, decide_eq_false (by omega)]
  · rw [decide_eq_true h2]; rfl
  · rw [decide_eq_false h2]; rfl

/-- The digits in front of anything else. -/
theorem takeWhile_pad {w n : ℕ} {r : Text} (hr : ∀ c ∈ r.head?, c.isDigit = false) :
    (pad w n ++ r).takeWhile Char.isDigit = pad w n ∧ (pad w n ++ r).dropWhile Char.isDigit = r := by
  have hp : ∀ c ∈ pad w n, c.isDigit = true := fun c hc => pad_isDigit hc
  rw [List.takeWhile_append_of_pos hp, List.dropWhile_append_of_pos hp]
  cases r with
  | nil => simp
  | cons c r => simp [hr c (by simp)]

theorem readDate_dateText (days : ℤ) (r : Text) : readDate (dateText days ++ r) = some (civilFromDays days, r) := by
  obtain ⟨h1, h2, h3, h4⟩ := civilFromDays_bounds days
  simp only [dateText]
  generalize civilFromDays days = c at *
  have hsplit : yearText c.year ++ '-' :: pad 2 c.month ++ '-' :: pad 2 c.day ++ r =
      yearText c.year ++ ('-' :: (pad 2 c.month ++ ('-' :: (pad 2 c.day ++ r)))) := by simp
  obtain ⟨ht, hd⟩ := takeWhile_pad (w := 4) (n := c.year.natAbs) (r := '-' :: (pad 2 c.month ++ ('-' :: (pad 2 c.day ++ r))))
    (by simp)
  rw [hsplit, readDate, splitSign_yearText]
  simp only [ht, hd, readNat_pad, expect_cons, readTwo_pad (by omega : c.month < 100), readTwo_pad (by omega : c.day < 100),
    Option.bind_eq_bind, Option.bind_some, signed_natAbs, h1, h2, h3, h4, and_self, if_true]

theorem readClock_clockText {secs : ℕ} (h : secs < 86400) (r : Text) : readClock (clockText secs ++ r) = some (secs, r) := by
  have hsplit : clockText secs ++ r =
      pad 2 (secs / 3600) ++ (':' :: (pad 2 (secs % 3600 / 60) ++ (':' :: (pad 2 (secs % 60) ++ r)))) := by
    simp [clockText]
  have hsum : 3600 * (secs / 3600) + 60 * (secs % 3600 / 60) + secs % 60 = secs := by omega
  have hok : secs / 3600 < 24 ∧ secs % 3600 / 60 < 60 ∧ secs % 60 < 60 := by omega
  rw [hsplit, readClock]
  simp only [readTwo_pad (by omega : secs / 3600 < 100), readTwo_pad (by omega : secs % 3600 / 60 < 100),
    readTwo_pad (by omega : secs % 60 < 100), expect_cons, Option.bind_eq_bind, Option.bind_some, if_pos hok, hsum]

/-- What may follow a fraction. -/
def AfterFraction (r : Text) : Prop := ∀ c ∈ r.head?, c ≠ '.' ∧ c.isDigit = false

theorem splitFraction_other {r : Text} (hr : AfterFraction r) : splitFraction r = ([], r) := by
  unfold splitFraction
  split
  · exact absurd rfl (hr '.' (by simp)).1
  · rfl

theorem splitFraction_digits {f r : Text} (hf : ∀ c ∈ f, c.isDigit = true) (hr : AfterFraction r) :
    splitFraction ('.' :: (f ++ r)) = (f, r) := by
  rw [splitFraction, List.span_eq_takeWhile_dropWhile, List.takeWhile_append_of_pos hf, List.dropWhile_append_of_pos hf]
  cases r with
  | nil => simp
  | cons c r => simp [(hr c (by simp)).2]

theorem readMicros_nil {r : Text} (hr : AfterFraction r) : readMicros r = (0, r) := by
  simp [readMicros, splitFraction_other hr, Nat.ofDigitChars_nil]

theorem readMicros_digits {f r : Text} (hf : ∀ c ∈ f, c.isDigit = true) (hr : AfterFraction r) :
    readMicros ('.' :: (f ++ r)) = (Nat.ofDigitChars 10 f 0 * 10 ^ (6 - f.length), r) := by
  simp only [readMicros, splitFraction_digits hf hr]

/-! ## Reading goes on where a part ends -/

theorem expect_append {c : Char} {s t : Text} (h : expect c s = some t) (r : Text) : expect c (s ++ r) = some (t ++ r) := by
  cases s with
  | nil => cases h
  | cons d s =>
    simp only [List.cons_append, expect] at h ⊢
    split_ifs at h ⊢
    rw [Option.some.inj h]

theorem readTwo_append {s t : Text} {n : ℕ} (h : readTwo s = some (n, t)) (r : Text) :
    readTwo (s ++ r) = some (n, t ++ r) := by
  match s with
  | [] => cases h
  | [_] => cases h
  | a :: b :: s =>
    obtain ⟨k, hk, hkt⟩ := Option.map_eq_some_iff.mp h
    obtain ⟨rfl, rfl⟩ := Prod.mk.inj hkt
    show (readNat [a, b]).map _ = _
    rw [hk]
    rfl

theorem splitSign_append {s : Text} (h : s ≠ []) (r : Text) : splitSign (s ++ r) = ((splitSign s).1, (splitSign s).2 ++ r) := by
  obtain ⟨c, s, rfl⟩ := List.exists_cons_of_ne_nil h
  by_cases hm : c = '-'
  · rw [hm]; rfl
  · by_cases hp : c = '+'
    · rw [hp]; rfl
    · have hother : ∀ t : Text, splitSign (c :: t) = (false, c :: t) := by
        intro t
        unfold splitSign
        split
        · rename_i e; exact absurd (List.cons.inj e).1 hm
        · rename_i e; exact absurd (List.cons.inj e).1 hp
        · rfl
      rw [List.cons_append, hother, hother]
      rfl

theorem readDate_append {s t : Text} {date : Civil} (h : readDate s = some (date, t)) (r : Text) :
    readDate (s ++ r) = some (date, t ++ r) := by
  have hne : s ≠ [] := by
    rintro rfl
    cases h
  simp only [readDate, Option.bind_eq_bind, Option.bind_eq_some_iff] at h
  obtain ⟨year, hyear, s₁, h₁, ⟨month, s₂⟩, h₂, s₃, h₃, ⟨day, s₄⟩, h₄, hlast⟩ := h
  have hstop : (splitSign s).2.dropWhile Char.isDigit ≠ [] := by
    intro hnil
    rw [hnil] at h₁
    cases h₁
  have htake : ((splitSign s).2 ++ r).takeWhile Char.isDigit = (splitSign s).2.takeWhile Char.isDigit := by
    have hparts := congrArg List.length (List.takeWhile_append_dropWhile (p := Char.isDigit) (l := (splitSign s).2))
    have hpos := List.length_pos_iff.mpr hstop
    rw [List.length_append] at hparts
    rw [List.takeWhile_append, if_neg (by omega)]
  have hdrop : ((splitSign s).2 ++ r).dropWhile Char.isDigit = (splitSign s).2.dropWhile Char.isDigit ++ r := by
    rw [List.dropWhile_append, if_neg (by simpa using hstop)]
  simp only [readDate, splitSign_append hne, htake, hdrop, hyear, expect_append h₁, readTwo_append h₂, expect_append h₃,
    readTwo_append h₄, Option.bind_eq_bind, Option.bind_some]
  split_ifs at hlast ⊢ with hok
  obtain ⟨rfl, rfl⟩ := Prod.mk.inj (Option.some.inj hlast)
  rfl

end TrinoGateway.Lib
