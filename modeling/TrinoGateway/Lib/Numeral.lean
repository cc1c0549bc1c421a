/-
  TrinoGateway.Lib.Numeral — decimal numerals: how Rust prints and reads integers, zero
  padded fields and decimal numbers with a fraction and an exponent.

  Printing is `Nat.toDigits` with a sign or with zeros in front; reading is the grammar
  of `i64::from_str` (`readInt`) and of the numbers among `f64::from_str` (`readDecimal`,
  at the exact rational value). What is read back is what was printed:
  `readInt_intText`, `readDecimal_intText`, `readNat_pad`; and a decimal expansion that
  reads as an integer is that integer (`readInt_decimalText`).
-/

import TrinoGateway.Lib.Text

namespace TrinoGateway.Lib

/-! ## Natural numbers -/

def natText (n : ℕ) : Text := Nat.toDigits 10 n

/-- A non-empty run of digits. -/
def isNumeral (s : Text) : Bool := !s.isEmpty && s.all Char.isDigit

def readNat (s : Text) : Option ℕ := if isNumeral s then some (Nat.ofDigitChars 10 s 0) else none

theorem natText_isDigit {n : ℕ} {c : Char} (h : c ∈ natText n) : c.isDigit = true :=
  Nat.isDigit_of_mem_toDigits (by decide) (by decide) h

theorem natText_ne_nil (n : ℕ) : natText n ≠ [] := List.ne_nil_of_length_pos Nat.length_toDigits_pos

theorem natText_isNumeral (n : ℕ) : isNumeral (natText n) = true := by
  have hall : (natText n).all Char.isDigit = true := List.all_eq_true.mpr fun c hc => natText_isDigit hc
  simp [isNumeral, natText_ne_nil, hall]

@[simp] theorem readNat_natText (n : ℕ) : readNat (natText n) = some n := by
  rw [readNat, if_pos (natText_isNumeral n), natText, Nat.ofDigitChars_ten_toDigits]

theorem isDigit_solid {c : Char} (h : c.isDigit = true) : isWhitespace c = false := by
  have ha : isAscii c = true := by
    simp only [Char.isDigit, Bool.and_eq_true, decide_eq_true_eq] at h
    have : c.toNat ≤ 57 := h.2
    simp only [isAscii, decide_eq_true_eq]
    omega
  exact ascii_cases (P := fun c => c.isDigit = true → isWhitespace c = false) (by decide) c ha h

/-! ## Fields of a fixed width -/

/-- `{n:0w}`: at least `w` digits. -/
def pad (w n : ℕ) : Text := List.replicate (w - (natText n).length) '0' ++ natText n

theorem pad_isDigit {w n : ℕ} {c : Char} (h : c ∈ pad w n) : c.isDigit = true := by
  rcases List.mem_append.mp h with h | h
  · rw [List.eq_of_mem_replicate h]; decide
  · exact natText_isDigit h

theorem pad_isNumeral (w n : ℕ) : isNumeral (pad w n) = true := by
  have hall : (pad w n).all Char.isDigit = true := List.all_eq_true.mpr fun c hc => pad_isDigit hc
  have hne : pad w n ≠ [] := by simp [pad, natText_ne_nil]
  simp [isNumeral, hne, hall]

theorem ofDigitChars_pad (w n : ℕ) : Nat.ofDigitChars 10 (pad w n) 0 = n := by
  rw [pad, Nat.ofDigitChars_append, Nat.ofDigitChars_replicate_zero, Nat.mul_zero, natText,
    Nat.ofDigitChars_ten_toDigits]

@[simp] theorem readNat_pad (w n : ℕ) : readNat (pad w n) = some n := by
  rw [readNat, if_pos (pad_isNumeral w n), ofDigitChars_pad]

theorem pad_length {w n : ℕ} (hw : 0 < w) (h : n < 10 ^ w) : (pad w n).length = w := by
  have hl : (natText n).length ≤ w := (Nat.length_toDigits_le_iff (by decide) hw).mpr h
  simp only [pad, List.length_append, List.length_replicate]
  omega

/-! ## Integers -/

/-- `Display` of a signed integer. -/
def intText (k : ℤ) : Text := if k < 0 then '-' :: natText k.natAbs else natText k.natAbs

def splitSign : Text → Bool × Text
  | '-' :: s => (true, s)
  | '+' :: s => (false, s)
  | s => (false, s)

def signed (neg : Bool) {α : Type} [Neg α] (x : α) : α := if neg then -x else x

/-- The integers `i64::from_str` reads, before its range check. -/
def readInt (s : Text) : Option ℤ :=
  (readNat (splitSign s).2).map fun n : ℕ => signed (splitSign s).1 (n : ℤ)

theorem splitSign_digit {c : Char} {s : Text} (h : c.isDigit = true) : splitSign (c :: s) = (false, c :: s) := by
  unfold splitSign
  split
  · rename_i e; rw [(List.cons.inj e).1] at h; exact absurd h (by decide)
  · rename_i e; rw [(List.cons.inj e).1] at h; exact absurd h (by decide)
  · rfl

theorem splitSign_natText (n : ℕ) (s : Text) : splitSign (natText n ++ s) = (false, natText n ++ s) := by
  obtain ⟨c, t, h⟩ := List.exists_cons_of_ne_nil (natText_ne_nil n)
  have hc : c.isDigit = true := natText_isDigit (n := n) (by rw [h]; simp)
  rw [h]
  exact splitSign_digit hc

/-- The sign of a printed integer is split off, whatever follows. -/
theorem splitSign_intText (k : ℤ) (s : Text) :
    splitSign (intText k ++ s) = (decide (k < 0), natText k.natAbs ++ s) := by
  unfold intText
  by_cases hk : k < 0
  · simp [hk, splitSign]
  · simp [hk, splitSign_natText]

theorem signed_natAbs (k : ℤ) : signed (decide (k < 0)) (k.natAbs : ℤ) = k := by
  by_cases hk : k < 0
  · simp only [signed, hk, decide_true, if_true]; omega
  · simp only [signed, hk, decide_false, Bool.false_eq_true, if_false]; omega

@[simp] theorem readInt_intText (k : ℤ) : readInt (intText k) = some k := by
  have h := splitSign_intText k []
  rw [List.append_nil, List.append_nil] at h
  rw [readInt, h, readNat_natText, Option.map_some, signed_natAbs]

/-! ## Decimal numbers -/

/-- An exponent `e[+-]ddd`, or nothing. -/
def readExponent : Text → Option ℤ
  | [] => some 0
  | c :: s => if c = 'e' ∨ c = 'E' then readInt s else none

/-- The fraction digits after a `.`, and the text after them. -/
def splitFraction : Text → Text × Text
  | '.' :: s => s.span Char.isDigit
  | s => ([], s)

/-- An unsigned number: digits, a fraction, an exponent, with a digit before or after the
    point. -/
def readUnsigned (s : Text) : Option ℚ :=
  let whole := s.takeWhile Char.isDigit
  let (fraction, rest) := splitFraction (s.dropWhile Char.isDigit)
  if whole = [] ∧ fraction = [] then none
  else (readExponent rest).map fun e =>
    (Nat.ofDigitChars 10 (whole ++ fraction) 0 : ℚ) * 10 ^ (e - (fraction.length : ℤ))

/-- The value of a decimal number. -/
def readDecimal (s : Text) : Option ℚ := (readUnsigned (splitSign s).2).map (signed (splitSign s).1)

theorem takeWhile_isNumeral {s : Text} (h : isNumeral s = true) : s.takeWhile Char.isDigit = s := by
  rw [List.takeWhile_eq_self_iff]
  simp only [isNumeral, Bool.and_eq_true, List.all_eq_true] at h
  exact h.2

theorem dropWhile_isNumeral {s : Text} (h : isNumeral s = true) : s.dropWhile Char.isDigit = [] := by
  rw [List.dropWhile_eq_nil_iff]
  simp only [isNumeral, Bool.and_eq_true, List.all_eq_true] at h
  exact h.2

/-- A numeral is a decimal number of the same value. -/
theorem readUnsigned_numeral {s : Text} (h : isNumeral s = true) :
    readUnsigned s = some (Nat.ofDigitChars 10 s 0 : ℚ) := by
  have hne : s ≠ [] := by rintro rfl; exact absurd h (by decide)
  simp [readUnsigned, takeWhile_isNumeral h, dropWhile_isNumeral h, splitFraction, readExponent, hne]

/-- What reads as an integer reads as that decimal number. -/
theorem readDecimal_of_readInt {s : Text} {k : ℤ} (h : readInt s = some k) : readDecimal s = some (k : ℚ) := by
  simp only [readInt, readNat] at h
  split at h
  · rename_i hn
    obtain rfl := Option.some.inj h
    rw [readDecimal, readUnsigned_numeral hn]
    cases (splitSign s).1 <;> simp [signed]
  · cases h

theorem readUnsigned_head {s : Text} {v : ℚ} (h : readUnsigned s = some v) :
    ∃ c t, s = c :: t ∧ (c.isDigit = true ∨ c = '.') := by
  cases s with
  | nil => cases h
  | cons c t =>
    refine ⟨c, t, rfl, ?_⟩
    by_contra hc
    obtain ⟨hdigit, hdot⟩ := not_or.mp hc
    have hfraction : splitFraction (c :: t) = ([], c :: t) := by
      unfold splitFraction
      split
      · rename_i hcons
        exact absurd (List.cons.inj hcons).1 hdot
      · rfl
    have hnone : readUnsigned (c :: t) = none := by
      simp only [readUnsigned, List.takeWhile_cons, List.dropWhile_cons, hdigit, Bool.false_eq_true, if_false, hfraction,
        and_self, if_true]
    rw [hnone] at h
    cases h

theorem readUnsigned_nonneg {s : Text} {v : ℚ} (h : readUnsigned s = some v) : 0 ≤ v := by
  simp only [readUnsigned] at h
  split at h
  · cases h
  · obtain ⟨e, _, rfl⟩ := Option.map_eq_some_iff.mp h
    positivity

@[simp] theorem readDecimal_intText (k : ℤ) : readDecimal (intText k) = some (k : ℚ) :=
  readDecimal_of_readInt (readInt_intText k)

/-! ## Decimal expansions -/

/-- `str::trim_end_matches('0')`. -/
def trimZeros (s : Text) : Text := s.rdropWhile (· == '0')

theorem trimZeros_zero (s : Text) : trimZeros (s ++ ['0']) = trimZeros s :=
  List.rdropWhile_concat_pos _ s '0' (by decide)

theorem trimZeros_concat (s : Text) {c : Char} (h : c ≠ '0') : trimZeros (s ++ [c]) = s ++ [c] :=
  List.rdropWhile_concat_neg _ s c (by simpa using h)

theorem trimZeros_point (s : Text) : trimZeros ('.' :: s) = '.' :: trimZeros s :=
  rdropWhile_append_cons (by decide) [] s

/-- The zeros taken off the end. -/
theorem trimZeros_append (s : Text) : ∃ k, s = trimZeros s ++ List.replicate k '0' := by
  induction s using List.reverseRecOn with
  | nil => exact ⟨0, rfl⟩
  | append_singleton s c ih =>
    by_cases hc : c = '0'
    · obtain ⟨k, hk⟩ := ih
      refine ⟨k + 1, ?_⟩
      rw [hc, trimZeros_zero, List.replicate_succ', ← List.append_assoc, ← hk]
    · exact ⟨0, by rw [trimZeros_concat _ hc]; simp⟩

/-- `d * 10 ^ k` written out: no exponent, and no zero at the end of a fraction. -/
def decimalText (d : ℕ) (k : ℤ) : Text :=
  if 0 ≤ k then natText (d * 10 ^ k.toNat)
  else
    let j := (-k).toNat
    let fraction := trimZeros (pad j (d % 10 ^ j))
    natText (d / 10 ^ j) ++ if fraction = [] then [] else '.' :: fraction

theorem eq_zero_of_trimZeros_pad {w n : ℕ} (h : trimZeros (pad w n) = []) : n = 0 := by
  have hall : ∀ c ∈ pad w n, c = '0' := by
    rw [trimZeros, List.rdropWhile_eq_nil_iff] at h
    simpa using h
  rw [← ofDigitChars_pad w n, List.eq_replicate_of_mem hall, Nat.ofDigitChars_replicate_zero, Nat.mul_zero]

/-- A decimal expansion has digits and perhaps a point. -/
theorem decimalText_solid {d : ℕ} {k : ℤ} {c : Char} (h : c ∈ decimalText d k) : isWhitespace c = false := by
  have hpad : ∀ {w n : ℕ}, c ∈ trimZeros (pad w n) → c.isDigit = true := fun hc =>
    pad_isDigit ((List.rdropWhile_prefix _ _).subset hc)
  unfold decimalText at h
  split at h
  · exact isDigit_solid (natText_isDigit h)
  · rcases List.mem_append.mp h with h | h
    · exact isDigit_solid (natText_isDigit h)
    · split at h
      · cases h
      · rcases List.mem_cons.mp h with rfl | h
        · decide
        · exact isDigit_solid (hpad h)

theorem readNat_point (s t : Text) : readNat (s ++ '.' :: t) = none := by
  have h : isNumeral (s ++ '.' :: t) = false := by
    cases hn : isNumeral (s ++ '.' :: t) with
    | false => rfl
    | true =>
      simp only [isNumeral, Bool.and_eq_true, List.all_eq_true] at hn
      exact absurd (hn.2 '.' (by simp)) (by decide)
  simp [readNat, h]

/-- A decimal expansion that reads as a number is a whole number. -/
theorem readNat_decimalText {d v : ℕ} {k : ℤ} (h : readNat (decimalText d k) = some v) :
    (v : ℚ) = (d : ℚ) * 10 ^ k := by
  unfold decimalText at h
  split at h
  · rename_i hk
    rw [readNat_natText] at h
    obtain rfl := Option.some.inj h
    obtain ⟨n, rfl⟩ := Int.eq_ofNat_of_zero_le hk
    push_cast
    rfl
  · rename_i hk
    obtain ⟨j, rfl⟩ : ∃ j : ℕ, k = -(j : ℤ) := ⟨(-k).toNat, by omega⟩
    simp only [neg_neg, Int.toNat_natCast] at h
    split at h
    · rename_i hf
      have hz := eq_zero_of_trimZeros_pad hf
      rw [List.append_nil, readNat_natText] at h
      obtain rfl := Option.some.inj h
      have hd : d / 10 ^ j * 10 ^ j = d := Nat.div_mul_cancel (Nat.dvd_of_mod_eq_zero hz)
      have hq : ((d / 10 ^ j : ℕ) : ℚ) * 10 ^ j = d := by exact_mod_cast hd
      rw [← hq, zpow_neg, zpow_natCast, mul_assoc, mul_inv_cancel₀ (by positivity), mul_one]
    · rw [readNat_point] at h
      cases h

theorem decimalText_head (d : ℕ) (k : ℤ) : ∃ n s, decimalText d k = natText n ++ s := by
  unfold decimalText
  split
  · exact ⟨_, [], (List.append_nil _).symm⟩
  · exact ⟨_, _, rfl⟩

/-- A signed decimal expansion that reads as an integer is that integer. -/
theorem readInt_decimalText {neg : Bool} {d : ℕ} {k v : ℤ}
    (h : readInt ((if neg then ['-'] else []) ++ decimalText d k) = some v) :
    (v : ℚ) = signed neg ((d : ℚ) * 10 ^ k) := by
  have hs : splitSign ((if neg then ['-'] else []) ++ decimalText d k) = (neg, decimalText d k) := by
    cases neg with
    | true => rfl
    | false =>
      obtain ⟨n, s, e⟩ := decimalText_head d k
      rw [e]
      exact splitSign_natText n s
  rw [readInt, hs] at h
  obtain ⟨n, hn, rfl⟩ := Option.map_eq_some_iff.mp h
  rw [← readNat_decimalText hn]
  cases neg <;> simp [signed]

end TrinoGateway.Lib
