/-
  TrinoGateway.Lib.Fraction — decimal fractions, as the digits after the point. There may
  be any number of digits, and none is no point either.

  `units n` counts the fraction in units of ten to the minus `n`: it is the number of its
  first `n` digits, which is the value rounded down (`units_eq_floor`). A finer count is a
  coarser one and the digits between (`units_add`), so what a coarser count drops is zero
  if and only if those digits are (`units_eq_zero_iff`).
-/

import TrinoGateway.Lib.Numeral

namespace TrinoGateway.Lib

def digitValue (c : Char) : ℕ := c.toNat - 48

theorem digitValue_le {c : Char} (h : c.isDigit = true) : digitValue c ≤ 9 := by
  simp only [Char.isDigit, Bool.and_eq_true, decide_eq_true_eq] at h
  have hle : c.toNat ≤ 57 := h.2
  unfold digitValue
  omega

theorem digitValue_eq_zero_iff {c : Char} (h : c.isDigit = true) : digitValue c = 0 ↔ c = '0' := by
  simp only [Char.isDigit, Bool.and_eq_true, decide_eq_true_eq] at h
  have hge : 48 ≤ c.toNat := h.1
  unfold digitValue
  constructor
  · intro h0
    apply Char.toNat_inj.mp
    show c.toNat = 48
    omega
  · intro hc
    rw [hc]
    rfl

/-- The number of the first `n` digits, with zeros after the last one. -/
def units : ℕ → Text → ℕ
  | 0, _ => 0
  | _ + 1, [] => 0
  | n + 1, c :: s => digitValue c * 10 ^ n + units n s

@[simp] theorem units_nil (n : ℕ) : units n [] = 0 := by
  cases n <;> rfl

theorem units_take {n m : ℕ} (h : n ≤ m) (s : Text) : units n (s.take m) = units n s := by
  induction n generalizing m s with
  | zero => rfl
  | succ n ih =>
    obtain ⟨k, rfl⟩ : ∃ k, m = k + 1 := ⟨m - 1, by omega⟩
    cases s with
    | nil => rfl
    | cons c s => rw [List.take_succ_cons, units, units, ih (by omega)]

theorem units_add (m n : ℕ) (s : Text) : units (m + n) s = units m s * 10 ^ n + units n (s.drop m) := by
  induction m generalizing s with
  | zero => simp [units]
  | succ m ih =>
    cases s with
    | nil => simp
    | cons c s =>
      have hsucc : m + 1 + n = m + n + 1 := by omega
      rw [hsucc, units, units, ih, List.drop_succ_cons, pow_add]
      ring

/-- A text of digits. -/
def Digits (s : Text) : Prop := ∀ c ∈ s, c.isDigit = true

theorem Digits.drop {s : Text} (h : Digits s) (n : ℕ) : Digits (s.drop n) := fun c hc => h c (List.mem_of_mem_drop hc)

theorem Digits.take {s : Text} (h : Digits s) (n : ℕ) : Digits (s.take n) := fun c hc => h c (List.mem_of_mem_take hc)

theorem units_lt {s : Text} (h : Digits s) (n : ℕ) : units n s < 10 ^ n := by
  induction n generalizing s with
  | zero => exact Nat.one_pos
  | succ n ih =>
    cases s with
    | nil => simp
    | cons c s =>
      have hc := digitValue_le (h c List.mem_cons_self)
      have hs := ih fun c hc => h c (List.mem_cons_of_mem _ hc)
      have hmul : digitValue c * 10 ^ n ≤ 9 * 10 ^ n := Nat.mul_le_mul_right _ hc
      rw [units, pow_succ]
      omega

theorem units_eq_zero_iff {s : Text} (h : Digits s) (n : ℕ) : units n s = 0 ↔ ∀ c ∈ s.take n, c = '0' := by
  induction n generalizing s with
  | zero => simp [units]
  | succ n ih =>
    cases s with
    | nil => simp
    | cons c s =>
      have hs := ih fun c hc => h c (List.mem_cons_of_mem _ hc)
      rw [units, List.take_succ_cons, List.forall_mem_cons, ← hs, ← digitValue_eq_zero_iff (h c List.mem_cons_self)]
      simp

/-- The number of the digits, moved to their place. -/
theorem units_eq_ofDigitChars {n : ℕ} {s : Text} (h : s.length ≤ n) :
    units n s = Nat.ofDigitChars 10 s 0 * 10 ^ (n - s.length) := by
  induction s generalizing n with
  | nil => simp
  | cons c s ih =>
    obtain ⟨k, rfl⟩ : ∃ k, n = k + 1 := ⟨n - 1, by rw [List.length_cons] at h; omega⟩
    rw [List.length_cons] at h
    have hk : s.length ≤ k := by omega
    have hpow : (10 : ℕ) ^ k = 10 ^ s.length * 10 ^ (k - s.length) := by rw [← pow_add, Nat.add_sub_cancel' hk]
    have hcons : Nat.ofDigitChars 10 (c :: s) 0 = 10 ^ s.length * digitValue c + Nat.ofDigitChars 10 s 0 := by
      rw [Nat.ofDigitChars_cons, Nat.ofDigitChars_eq_ofDigitChars_zero]
      simp [digitValue]
    rw [units, ih hk, hcons, List.length_cons, Nat.add_sub_add_right, hpow]
    ring

/-! ## Fractions -/

structure Fraction where
  digits : Text
  digits_digits : Digits digits

namespace Fraction

/-- With the point, if there are digits. -/
def text (f : Fraction) : Text := if f.digits = [] then [] else '.' :: f.digits

def take (f : Fraction) (n : ℕ) : Fraction := ⟨f.digits.take n, f.digits_digits.take n⟩

@[simp] theorem take_digits (f : Fraction) (n : ℕ) : (f.take n).digits = f.digits.take n := rfl

def units (f : Fraction) (n : ℕ) : ℕ := Lib.units n f.digits

def value (f : Fraction) : ℚ := f.digits.foldr (fun c v => (digitValue c + v) / 10) 0

theorem units_lt (f : Fraction) (n : ℕ) : f.units n < 10 ^ n := Lib.units_lt f.digits_digits n

theorem units_take (f : Fraction) {n m : ℕ} (h : n ≤ m) : (f.take m).units n = f.units n := Lib.units_take h f.digits

/-- A count finer by `n` digits. -/
theorem units_add (f : Fraction) (m n : ℕ) : f.units (m + n) = f.units m * 10 ^ n + Lib.units n (f.digits.drop m) :=
  Lib.units_add m n f.digits

/-- The digits a cut leaves out count for nothing. -/
theorem units_take_add (f : Fraction) (m n : ℕ) : (f.take m).units (m + n) = f.units m * 10 ^ n := by
  have hdrop : (f.take m).digits.drop m = [] := by
    rw [take_digits, List.drop_take, Nat.sub_self, List.take_zero]
  rw [units_add, units_take f le_rfl, hdrop, units_nil, Nat.add_zero]

theorem take_of_length_le (f : Fraction) {n : ℕ} (h : f.digits.length ≤ n) : f.take n = f := by
  unfold take
  simp only [List.take_of_length_le h]

theorem text_mem {f : Fraction} {c : Char} (h : c ∈ f.text) : c.isDigit = true ∨ c = '.' := by
  unfold text at h
  split_ifs at h
  · cases h
  · exact (List.mem_cons.mp h).elim Or.inr fun hc => Or.inl (f.digits_digits c hc)

theorem text_solid {f : Fraction} {c : Char} (h : c ∈ f.text) : isWhitespace c = false := by
  rcases text_mem h with h | rfl
  · exact isDigit_solid h
  · decide

theorem take_length_le (f : Fraction) (n : ℕ) : (f.take n).digits.length ≤ n := by
  rw [take_digits, List.length_take]
  exact Nat.min_le_left n _

theorem value_bounds (f : Fraction) : 0 ≤ f.value ∧ f.value < 1 := by
  obtain ⟨s, hs⟩ := f
  unfold value
  induction s with
  | nil => exact ⟨le_refl 0, zero_lt_one⟩
  | cons c s ih =>
    obtain ⟨h0, h1⟩ := ih fun c hc => hs c (List.mem_cons_of_mem _ hc)
    have hc : (digitValue c : ℚ) ≤ 9 := by exact_mod_cast digitValue_le (hs c List.mem_cons_self)
    have hc0 : (0 : ℚ) ≤ digitValue c := Nat.cast_nonneg _
    simp only [List.foldr_cons] at h0 h1 ⊢
    constructor
    · positivity
    · linarith

/-- The count is the value rounded down. -/
theorem units_eq_floor (f : Fraction) (n : ℕ) : (f.units n : ℤ) = ⌊f.value * 10 ^ n⌋ := by
  obtain ⟨s, hs⟩ := f
  induction n generalizing s with
  | zero =>
    obtain ⟨h0, h1⟩ := value_bounds ⟨s, hs⟩
    symm
    rw [pow_zero, mul_one, Int.floor_eq_iff]
    exact ⟨by simpa [units, Lib.units] using h0, by simpa [units, Lib.units] using h1⟩
  | succ n ih =>
    cases s with
    | nil => simp [units, value]
    | cons c s =>
      have hrest := ih s fun c hc => hs c (List.mem_cons_of_mem _ hc)
      have hvalue : value ⟨c :: s, hs⟩ * 10 ^ (n + 1) =
          ((digitValue c * 10 ^ n : ℤ) : ℚ) + value ⟨s, fun c hc => hs c (List.mem_cons_of_mem _ hc)⟩ * 10 ^ n := by
        simp only [value, List.foldr_cons]
        push_cast
        ring
      rw [hvalue, Int.floor_intCast_add, ← hrest]
      simp only [units, Lib.units]
      push_cast
      ring

end Fraction

end TrinoGateway.Lib
