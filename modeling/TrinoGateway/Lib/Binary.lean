/-
  TrinoGateway.Lib.Binary — binary floating-point numbers as rationals: which rationals a
  format holds, rounding to nearest with ties to even, and the shortest decimal number
  that rounds to a given one.

  A finite number is a sign and a magnitude the format holds (`Finite`); the grid of a
  magnitude is the power of two its last bit counts (`FloatFormat.grid`), and rounding is
  `roundEven` on that grid.

  - `nearest_of_holds`, `holds_nearest`: rounding keeps what the format holds, and what it
    gives is held, below the overflow limit.
  - `nearest_mono`: rounding is monotone.
  - `nearest_shortest`: the shortest decimal rounds back to the number it is printed for.
-/

import TrinoGateway.Lib.Numeral

namespace TrinoGateway.Lib

/-! ## Nearest integer -/

/-- The nearest integer, ties to even. -/
def roundEven (x : ℚ) : ℤ :=
  let r := x - ⌊x⌋
  if r < 1 / 2 then ⌊x⌋ else if 1 / 2 < r then ⌊x⌋ + 1 else if ⌊x⌋ % 2 = 0 then ⌊x⌋ else ⌊x⌋ + 1

theorem floor_le_roundEven (x : ℚ) : ⌊x⌋ ≤ roundEven x := by
  unfold roundEven
  simp only
  split_ifs <;> omega

theorem roundEven_le_floor_add_one (x : ℚ) : roundEven x ≤ ⌊x⌋ + 1 := by
  unfold roundEven
  simp only
  split_ifs <;> omega

theorem roundEven_mono {x y : ℚ} (h : x ≤ y) : roundEven x ≤ roundEven y := by
  rcases (Int.floor_le_floor h).lt_or_eq with hlt | heq
  · have h1 := roundEven_le_floor_add_one x
    have h2 := floor_le_roundEven y
    omega
  · have hr : x - ⌊x⌋ ≤ y - ⌊y⌋ := by rw [heq]; linarith
    unfold roundEven
    simp only
    rw [heq] at hr ⊢
    split_ifs <;> first | omega | (exfalso; linarith)

@[simp] theorem roundEven_intCast (n : ℤ) : roundEven (n : ℚ) = n := by simp [roundEven]

/-! ## Formats -/

/-- A binary format: bits of precision, and the least and greatest power of two a last
    bit can count. -/
structure FloatFormat where
  prec : ℕ
  emin : ℤ
  emax : ℤ
  prec_pos : 0 < prec
  ordered : emin ≤ emax

def binary64 : FloatFormat := ⟨53, -1074, 971, by decide, by decide⟩

def binary32 : FloatFormat := ⟨24, -149, 104, by decide, by decide⟩

/-- The magnitudes of the format. -/
def FloatFormat.Holds (F : FloatFormat) (x : ℚ) : Prop :=
  ∃ (m : ℕ) (e : ℤ), m < 2 ^ F.prec ∧ F.emin ≤ e ∧ e ≤ F.emax ∧ x = m * 2 ^ e

/-- What rounds to it or beyond is infinite. -/
def FloatFormat.limit (F : FloatFormat) : ℚ := 2 ^ (F.emax + F.prec)

/-- The power of two the last bit of a magnitude counts. -/
def FloatFormat.grid (F : FloatFormat) (x : ℚ) : ℤ := max F.emin (Int.log 2 x - (F.prec - 1))

/-- Round to nearest, ties to even, with no upper limit. -/
def FloatFormat.nearest (F : FloatFormat) (x : ℚ) : ℚ := roundEven (x / 2 ^ F.grid x) * 2 ^ F.grid x

section
variable (F : FloatFormat) {x y : ℚ}

theorem two_zpow_pos (e : ℤ) : (0 : ℚ) < 2 ^ e := by positivity

theorem two_zpow_le {a b : ℤ} : (2 : ℚ) ^ a ≤ 2 ^ b ↔ a ≤ b := zpow_le_zpow_iff_right₀ (by norm_num)

theorem two_zpow_lt {a b : ℤ} : (2 : ℚ) ^ a < 2 ^ b ↔ a < b := zpow_lt_zpow_iff_right₀ (by norm_num)

theorem two_zpow_add (a b : ℤ) : (2 : ℚ) ^ (a + b) = 2 ^ a * 2 ^ b := zpow_add₀ (by norm_num) a b

theorem log_le (hx : 0 < x) : (2 : ℚ) ^ Int.log 2 x ≤ x := Int.zpow_log_le_self (b := 2) (by norm_num) hx

theorem lt_log (x : ℚ) : x < 2 ^ (Int.log 2 x + 1) := Int.lt_zpow_succ_log_self (b := 2) (by norm_num) x

/-- A multiple of the grid is where it is. -/
theorem roundEven_multiple {a u : ℤ} (n : ℤ) (h : u ≤ a) :
    (roundEven ((n : ℚ) * 2 ^ a / 2 ^ u) : ℚ) * 2 ^ u = n * 2 ^ a := by
  obtain ⟨j, rfl⟩ : ∃ j : ℕ, a = u + j := ⟨(a - u).toNat, by omega⟩
  have e : (n : ℚ) * 2 ^ (u + (j : ℤ)) / 2 ^ u = ((n * 2 ^ j : ℤ) : ℚ) := by
    rw [two_zpow_add, zpow_natCast]
    have := (two_zpow_pos u).ne'
    push_cast
    field_simp
  rw [e, roundEven_intCast, two_zpow_add, zpow_natCast]
  push_cast
  ring

/-- The grid of a number the format holds is not coarser than its last bit. -/
theorem grid_le_of_eq {m : ℕ} {e : ℤ} (hm : m < 2 ^ F.prec) (he : F.emin ≤ e) (hx : 0 < x) (h : x = m * 2 ^ e) :
    F.grid x ≤ e := by
  have hlt : x < 2 ^ ((F.prec : ℤ) + e) := by
    rw [h, two_zpow_add, zpow_natCast]
    exact mul_lt_mul_of_pos_right (by exact_mod_cast hm) (two_zpow_pos e)
  have hlog : Int.log 2 x < F.prec + e := two_zpow_lt.mp ((log_le hx).trans_lt hlt)
  exact max_le he (by omega)

/-- Rounding keeps what the format holds. -/
theorem nearest_of_holds (h : F.Holds x) : F.nearest x = x := by
  obtain ⟨m, e, hm, he, -, rfl⟩ := h
  rcases Nat.eq_zero_or_pos m with rfl | hpos
  · simp [FloatFormat.nearest, roundEven]
  · have hx : (0 : ℚ) < m * 2 ^ e := mul_pos (by exact_mod_cast hpos) (two_zpow_pos e)
    exact roundEven_multiple m (grid_le_of_eq F hm he hx rfl)

/-- Below a power of two on the grid, rounding stays below it. -/
theorem nearest_le_two_zpow {a : ℤ} (h : x ≤ 2 ^ a) (ha : F.grid x ≤ a) : F.nearest x ≤ 2 ^ a := by
  have e := roundEven_multiple 1 ha
  rw [Int.cast_one, one_mul] at e
  have hm := roundEven_mono (div_le_div_of_nonneg_right h (two_zpow_pos (F.grid x)).le)
  calc F.nearest x ≤ roundEven ((2 : ℚ) ^ a / 2 ^ F.grid x) * 2 ^ F.grid x :=
        mul_le_mul_of_nonneg_right (by exact_mod_cast hm) (two_zpow_pos _).le
    _ = 2 ^ a := e

theorem two_zpow_le_nearest {a : ℤ} (h : 2 ^ a ≤ x) (ha : F.grid x ≤ a) : 2 ^ a ≤ F.nearest x := by
  have e := roundEven_multiple 1 ha
  rw [Int.cast_one, one_mul] at e
  have hm := roundEven_mono (div_le_div_of_nonneg_right h (two_zpow_pos (F.grid x)).le)
  calc (2 : ℚ) ^ a = roundEven ((2 : ℚ) ^ a / 2 ^ F.grid x) * 2 ^ F.grid x := e.symm
    _ ≤ F.nearest x := mul_le_mul_of_nonneg_right (by exact_mod_cast hm) (two_zpow_pos _).le

theorem nearest_nonneg (hx : 0 ≤ x) : 0 ≤ F.nearest x := by
  have h0 : (0 : ℤ) ≤ roundEven (x / 2 ^ F.grid x) := by
    have := roundEven_mono (div_nonneg hx (two_zpow_pos (F.grid x)).le)
    simpa using (roundEven_intCast 0 ▸ this : (0 : ℤ) ≤ _)
  exact mul_nonneg (by exact_mod_cast h0) (two_zpow_pos _).le

theorem grid_mono (hx : 0 < x) (h : x ≤ y) : F.grid x ≤ F.grid y := by
  have := Int.log_mono_right (b := 2) hx h
  simp only [FloatFormat.grid]
  omega

theorem nearest_mono (hx : 0 ≤ x) (h : x ≤ y) : F.nearest x ≤ F.nearest y := by
  rcases hx.eq_or_lt with rfl | hpos
  · have e : F.nearest 0 = 0 := by simp [FloatFormat.nearest, roundEven]
    rw [e]
    exact nearest_nonneg F h
  · rcases (grid_mono F hpos h).eq_or_lt with hg | hg
    · -- one grid
      rw [FloatFormat.nearest, FloatFormat.nearest, hg]
      have hm := roundEven_mono (div_le_div_of_nonneg_right h (two_zpow_pos (F.grid y)).le)
      exact mul_le_mul_of_nonneg_right (by exact_mod_cast hm) (two_zpow_pos _).le
    · -- a power of two lies between the two
      have hp := F.prec_pos
      have hgy : F.grid y = Int.log 2 y - (F.prec - 1) := by
        simp only [FloatFormat.grid] at hg ⊢
        omega
      have hlog : Int.log 2 x + 1 ≤ Int.log 2 y := by
        simp only [FloatFormat.grid] at hg
        omega
      have hxa : x ≤ 2 ^ Int.log 2 y := (lt_log x).le.trans (two_zpow_le.mpr hlog)
      exact (nearest_le_two_zpow F hxa (by omega)).trans
        (two_zpow_le_nearest F (log_le (hpos.trans_le h)) (by omega))

/-- What rounding gives below the limit is held. -/
theorem holds_nearest (hx : 0 ≤ x) (hlim : F.nearest x < F.limit) : F.Holds (F.nearest x) := by
  rcases hx.eq_or_lt with rfl | hpos
  · exact ⟨0, F.emin, by positivity, le_rfl, F.ordered, by simp [FloatFormat.nearest, roundEven]⟩
  have hp := F.prec_pos
  have hmin : F.emin ≤ F.grid x := le_max_left _ _
  have hlog : Int.log 2 x - (F.prec - 1) ≤ F.grid x := le_max_right _ _
  -- the rounded count of grid steps is at most 2 ^ prec
  obtain ⟨m, hm⟩ : ∃ m : ℕ, roundEven (x / 2 ^ F.grid x) = m :=
    Int.eq_ofNat_of_zero_le <| by
      have := roundEven_mono (div_nonneg hx (two_zpow_pos (F.grid x)).le)
      exact (roundEven_intCast 0 ▸ this : (0 : ℤ) ≤ _)
  have hn : F.nearest x = m * 2 ^ F.grid x := by rw [FloatFormat.nearest, hm]; rfl
  have hle : (m : ℚ) * 2 ^ F.grid x ≤ 2 ^ ((F.prec : ℤ) + F.grid x) := by
    rw [← hn]
    exact nearest_le_two_zpow F ((lt_log x).le.trans (two_zpow_le.mpr (by omega))) (by omega)
  rw [two_zpow_add, zpow_natCast] at hle
  have hm2 : m ≤ 2 ^ F.prec := by exact_mod_cast le_of_mul_le_mul_right hle (two_zpow_pos _)
  rw [FloatFormat.limit] at hlim
  rcases hm2.lt_or_eq with hlt | heq
  · refine ⟨m, F.grid x, hlt, hmin, ?_, hn⟩
    by_contra hgt
    have hg : F.grid x = Int.log 2 x - (F.prec - 1) := by
      have := F.ordered
      simp only [FloatFormat.grid] at hgt ⊢
      omega
    have hge := two_zpow_le_nearest F (log_le hpos) (by omega)
    exact absurd (two_zpow_lt.mp (hge.trans_lt hlim)) (by omega)
  · refine ⟨2 ^ (F.prec - 1), F.grid x + 1, Nat.pow_lt_pow_right (by norm_num) (by omega), by omega, ?_, ?_⟩
    · rw [hn, heq] at hlim
      have hlim' : (2 : ℚ) ^ ((F.prec : ℤ) + F.grid x) < 2 ^ (F.emax + F.prec) := by
        rw [two_zpow_add, zpow_natCast]
        exact_mod_cast hlim
      have := two_zpow_lt.mp hlim'
      omega
    · rw [hn, heq]
      obtain ⟨k, hk⟩ : ∃ k, F.prec = k + 1 := ⟨F.prec - 1, by omega⟩
      rw [hk, two_zpow_add, Nat.add_sub_cancel]
      push_cast
      ring

theorem holds_two_zpow {a : ℤ} (h1 : F.emin ≤ a) (h2 : a < F.emax + F.prec) : F.Holds (2 ^ a) := by
  have hp := F.prec_pos
  by_cases ha : a ≤ F.emax
  · exact ⟨1, a, Nat.one_lt_two_pow (by omega), h1, ha, by simp⟩
  · refine ⟨2 ^ (a - F.emax).toNat, F.emax, Nat.pow_lt_pow_right (by norm_num) (by omega), F.ordered, le_rfl, ?_⟩
    push_cast
    rw [← zpow_natCast, ← two_zpow_add]
    congr 1
    omega

/-- What rounds to zero is below every power of two of the format. -/
theorem lt_of_nearest_eq_zero {a : ℤ} (h1 : F.emin ≤ a) (h2 : a < F.emax + F.prec) (h : F.nearest x = 0) :
    x < 2 ^ a := by
  by_contra hlarge
  have hmono := nearest_mono F (two_zpow_pos a).le (not_lt.mp hlarge)
  rw [nearest_of_holds F (holds_two_zpow F h1 h2), h] at hmono
  exact absurd (two_zpow_pos a) (not_lt.mpr hmono)
end

/-! ## Numbers of a format -/

structure Finite (F : FloatFormat) where
  neg : Bool
  mag : ℚ
  holds : F.Holds mag

inductive Binary (F : FloatFormat) where
  | finite (x : Finite F)
  | infinite (neg : Bool)
  | nan

def Finite.val {F : FloatFormat} (x : Finite F) : ℚ := signed x.neg x.mag

/-- `trunc`: towards zero. -/
def Finite.trunc {F : FloatFormat} (x : Finite F) : ℤ := signed x.neg ⌊x.mag⌋

/-- The number of the format nearest to a magnitude, with a sign. -/
def FloatFormat.ofRat (F : FloatFormat) (neg : Bool) (x : ℚ) : Binary F :=
  if h : 0 ≤ x ∧ F.nearest x < F.limit then .finite ⟨neg, F.nearest x, holds_nearest F h.1 h.2⟩ else .infinite neg

/-- A number converted to another format. -/
def Binary.cast {F : FloatFormat} (G : FloatFormat) : Binary F → Binary G
  | .finite x => G.ofRat x.neg x.mag
  | .infinite neg => .infinite neg
  | .nan => .nan

/-- The interchange encoding in `w` bits: sign, biased exponent, and the bits after the
    leading one. -/
def Binary.bits {F : FloatFormat} (w : ℕ) : Binary F → ℕ
  | .finite x =>
    let m := ⌊x.mag / 2 ^ F.grid x.mag⌋.toNat
    let body := if m < 2 ^ (F.prec - 1) then m
      else (F.grid x.mag - F.emin + 1).toNat * 2 ^ (F.prec - 1) + (m - 2 ^ (F.prec - 1))
    (if x.neg then 2 ^ (w - 1) else 0) + body
  | .infinite neg => (if neg then 2 ^ (w - 1) else 0) + (F.emax - F.emin + 2).toNat * 2 ^ (F.prec - 1)
  | .nan => (F.emax - F.emin + 2).toNat * 2 ^ (F.prec - 1) + 2 ^ (F.prec - 2)

theorem FloatFormat.Holds.nonneg {F : FloatFormat} {x : ℚ} (h : F.Holds x) : 0 ≤ x := by
  obtain ⟨m, e, -, -, -, rfl⟩ := h
  positivity

/-- A number of at least 2 to the precision is whole. -/
theorem floor_of_large {F : FloatFormat} {x : ℚ} (h : F.Holds x) (hx : 2 ^ F.prec ≤ x) : (⌊x⌋ : ℚ) = x := by
  obtain ⟨m, e, hm, -, -, rfl⟩ := h
  have he : 0 ≤ e := by
    by_contra hneg
    have h1 : (2 : ℚ) ^ e ≤ 1 := zpow_le_one_of_nonpos₀ (by norm_num) (by omega)
    have h2 : (m : ℚ) * 2 ^ e ≤ m := mul_le_of_le_one_right (by positivity) h1
    have h3 : (m : ℚ) < 2 ^ F.prec := by exact_mod_cast hm
    linarith
  obtain ⟨n, rfl⟩ := Int.eq_ofNat_of_zero_le he
  have e1 : (m : ℚ) * 2 ^ (n : ℤ) = ((m * 2 ^ n : ℤ) : ℚ) := by push_cast; rfl
  rw [e1, Int.floor_intCast]

/-! ## The shortest decimal -/

/-- `x` written with all its digits; a binary fraction's denominator divides a power of ten. -/
def exactDecimal (x : ℚ) : ℕ × ℤ := (x.num.toNat * 5 ^ Nat.log2 x.den, -Nat.log2 x.den)

/-- The decimals of `n` digits around `x`, the nearer one if both round to `x`, and then
    those of `n + 1`. -/
def FloatFormat.shortestFrom (F : FloatFormat) (x : ℚ) : ℕ → ℕ → ℕ × ℤ
  | 0, _ => exactDecimal x
  | fuel + 1, n =>
    let k := Int.log 10 x - (n - 1)
    let low := ⌊x / 10 ^ k⌋.toNat
    let down := F.nearest (low * 10 ^ k) = x
    let up := F.nearest ((low + 1 : ℕ) * 10 ^ k) = x
    if up ∧ (¬ down ∨ (2 * low + 1 : ℕ) * 10 ^ k ≤ 2 * x) then (low + 1, k)
    else if down then (low, k)
    else F.shortestFrom x fuel (n + 1)

/-- The digits and the exponent of the shortest decimal number that rounds to `x`; 17
    digits are enough for 53 bits. -/
def FloatFormat.shortest (F : FloatFormat) (x : ℚ) : ℕ × ℤ := if x = 0 then (0, 0) else F.shortestFrom x 17 1

/-- The denominator of a number of a binary format is a power of two. -/
theorem den_of_holds {F : FloatFormat} {x : ℚ} (h : F.Holds x) : ∃ j, x.den = 2 ^ j := by
  obtain ⟨m, e, -, -, -, rfl⟩ := h
  rcases le_total 0 e with he | he
  · obtain ⟨n, rfl⟩ := Int.eq_ofNat_of_zero_le he
    refine ⟨0, ?_⟩
    have : (m : ℚ) * 2 ^ (n : ℤ) = ((m * 2 ^ n : ℕ) : ℚ) := by push_cast; rfl
    rw [this]
    exact Rat.den_natCast _
  · obtain ⟨n, rfl⟩ : ∃ n : ℕ, e = -n := ⟨(-e).toNat, by omega⟩
    have hq : (m : ℚ) * 2 ^ (-(n : ℤ)) = Rat.divInt m (2 ^ n : ℕ) := by
      rw [Rat.divInt_eq_div, zpow_neg, zpow_natCast, ← div_eq_mul_inv]
      push_cast
      rfl
    have hd : (Rat.divInt m (2 ^ n : ℕ)).den ∣ 2 ^ n := by exact_mod_cast Rat.den_dvd m (2 ^ n : ℕ)
    obtain ⟨j, -, hj⟩ := (Nat.dvd_prime_pow Nat.prime_two).mp hd
    exact ⟨j, by rw [hq, hj]⟩

theorem exactDecimal_eq {F : FloatFormat} {x : ℚ} (h : F.Holds x) : ((exactDecimal x).1 : ℚ) * 10 ^ (exactDecimal x).2 = x := by
  have hnum : ((x.num.toNat : ℕ) : ℚ) = x.num := by
    have := Int.toNat_of_nonneg (Rat.num_nonneg.mpr h.nonneg)
    exact_mod_cast this
  obtain ⟨j, hj⟩ := den_of_holds h
  have hl : Nat.log2 x.den = j := by rw [hj]; exact Nat.log2_two_pow
  have h10 : (10 : ℚ) ^ j = 5 ^ j * 2 ^ j := by rw [← mul_pow]; norm_num
  rw [exactDecimal, hl, zpow_neg, zpow_natCast, h10]
  push_cast
  rw [hnum]
  have hx : x * 2 ^ j = x.num := by
    have := Rat.mul_den_eq_num x
    rw [hj] at this
    exact_mod_cast this
  rw [← hx]
  field_simp

/-- The shortest decimal rounds back. -/
theorem nearest_shortest {F : FloatFormat} {x : ℚ} (h : F.Holds x) :
    F.nearest ((F.shortest x).1 * 10 ^ (F.shortest x).2) = x := by
  have hgo : ∀ fuel n, F.nearest ((F.shortestFrom x fuel n).1 * 10 ^ (F.shortestFrom x fuel n).2) = x := by
    intro fuel
    induction fuel with
    | zero =>
      intro n
      rw [FloatFormat.shortestFrom, exactDecimal_eq h]
      exact nearest_of_holds F h
    | succ fuel ih =>
      intro n
      simp only [FloatFormat.shortestFrom]
      split_ifs with hup hdown
      · exact hup.1
      · exact hdown
      · exact ih (n + 1)
  unfold FloatFormat.shortest
  split_ifs with h0
  · rw [h0]; simp [FloatFormat.nearest, roundEven]
  · exact hgo 17 1

end TrinoGateway.Lib
