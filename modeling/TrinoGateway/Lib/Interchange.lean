/-
  TrinoGateway.Lib.Interchange — how a binary floating-point number is read from a text and
  from its interchange encoding.

  - `readUnsigned_decimalText`: a decimal that is written out is read back exactly, and
    `readFloat_signed`: as the nearest number of the format.
  - `ofBits_bits`: the encoding in bits is read back, if the exponents fill their field.
-/

import TrinoGateway.Lib.Rounding

namespace TrinoGateway.Lib

/-! ## Texts -/

theorem ofDigitChars_natText (n : ℕ) : Nat.ofDigitChars 10 (natText n) 0 = n := Nat.ofDigitChars_ten_toDigits

/-- Digits, a point and digits. -/
theorem readUnsigned_point {whole fraction : Text} (hwhole : isNumeral whole = true)
    (hfraction : ∀ c ∈ fraction, c.isDigit = true) :
    readUnsigned (whole ++ '.' :: fraction) =
      some ((Nat.ofDigitChars 10 (whole ++ fraction) 0 : ℚ) * 10 ^ (-(fraction.length : ℤ))) := by
  have hdigits : ∀ c ∈ whole, c.isDigit = true := by
    simp only [isNumeral, Bool.and_eq_true, List.all_eq_true] at hwhole
    exact hwhole.2
  have hne : whole ≠ [] := by
    rintro rfl
    exact absurd hwhole (by decide)
  have htake : (whole ++ '.' :: fraction).takeWhile Char.isDigit = whole := by
    rw [List.takeWhile_append_of_pos hdigits]
    simp
  have hdrop : (whole ++ '.' :: fraction).dropWhile Char.isDigit = '.' :: fraction := by
    rw [List.dropWhile_append_of_pos hdigits]
    simp
  have hsplit : splitFraction ('.' :: fraction) = (fraction, []) := by
    simp only [splitFraction, List.span_eq_takeWhile_dropWhile, List.takeWhile_eq_self_iff.mpr hfraction,
      List.dropWhile_eq_nil_iff.mpr hfraction]
  simp [readUnsigned, htake, hdrop, hsplit, readExponent, hne]

theorem ofDigitChars_zeros (s : Text) (z : ℕ) :
    Nat.ofDigitChars 10 (s ++ List.replicate z '0') 0 = 10 ^ z * Nat.ofDigitChars 10 s 0 := by
  rw [Nat.ofDigitChars_append, Nat.ofDigitChars_replicate_zero]

theorem readUnsigned_decimalText (d : ℕ) (k : ℤ) : readUnsigned (decimalText d k) = some ((d : ℚ) * 10 ^ k) := by
  unfold decimalText
  split_ifs with hk
  · obtain ⟨n, rfl⟩ := Int.eq_ofNat_of_zero_le hk
    rw [readUnsigned_numeral (natText_isNumeral _), ofDigitChars_natText]
    push_cast
    rfl
  · obtain ⟨j, rfl⟩ : ∃ j : ℕ, k = -(j : ℤ) := ⟨(-k).toNat, by omega⟩
    simp only [neg_neg, Int.toNat_natCast]
    split_ifs with hnone
    · have hzero := eq_zero_of_trimZeros_pad hnone
      have hexact : ((d / 10 ^ j : ℕ) : ℚ) * 10 ^ j = d := by
        exact_mod_cast Nat.div_mul_cancel (Nat.dvd_of_mod_eq_zero hzero)
      rw [List.append_nil, readUnsigned_numeral (natText_isNumeral _), ofDigitChars_natText, ← hexact, zpow_neg,
        zpow_natCast, mul_assoc, mul_inv_cancel₀ (by positivity), mul_one]
    · have hj : 0 < j := by omega
      -- The zeros that were trimmed count in the exponent instead.
      obtain ⟨z, hz⟩ := trimZeros_append (pad j (d % 10 ^ j))
      have hdigits : ∀ c ∈ trimZeros (pad j (d % 10 ^ j)), c.isDigit = true := fun c hc =>
        pad_isDigit ((List.rdropWhile_prefix _ _).subset hc)
      have hlength : (trimZeros (pad j (d % 10 ^ j))).length + z = j := by
        have hpad := pad_length hj (Nat.mod_lt d (pow_pos (by norm_num : 0 < 10) j))
        rw [hz, List.length_append, List.length_replicate] at hpad
        exact hpad
      have hvalue : 10 ^ z * Nat.ofDigitChars 10 (natText (d / 10 ^ j) ++ trimZeros (pad j (d % 10 ^ j))) 0 = d := by
        rw [← ofDigitChars_zeros, List.append_assoc, ← hz, Nat.ofDigitChars_append, ofDigitChars_natText,
          Nat.ofDigitChars_eq_ofDigitChars_zero, ofDigitChars_pad,
          pad_length hj (Nat.mod_lt d (pow_pos (by norm_num : 0 < 10) j))]
        exact Nat.div_add_mod d (10 ^ j)
      rw [readUnsigned_point (natText_isNumeral _) hdigits]
      generalize Nat.ofDigitChars 10 (natText (d / 10 ^ j) ++ trimZeros (pad j (d % 10 ^ j))) 0 = n at hvalue ⊢
      generalize (trimZeros (pad j (d % 10 ^ j))).length = l at hlength ⊢
      rw [← hvalue, ← hlength]
      push_cast
      rw [neg_add, zpow_add₀ (by norm_num), zpow_neg _ (z : ℤ), zpow_natCast]
      field_simp

/-- The number of the format nearest to a decimal, and the names of the others, in any case. -/
def readFloat (F : FloatFormat) (s : Text) : Option (Binary F) :=
  let name := (splitSign s).2.map Char.toLower
  if name = "inf".toList ∨ name = "infinity".toList then some (.infinite (splitSign s).1)
  else if name = "nan".toList then some .nan
  else (readUnsigned (splitSign s).2).map (F.ofRat (splitSign s).1)

/-- A number does not begin as the names do. -/
theorem lower_of_number {c : Char} (h : c.isDigit = true ∨ c = '.') : c.toLower ≠ 'i' ∧ c.toLower ≠ 'n' := by
  rcases h with hdigit | hpoint
  · have hascii : isAscii c = true := by
      simp only [Char.isDigit, Bool.and_eq_true, decide_eq_true_eq] at hdigit
      have : c.toNat ≤ 57 := hdigit.2
      simp only [isAscii, decide_eq_true_eq]
      omega
    exact ascii_cases (P := fun c => c.isDigit = true → c.toLower ≠ 'i' ∧ c.toLower ≠ 'n') (by decide) c hascii hdigit
  · rw [hpoint]
    decide

theorem splitSign_unsigned {s : Text} {v : ℚ} (h : readUnsigned s = some v) : splitSign s = (false, s) := by
  obtain ⟨c, t, rfl, hhead⟩ := readUnsigned_head h
  rcases hhead with hdigit | hpoint
  · exact splitSign_digit hdigit
  · rw [hpoint]
    rfl

/-- A number with its sign is read as the nearest number of the format. -/
theorem readFloat_signed (F : FloatFormat) (neg : Bool) {s : Text} {v : ℚ} (h : readUnsigned s = some v) :
    readFloat F ((if neg then ['-'] else []) ++ s) = some (F.ofRat neg v) := by
  have hsign : splitSign ((if neg then ['-'] else []) ++ s) = (neg, s) := by
    cases neg with
    | true => rfl
    | false => exact splitSign_unsigned h
  obtain ⟨c, t, hcons, hhead⟩ := readUnsigned_head h
  obtain ⟨hi, hn⟩ := lower_of_number hhead
  unfold readFloat
  rw [hsign]
  simp only [h, Option.map_some]
  rw [hcons, List.map_cons, if_neg, if_neg]
  · intro hnan
    exact hn (List.cons.inj hnan).1
  · intro hinf
    rcases hinf with hinf | hinf
    · exact hi (List.cons.inj hinf).1
    · exact hi (List.cons.inj hinf).1

/-! ## Conversion -/

theorem ofRat_congr {F : FloatFormat} {x y : ℚ} (neg : Bool) (hx : 0 ≤ x) (hy : 0 ≤ y) (h : F.nearest x = F.nearest y) :
    F.ofRat neg x = F.ofRat neg y := by
  unfold FloatFormat.ofRat
  simp only [hx, hy, h, true_and]

theorem ofRat_mag {F : FloatFormat} (x : Finite F) : F.ofRat x.neg x.mag = .finite x := by
  obtain ⟨neg, mag, hholds⟩ := x
  have hnearest := nearest_of_holds F hholds
  have hlimit : mag < F.limit := by
    obtain ⟨m, e, hm, _, he, rfl⟩ := hholds
    unfold FloatFormat.limit
    calc (m : ℚ) * 2 ^ e < 2 ^ F.prec * 2 ^ e := mul_lt_mul_of_pos_right (by exact_mod_cast hm) (two_zpow_pos e)
      _ ≤ 2 ^ F.prec * 2 ^ F.emax := mul_le_mul_of_nonneg_left (two_zpow_le.mpr he) (by positivity)
      _ = 2 ^ (F.emax + F.prec) := by rw [two_zpow_add, zpow_natCast, mul_comm]
  unfold FloatFormat.ofRat
  simp only [hnearest]
  rw [dif_pos ⟨hholds.nonneg, hlimit⟩]

/-- Converting to its own format changes nothing. -/
@[simp] theorem cast_self {F : FloatFormat} (f : Binary F) : f.cast F = f := by
  cases f with
  | finite x => exact ofRat_mag x
  | infinite neg => rfl
  | nan => rfl

/-- A format whose numbers another format can have halfway between its own. -/
structure FloatFormat.Finer (F G : FloatFormat) : Prop where
  prec : G.prec < F.prec
  emin : F.emin < G.emin
  limit : G.emax + G.prec < F.emax + F.prec

theorem nearest_limit (F : FloatFormat) {a : ℤ} (h : F.emin ≤ a) : F.nearest (2 ^ a) = 2 ^ a := by
  have hone : (1 : ℤ) < 2 ^ F.prec := by exact_mod_cast Nat.one_lt_two_pow F.prec_pos.ne'
  simpa using nearest_of_bits F one_pos hone h

/-- A number read in a finer format and then converted is the number itself, unless the finer one is halfway. -/
theorem cast_ofRat {F G : FloatFormat} (hfiner : F.Finer G) {x : ℚ} (neg : Bool) (hx : 0 ≤ x)
    (h : ∀ y, F.ofRat neg x = .finite y → ¬ G.Halfway y.mag) : (F.ofRat neg x).cast G = G.ofRat neg x := by
  by_cases hfinite : F.nearest x < F.limit
  · have heq : F.ofRat neg x = .finite ⟨neg, F.nearest x, holds_nearest F hx hfinite⟩ := by
      unfold FloatFormat.ofRat
      rw [dif_pos ⟨hx, hfinite⟩]
    have hhalf := h _ heq
    rw [heq]
    exact ofRat_congr neg (nearest_nonneg F hx) hx (nearest_nearest F hfiner.prec hfiner.emin hx hhalf)
  · have hinfinite : F.ofRat neg x = .infinite neg := by
      unfold FloatFormat.ofRat
      rw [dif_neg (fun hcon => hfinite hcon.2)]
    -- What is beyond the finer format is beyond the other one.
    have hbeyond : ¬ G.nearest x < G.limit := by
      intro hlt
      have hordered := G.ordered
      have hbelow : x < G.limit := by
        by_contra hge
        have hmono := nearest_mono G (two_zpow_pos _).le (not_lt.mp hge)
        rw [nearest_limit G (by omega)] at hmono
        exact absurd hlt (not_lt.mpr hmono)
      have hmono := nearest_mono F hx hbelow.le
      have hemin := hfiner.emin
      rw [show G.limit = 2 ^ (G.emax + G.prec) from rfl, nearest_limit F (by omega)] at hmono
      exact hfinite (hmono.trans_lt (two_zpow_lt.mpr hfiner.limit))
    rw [hinfinite]
    unfold FloatFormat.ofRat
    rw [dif_neg (fun hcon => hbeyond hcon.2)]
    rfl

/-- The same for what is read from a text. -/
theorem readFloat_cast {F G : FloatFormat} (hfiner : F.Finer G) {s : Text} {f : Binary F}
    (hread : readFloat F s = some f) (h : ∀ y, f = .finite y → ¬ G.Halfway y.mag) :
    readFloat G s = some (f.cast G) := by
  unfold readFloat at hread ⊢
  dsimp only at hread ⊢
  split_ifs at hread ⊢ with hinf hnan
  · cases hread
    rfl
  · cases hread
    rfl
  · obtain ⟨x, hx, rfl⟩ := Option.map_eq_some_iff.mp hread
    rw [hx, Option.map_some, cast_ofRat hfiner _ (readUnsigned_nonneg hx) h]

/-! ## Bits -/

/-- The largest exponent field, of infinities and NaNs. -/
def FloatFormat.top (F : FloatFormat) : ℕ := (F.emax - F.emin + 2).toNat

/-- The magnitude with these bits after the leading one. -/
def FloatFormat.magnitude (F : FloatFormat) (field fraction : ℕ) : ℚ :=
  if field = 0 then fraction * 2 ^ F.emin else (2 ^ (F.prec - 1) + fraction : ℕ) * 2 ^ (F.emin + field - 1)

theorem holds_magnitude (F : FloatFormat) {field fraction : ℕ} (hfield : field < F.top)
    (hfraction : fraction < 2 ^ (F.prec - 1)) : F.Holds (F.magnitude field fraction) := by
  have hprec : 2 ^ (F.prec - 1) + 2 ^ (F.prec - 1) = 2 ^ F.prec := by
    rw [← two_mul, ← pow_succ', Nat.sub_add_cancel F.prec_pos]
  have hordered := F.ordered
  unfold FloatFormat.top at hfield
  unfold FloatFormat.magnitude
  split_ifs with hzero
  · exact ⟨fraction, F.emin, by omega, le_rfl, hordered, rfl⟩
  · exact ⟨2 ^ (F.prec - 1) + fraction, F.emin + field - 1, by omega, by omega, by omega, rfl⟩

/-- The number an encoding in `w` bits stands for. -/
def FloatFormat.ofBits (F : FloatFormat) (w n : ℕ) : Binary F :=
  let neg := decide (2 ^ (w - 1) ≤ n)
  let body := n % 2 ^ (w - 1)
  let field := body / 2 ^ (F.prec - 1)
  let fraction := body % 2 ^ (F.prec - 1)
  if h : field < F.top then
    .finite ⟨neg, F.magnitude field fraction, holds_magnitude F h (Nat.mod_lt _ (Nat.two_pow_pos _))⟩
  else if fraction = 0 then .infinite neg else .nan

section

variable {F : FloatFormat} {w : ℕ}

/-- The exponent fields fill the bits between the sign and the fraction. -/
def FloatFormat.Fills (F : FloatFormat) (w : ℕ) : Prop := 2 ^ (w - 1) = (F.top + 1) * 2 ^ (F.prec - 1)

/-- The bits of a sign, an exponent field and a fraction. -/
def FloatFormat.pack (F : FloatFormat) (w : ℕ) (neg : Bool) (field fraction : ℕ) : ℕ :=
  (if neg then 2 ^ (w - 1) else 0) + (field * 2 ^ (F.prec - 1) + fraction)

theorem body_lt {field fraction : ℕ} (hw : F.Fills w) (hfield : field ≤ F.top)
    (hfraction : fraction < 2 ^ (F.prec - 1)) : field * 2 ^ (F.prec - 1) + fraction < 2 ^ (w - 1) := by
  rw [show 2 ^ (w - 1) = (F.top + 1) * 2 ^ (F.prec - 1) from hw]
  calc field * 2 ^ (F.prec - 1) + fraction < (field + 1) * 2 ^ (F.prec - 1) := by rw [Nat.succ_mul]; omega
    _ ≤ (F.top + 1) * 2 ^ (F.prec - 1) := Nat.mul_le_mul_right _ (by omega)

theorem unpack (neg : Bool) {field fraction : ℕ} (hw : F.Fills w) (hfield : field ≤ F.top)
    (hfraction : fraction < 2 ^ (F.prec - 1)) :
    decide (2 ^ (w - 1) ≤ F.pack w neg field fraction) = neg ∧
      F.pack w neg field fraction % 2 ^ (w - 1) / 2 ^ (F.prec - 1) = field ∧
      F.pack w neg field fraction % 2 ^ (w - 1) % 2 ^ (F.prec - 1) = fraction := by
  have hbody := body_lt hw hfield hfraction
  have hmod : F.pack w neg field fraction % 2 ^ (w - 1) = field * 2 ^ (F.prec - 1) + fraction := by
    cases neg with
    | false =>
      simp only [FloatFormat.pack, Bool.false_eq_true, if_false, Nat.zero_add]
      exact Nat.mod_eq_of_lt hbody
    | true =>
      simp only [FloatFormat.pack, if_true, Nat.add_mod_left]
      exact Nat.mod_eq_of_lt hbody
  refine ⟨?_, ?_, ?_⟩
  · cases neg with
    | false =>
      simp only [FloatFormat.pack, Bool.false_eq_true, if_false, Nat.zero_add, decide_eq_false_iff_not, not_le]
      exact hbody
    | true => simp [FloatFormat.pack]
  · rw [hmod, Nat.mul_comm, Nat.mul_add_div (Nat.two_pow_pos _), Nat.div_eq_of_lt hfraction, Nat.add_zero]
  · rw [hmod, Nat.mul_comm, Nat.mul_add_mod, Nat.mod_eq_of_lt hfraction]

theorem ofBits_pack {neg : Bool} {field fraction : ℕ} (hw : F.Fills w) (hfield : field < F.top)
    (hfraction : fraction < 2 ^ (F.prec - 1)) :
    F.ofBits w (F.pack w neg field fraction) =
      .finite ⟨neg, F.magnitude field fraction, holds_magnitude F hfield hfraction⟩ := by
  obtain ⟨hneg, hf, hr⟩ := unpack neg hw hfield.le hfraction
  unfold FloatFormat.ofBits
  simp only [hneg, hf, hr, hfield, dif_pos]

theorem ofBits_top {neg : Bool} {fraction : ℕ} (hw : F.Fills w) (hfraction : fraction < 2 ^ (F.prec - 1)) :
    F.ofBits w (F.pack w neg F.top fraction) = if fraction = 0 then .infinite neg else .nan := by
  obtain ⟨hneg, hf, hr⟩ := unpack neg hw le_rfl hfraction
  unfold FloatFormat.ofBits
  simp only [hneg, hf, hr, lt_irrefl, dif_neg, not_false_eq_true]

theorem grid_le_emax {x : ℚ} (hx : 0 < x) (h : F.Holds x) : F.grid x ≤ F.emax := by
  obtain ⟨m, e, hm, hemin, hemax, heq⟩ := h
  exact (grid_le_of_eq F hm hemin hx heq).trans hemax

/-- A number with fewer steps than a binade has is on the least grid. -/
theorem grid_of_few_steps {x : ℚ} (hx : 0 < x) (h : F.steps x < 2 ^ (F.prec - 1)) : F.grid x = F.emin := by
  apply max_eq_left
  by_contra hnormal
  have hsteps := (le_steps_of_normal F hx (le_of_not_ge hnormal)).2
  omega

/-- The fields of a magnitude: the steps below it, and where its grid is. -/
theorem exists_fields {x : ℚ} (h : F.Holds x) :
    ∃ field fraction, field < F.top ∧ fraction < 2 ^ (F.prec - 1) ∧ F.magnitude field fraction = x ∧
      (if (F.steps x).toNat < 2 ^ (F.prec - 1) then (F.steps x).toNat
        else (F.grid x - F.emin + 1).toNat * 2 ^ (F.prec - 1) + ((F.steps x).toNat - 2 ^ (F.prec - 1))) =
        field * 2 ^ (F.prec - 1) + fraction := by
  have hmul := steps_of_nearest F (nearest_of_holds F h)
  have hnonneg : 0 ≤ F.steps x := Int.floor_nonneg.mpr (div_nonneg h.nonneg (two_zpow_pos _).le)
  have hlt := steps_lt F x
  have hordered := F.ordered
  have hprec : 2 ^ (F.prec - 1) + 2 ^ (F.prec - 1) = 2 ^ F.prec := by
    rw [← two_mul, ← pow_succ', Nat.sub_add_cancel F.prec_pos]
  obtain ⟨m, hm⟩ := Int.eq_ofNat_of_zero_le hnonneg
  have hm_lt : m < 2 ^ F.prec := by
    rw [hm] at hlt
    exact_mod_cast hlt
  have hvalue : (m : ℚ) * 2 ^ F.grid x = x := by
    rw [hm] at hmul
    exact_mod_cast hmul.symm
  rw [hm, Int.toNat_natCast]
  by_cases hfew : m < 2 ^ (F.prec - 1)
  · refine ⟨0, m, by unfold FloatFormat.top; omega, hfew, ?_, by rw [if_pos hfew, Nat.zero_mul, Nat.zero_add]⟩
    unfold FloatFormat.magnitude
    rw [if_pos rfl]
    rcases Nat.eq_zero_or_pos m with hzero | hpos
    · rw [hzero, Nat.cast_zero, zero_mul] at hvalue ⊢
      exact hvalue
    · have hx : 0 < x := by
        rw [← hvalue]
        exact mul_pos (by exact_mod_cast hpos) (two_zpow_pos _)
      rw [← grid_of_few_steps hx (by rw [hm]; exact_mod_cast hfew)]
      exact hvalue
  · have hx : 0 < x := by
      have hpos : 0 < m := lt_of_lt_of_le (Nat.two_pow_pos _) (not_lt.mp hfew)
      rw [← hvalue]
      exact mul_pos (by exact_mod_cast hpos) (two_zpow_pos _)
    have hemax := grid_le_emax hx h
    have hemin : F.emin ≤ F.grid x := le_max_left _ _
    refine ⟨(F.grid x - F.emin + 1).toNat, m - 2 ^ (F.prec - 1), by unfold FloatFormat.top; omega, by omega, ?_,
      by rw [if_neg hfew]⟩
    have hexponent : F.emin + ((F.grid x - F.emin + 1).toNat : ℤ) - 1 = F.grid x := by omega
    unfold FloatFormat.magnitude
    rw [if_neg (by omega), hexponent, Nat.add_sub_cancel' (not_lt.mp hfew)]
    exact hvalue

theorem bits_finite (w : ℕ) (x : Finite F) :
    ∃ field fraction, field < F.top ∧ fraction < 2 ^ (F.prec - 1) ∧ F.magnitude field fraction = x.mag ∧
      (Binary.finite x).bits w = F.pack w x.neg field fraction := by
  obtain ⟨field, fraction, hfield, hfraction, hmag, hbody⟩ := exists_fields x.holds
  refine ⟨field, fraction, hfield, hfraction, hmag, ?_⟩
  unfold Binary.bits FloatFormat.pack
  rw [← hbody]
  rfl

theorem bits_infinite (w : ℕ) (neg : Bool) : (Binary.infinite neg : Binary F).bits w = F.pack w neg F.top 0 := rfl

theorem bits_nan (w : ℕ) : (Binary.nan : Binary F).bits w = F.pack w false F.top (2 ^ (F.prec - 2)) := by
  simp [Binary.bits, FloatFormat.pack, FloatFormat.top]

theorem quiet_lt (hprec : 2 ≤ F.prec) : 2 ^ (F.prec - 2) < 2 ^ (F.prec - 1) :=
  Nat.pow_lt_pow_right (by norm_num) (by omega)

/-- The interchange encoding is read back. -/
theorem ofBits_bits (hw : F.Fills w) (hprec : 2 ≤ F.prec) (f : Binary F) : F.ofBits w (f.bits w) = f := by
  cases f with
  | finite x =>
    obtain ⟨field, fraction, hfield, hfraction, hmag, hbits⟩ := bits_finite w x
    rw [hbits, ofBits_pack hw hfield hfraction]
    simp only [hmag]
  | infinite neg => rw [bits_infinite, ofBits_top hw (Nat.two_pow_pos _), if_pos rfl]
  | nan => rw [bits_nan, ofBits_top hw (quiet_lt hprec), if_neg (Nat.two_pow_pos _).ne']

theorem pack_lt {neg : Bool} {field fraction : ℕ} (hw : F.Fills w) (hfield : field ≤ F.top)
    (hfraction : fraction < 2 ^ (F.prec - 1)) : F.pack w neg field fraction < 2 * 2 ^ (w - 1) := by
  have hbody := body_lt hw hfield hfraction
  unfold FloatFormat.pack
  split_ifs <;> omega

theorem bits_lt (hw : F.Fills w) (hprec : 2 ≤ F.prec) (f : Binary F) : f.bits w < 2 * 2 ^ (w - 1) := by
  cases f with
  | finite x =>
    obtain ⟨field, fraction, hfield, hfraction, _, hbits⟩ := bits_finite w x
    rw [hbits]
    exact pack_lt hw hfield.le hfraction
  | infinite neg =>
    rw [bits_infinite]
    exact pack_lt hw le_rfl (Nat.two_pow_pos _)
  | nan =>
    rw [bits_nan]
    exact pack_lt hw le_rfl (quiet_lt hprec)

theorem binary64_fills : binary64.Fills 64 := by
  unfold FloatFormat.Fills
  decide

theorem binary32_fills : binary32.Fills 32 := by
  unfold FloatFormat.Fills
  decide

end

end TrinoGateway.Lib
