/-
  TrinoGateway.Types.Integers — integer columns on both paths of `src/types.rs`.

  For a column of type tinyint, smallint, integer or bigint the text path prints
  (`encode_number`) what the binary path sends (`json_to_i64` with a range check). The two
  are written separately, and they agree on a value if and only if it is `Exact`:
  - a float in a column's range is whole. The text path truncates 42.5 to `42`; the binary
    path refuses it.
  - a string that is not an `i64` literal and whose nearest float is a whole number in
    range is that number. The binary path sends 9007199254740992 for
    `9007199254740993.0`.

  `integers_agree_iff` is that equivalence, for every value; `integer_paths_disagree` are
  the two values above. Its arithmetic content is
  that an integer printed from a float outside the `i64` range is itself outside
  (`display_out_of_range`): the shortest digits round back to the float, and rounding is
  monotone.
-/

import TrinoGateway.Types.Encode

namespace TrinoGateway.Types

open TrinoGateway.Lib

inductive IntColumn where
  | tinyint
  | smallint
  | integer
  | bigint
  deriving DecidableEq, Repr

namespace IntColumn

def text : IntColumn → Text
  | tinyint => "tinyint".toList
  | smallint => "smallint".toList
  | integer => "integer".toList
  | bigint => "bigint".toList

def scalar : IntColumn → Scalar
  | tinyint => .tinyint
  | smallint => .smallint
  | integer => .integer
  | bigint => .bigint

/-- Bytes of the PostgreSQL type. -/
def width : IntColumn → ℕ
  | tinyint => 2
  | smallint => 2
  | integer => 4
  | bigint => 8

/-- `k` is a value of the column's PostgreSQL type. -/
def Holds (c : IntColumn) (k : ℤ) : Prop := -256 ^ c.width ≤ 2 * k ∧ 2 * k < 256 ^ c.width

instance (c : IntColumn) (k : ℤ) : Decidable (c.Holds k) := inferInstanceAs (Decidable (_ ∧ _))

theorem pgType_eq (U : UnicodeCase) (c : IntColumn) : trinoTypeToPg U c.text = c.scalar.image :=
  trinoTypeToPg_variant U (.scalar c.scalar none) (by cases c <;> decide)

/-- The columns' ranges lie in the `i64` range. -/
theorem Holds.i64 {c : IntColumn} {k : ℤ} (h : c.Holds k) : -2 ^ 63 ≤ k ∧ k < 2 ^ 63 := by
  cases c <;> simp only [Holds, width] at h <;> omega

theorem bigint_holds {k : ℤ} (h : -2 ^ 63 ≤ k ∧ k < 2 ^ 63) : bigint.Holds k := by
  simp only [Holds, width]; omega

end IntColumn

/-! ## The specification -/

/-- A text read as a decimal integer literal; white space around it is skipped. -/
def integerLiteral (t : Text) : Option ℤ := readInt (trim t)

/-- A text read as a decimal number. -/
def decimalNumber (t : Text) : Option ℚ := readDecimal (trim t)

def Number.val : Number → ℚ
  | .posInt n _ => n
  | .negInt k _ => k
  | .float x => x.val

/-- The number a value stands for. -/
def Value.numeric : Value → Option ℚ
  | .number n => some n.val
  | .string s => decimalNumber s
  | _ => none

/-- The two's complement encoding of `k` for the column, most significant byte first. -/
def Sends (c : IntColumn) (p : Payload) (k : ℤ) : Prop := ∃ bs, p = .bytes bs ∧ bs.length = c.width ∧ readSigned bs = k

section
variable (X : Crates) (v : Value) (c : IntColumn)

/-- Whatever integer of the column the text path prints, the binary path sends. -/
def BinaryFollowsText : Prop :=
  ∀ t k, encodeValue X v c.text = some t → integerLiteral t = some k → c.Holds k →
    ∃ p, encodeBinaryCell X v (trinoTypeToPg X.unicode c.text) c.text = .ok p ∧ Sends c p k

/-- Whatever the binary path sends is the value, and the text path prints it. -/
def TextFollowsBinary : Prop :=
  ∀ p, encodeBinaryCell X v (trinoTypeToPg X.unicode c.text) c.text = .ok p →
    ∃ k : ℤ, Sends c p k ∧ v.numeric = some (k : ℚ) ∧
      ∃ t, encodeValue X v c.text = some t ∧ decimalNumber t = some (k : ℚ)
end

/-- No float is truncated and no string rounded on the way to the column. -/
def Exact : Value → IntColumn → Prop
  | .number (.float x), c => (x.trunc : ℚ) = x.val ∨ ¬ c.Holds x.trunc
  | .string s, c => parseI64 (trim s) = none → ∀ k : ℤ, (parseF64 (trim s)).bind f64ToI64Exact = some k → c.Holds k →
      decimalNumber s = some (k : ℚ)
  | _, _ => True

/-! ## The binary path -/

theorem sends_putInt {c : IntColumn} {k : ℤ} (h : c.Holds k) : Sends c (.bytes (putInt c.width k)) k :=
  ⟨_, rfl, putInt_length _ _, readSigned_putInt h.1 h.2⟩

/-- Truncating a float that fits gives an `i64`. -/
theorem trunc_fits {x : Finite binary64} (h : fitsI64 x) : -2 ^ 63 ≤ x.trunc ∧ x.trunc < 2 ^ 63 := by
  obtain ⟨neg, mag, hold⟩ := x
  have h0 : 0 ≤ ⌊mag⌋ := Int.floor_nonneg.mpr hold.nonneg
  obtain ⟨hlo, hhi⟩ := h
  cases neg with
  | false =>
    simp only [Finite.val, Finite.trunc, signed, Bool.false_eq_true, if_false] at hhi ⊢
    have : ⌊mag⌋ < 2 ^ 63 := Int.floor_lt.mpr (by exact_mod_cast hhi)
    omega
  | true =>
    simp only [Finite.val, Finite.trunc, signed, if_true] at hlo ⊢
    have : ⌊mag⌋ ≤ 2 ^ 63 := by
      have := (Int.floor_le mag).trans (neg_le_neg_iff.mp hlo)
      exact_mod_cast this
    omega

theorem castI64_of_fits {x : Finite binary64} (h : fitsI64 x) : castI64 x = x.trunc := by
  have := trunc_fits h
  unfold castI64
  omega

theorem f64ToI64Exact_eq_some {f : Binary binary64} {k : ℤ} (h : f64ToI64Exact f = some k) :
    ∃ x, f = .finite x ∧ fitsI64 x ∧ k = x.trunc ∧ (k : ℚ) = x.val := by
  cases f with
  | finite x =>
    simp only [f64ToI64Exact] at h
    split_ifs at h with hx
    rw [castI64_of_fits hx.2] at h
    obtain rfl := Option.some.inj h
    exact ⟨x, rfl, hx.2, rfl, hx.1⟩
  | infinite _ => cases h
  | nan => cases h

theorem f64ToI64Exact_range {f : Binary binary64} {k : ℤ} (h : f64ToI64Exact f = some k) : -2 ^ 63 ≤ k ∧ k < 2 ^ 63 := by
  obtain ⟨x, -, hx, rfl, -⟩ := f64ToI64Exact_eq_some h
  exact trunc_fits hx

theorem parseI64_eq_some {s : Text} {k : ℤ} :
    parseI64 s = some k ↔ readInt s = some k ∧ -2 ^ 63 ≤ k ∧ k < 2 ^ 63 := by
  simp [parseI64, Option.filter_eq_some_iff]

/-- A float that is a `u64` beyond the `i64` range does not come back into it. -/
theorem f64ToI64Exact_large {n : ℕ} (h : 2 ^ 63 ≤ n) : f64ToI64Exact (binary64.ofRat false n) = none := by
  unfold FloatFormat.ofRat
  split_ifs with hn
  · have hge : (2 : ℚ) ^ 63 ≤ binary64.nearest n := by
      have e := nearest_of_holds binary64 (holds_two_zpow binary64 (a := 63) (by decide) (by decide))
      calc (2 : ℚ) ^ 63 = binary64.nearest (2 ^ (63 : ℤ)) := e.symm
        _ ≤ binary64.nearest n := nearest_mono binary64 (by positivity) (by exact_mod_cast h)
    have hno : ¬ fitsI64 ⟨false, binary64.nearest n, holds_nearest binary64 hn.1 hn.2⟩ :=
      fun hf => absurd hf.2 (not_lt.mpr hge)
    simp only [f64ToI64Exact]
    exact if_neg fun hc => hno hc.2
  · rfl

/-- The integer of a `u64`, of a negative `i64`, of a float. -/
theorem integerOf_posInt (n : ℕ) (h : n < 2 ^ 64) :
    integerOf (.number (.posInt n h)) = if n < 2 ^ 63 then some (n : ℤ) else none := by
  split_ifs with hn
  · simp only [integerOf, Number.asI64, if_pos hn, Option.some_or]
  · simp only [integerOf, Number.asI64, Number.asU64, Number.asF64, if_neg hn, Option.bind_some, Option.none_or,
      f64ToI64Exact_large (not_lt.mp hn)]

theorem integerOf_range {v : Value} {k : ℤ} (h : integerOf v = some k) : -2 ^ 63 ≤ k ∧ k < 2 ^ 63 := by
  cases v with
  | number n =>
    cases n with
    | posInt n hn =>
      rw [integerOf_posInt] at h
      split_ifs at h with hlt
      obtain rfl := Option.some.inj h
      omega
    | negInt k' hk =>
      obtain rfl : k' = k := by simpa [integerOf, Number.asI64] using h
      omega
    | float x => exact f64ToI64Exact_range (by simpa [integerOf, Number.asI64, Number.asU64] using h)
  | string s =>
    rcases hp : parseI64 (trim s) with _ | k'
    · obtain ⟨f, -, hf⟩ := Option.bind_eq_some_iff.mp (by simpa [integerOf, hp] using h)
      exact f64ToI64Exact_range hf
    · obtain rfl : k' = k := by simpa [integerOf, hp] using h
      exact (parseI64_eq_some.mp hp).2
  | null => cases h
  | bool _ => cases h
  | array _ => cases h
  | object _ => cases h

theorem checked_ok_iff {P : Prop} [Decidable P] {a p : Payload} {e : PgWireError} :
    (if P then return a else throw e : PgWireResult Payload) = .ok p ↔ P ∧ p = a := by
  split_ifs with h
  · exact ⟨fun hp => ⟨h, (Except.ok.inj hp).symm⟩, fun hp => by rw [hp.2]; rfl⟩
  · exact ⟨fun hp => (nomatch hp), fun hp => absurd hp.1 h⟩

/-- The binary path succeeds exactly on integers of the column. -/
theorem encodeBinaryCell_ok_iff (X : Crates) (v : Value) (c : IntColumn) (p : Payload) :
    encodeBinaryCell X v (trinoTypeToPg X.unicode c.text) c.text = .ok p ↔
      ∃ k, integerOf v = some k ∧ c.Holds k ∧ p = .bytes (putInt c.width k) := by
  rw [c.pgType_eq]
  cases hi : integerOf v with
  | none =>
    have he : jsonToI64 v c.text = .error (conversionError "integer" c.text) := by rw [jsonToI64, hi]; rfl
    cases c <;> simp only [encodeBinaryCell, IntColumn.scalar, Scalar.image, he] <;>
      exact ⟨fun hp => (nomatch hp), fun ⟨k, hk, _⟩ => (nomatch hk)⟩
  | some k =>
    have ho : jsonToI64 v c.text = .ok k := by rw [jsonToI64, hi]; rfl
    have hr := integerOf_range hi
    have hex : (∃ k', some k = some k' ∧ c.Holds k' ∧ p = .bytes (putInt c.width k')) ↔
        c.Holds k ∧ p = .bytes (putInt c.width k) := by simp
    rw [hex]
    cases c with
    | bigint =>
      simp only [encodeBinaryCell, IntColumn.scalar, Scalar.image, ho, IntColumn.bigint_holds hr, true_and]
      exact ⟨fun hp => (Except.ok.inj hp).symm, fun hp => by rw [hp]; rfl⟩
    | integer =>
      have hh : IntColumn.integer.Holds k ↔ -2 ^ 31 ≤ k ∧ k < 2 ^ 31 := by
        simp only [IntColumn.Holds, IntColumn.width]; omega
      rw [hh, ← checked_ok_iff (e := outOfRange k "int4")]
      simp only [encodeBinaryCell, IntColumn.scalar, Scalar.image, ho]
      rfl
    | smallint | tinyint =>
      have hh : ∀ j, -256 ^ 2 ≤ 2 * j ∧ 2 * j < 256 ^ 2 ↔ -2 ^ 15 ≤ j ∧ j < (2 ^ 15 : ℤ) := by intro j; omega
      simp only [IntColumn.Holds, IntColumn.width]
      rw [hh, ← checked_ok_iff (e := outOfRange k "int2")]
      simp only [encodeBinaryCell, IntColumn.scalar, Scalar.image, ho]
      rfl

/-! ## The text path -/

theorem intText_trim (k : ℤ) : trim (intText k) = intText k := by
  refine trim_of_no_whitespace fun c hc => ?_
  unfold intText at hc
  split_ifs at hc
  · rcases List.mem_cons.mp hc with rfl | hc
    · decide
    · exact isDigit_solid (natText_isDigit hc)
  · exact isDigit_solid (natText_isDigit hc)

theorem integerLiteral_intText (k : ℤ) : integerLiteral (intText k) = some k := by
  rw [integerLiteral, intText_trim, readInt_intText]

theorem decimalNumber_intText (k : ℤ) : decimalNumber (intText k) = some (k : ℚ) := by
  rw [decimalNumber, intText_trim, readDecimal_intText]

theorem natText_eq_intText (n : ℕ) : natText n = intText n := by simp [intText]

section
variable (X : Crates) (c : IntColumn)

theorem integer_name : toLowercase X.unicode (baseType c.text) ∈ integerNames := by
  have hb : baseType c.text = c.text := by cases c <;> decide
  rw [hb, toLowercase_ascii X.unicode (by cases c <;> decide)]
  cases c <;> decide

theorem encodeValue_posInt (n : ℕ) (h : n < 2 ^ 64) :
    encodeValue X (.number (.posInt n h)) c.text = some (intText n) := by
  rw [encodeValue, encodeNumber, if_pos (integer_name X c)]
  by_cases hn : n < 2 ^ 63
  · simp only [Number.asI64, if_pos hn]
  · simp only [Number.asI64, if_neg hn, Number.asU64, natText_eq_intText]

theorem encodeValue_negInt (k : ℤ) (h : -2 ^ 63 ≤ k ∧ k < 0) :
    encodeValue X (.number (.negInt k h)) c.text = some (intText k) := by
  rw [encodeValue, encodeNumber, if_pos (integer_name X c)]
  rfl

theorem encodeValue_float (x : Finite binary64) :
    encodeValue X (.number (.float x)) c.text = some (if fitsI64 x then intText x.trunc else displayF64 x) := by
  rw [encodeValue, encodeNumber, if_pos (integer_name X c)]
  simp only [Number.asI64, Number.asU64, Number.asF64]
  split_ifs with h
  · rw [castI64_of_fits h]
  · rfl
end

/-- An integer printed from a float outside the `i64` range is outside it. -/
theorem display_out_of_range {x : Finite binary64} (hx : ¬ fitsI64 x) {k : ℤ}
    (h : integerLiteral (displayF64 x) = some k) : ¬ (-2 ^ 63 ≤ k ∧ k < 2 ^ 63) := by
  have htrim : trim (displayF64 x) = displayF64 x := by
    refine trim_of_no_whitespace fun c hc => ?_
    rcases List.mem_append.mp hc with hc | hc
    · split_ifs at hc
      · rw [List.mem_singleton.mp hc]; decide
      · cases hc
    · exact decimalText_solid hc
  rw [integerLiteral, htrim, displayF64] at h
  have hk := readInt_decimalText h
  have hround := nearest_shortest x.holds
  have htop : binary64.nearest (2 ^ 63) = 2 ^ 63 :=
    nearest_of_holds binary64 (holds_two_zpow binary64 (a := 63) (by decide) (by decide))
  have hy : (0 : ℚ) ≤ (binary64.shortest x.mag).1 * 10 ^ (binary64.shortest x.mag).2 := by positivity
  have hmag := x.holds.nonneg
  -- digits at most 2 ^ 63 round to a float at most 2 ^ 63
  have hmono : (binary64.shortest x.mag).1 * (10 : ℚ) ^ (binary64.shortest x.mag).2 ≤ 2 ^ 63 → x.mag ≤ 2 ^ 63 := by
    intro hle
    have := nearest_mono binary64 hy hle
    rwa [hround, htop] at this
  rintro ⟨hlo, hhi⟩
  have hlo' : (-2 ^ 63 : ℚ) ≤ k := by exact_mod_cast hlo
  have hhi' : (k : ℚ) < 2 ^ 63 := by exact_mod_cast hhi
  apply hx
  rw [hk] at hlo' hhi'
  cases hn : x.neg with
  | false =>
    simp only [hn, signed, Bool.false_eq_true, if_false] at hlo' hhi'
    refine ⟨?_, ?_⟩
    · simp only [Finite.val, hn, signed, Bool.false_eq_true, if_false]; linarith
    · simp only [Finite.val, hn, signed, Bool.false_eq_true, if_false]
      refine lt_of_le_of_ne (hmono hhi'.le) fun he => ?_
      -- the digits of 2 ^ 63 itself are 9223372036854776000
      have hs : binary64.shortest (2 ^ 63) = (9223372036854776, 3) := by decide +kernel
      rw [he, hs] at hhi'
      norm_num at hhi'
  | true =>
    simp only [hn, signed, if_true] at hlo' hhi'
    have hle := hmono (by linarith)
    refine ⟨?_, ?_⟩ <;> simp only [Finite.val, hn, signed, if_true] <;> linarith

/-- A float outside the `i64` range is whole. -/
theorem whole_of_not_fits {x : Finite binary64} (h : ¬ fitsI64 x) : (x.trunc : ℚ) = x.val := by
  have hbig : (2 : ℚ) ^ binary64.prec ≤ x.mag := by
    by_contra hlt
    have h1 : x.mag < 2 ^ 53 := not_le.mp hlt
    have h2 := x.holds.nonneg
    refine h ⟨?_, ?_⟩ <;> cases hn : x.neg <;>
      simp only [Finite.val, hn, signed, Bool.false_eq_true, if_false, if_true] <;> linarith
  have := floor_of_large x.holds hbig
  cases hn : x.neg <;> simp only [Finite.val, Finite.trunc, hn, signed, Bool.false_eq_true, if_false, if_true]
  · exact this
  · push_cast
    rw [this]

/-! ## Agreement -/

section
variable {X : Crates} {v : Value} {c : IntColumn}

theorem sends_unique {k k' : ℤ} (h : c.Holds k) (hs : Sends c (.bytes (putInt c.width k)) k') : k' = k := by
  obtain ⟨bs, hb, -, rfl⟩ := hs
  obtain rfl := Payload.bytes.inj hb
  exact readSigned_putInt h.1 h.2

theorem binaryFollowsText_iff : BinaryFollowsText X v c ↔
    ∀ t k, encodeValue X v c.text = some t → integerLiteral t = some k → c.Holds k → integerOf v = some k := by
  refine forall₅_congr fun t k _ _ hk => ?_
  constructor
  · rintro ⟨p, hp, hs⟩
    obtain ⟨k', hi, hk', rfl⟩ := (encodeBinaryCell_ok_iff X v c p).mp hp
    rw [sends_unique hk' hs, hi]
  · intro hi
    exact ⟨_, (encodeBinaryCell_ok_iff X v c _).mpr ⟨k, hi, hk, rfl⟩, sends_putInt hk⟩

theorem textFollowsBinary_iff : TextFollowsBinary X v c ↔
    ∀ k : ℤ, integerOf v = some k → c.Holds k → v.numeric = some (k : ℚ) ∧
      ∃ t, encodeValue X v c.text = some t ∧ decimalNumber t = some (k : ℚ) := by
  constructor
  · intro h k hi hk
    obtain ⟨k', hs, hrest⟩ := h _ ((encodeBinaryCell_ok_iff X v c _).mpr ⟨k, hi, hk, rfl⟩)
    rw [sends_unique hk hs] at hrest
    exact hrest
  · rintro h p hp
    obtain ⟨k, hi, hk, rfl⟩ := (encodeBinaryCell_ok_iff X v c p).mp hp
    exact ⟨k, sends_putInt hk, h k hi hk⟩

/-- Where the text path prints the integer `k` that `v` stands for. -/
theorem agree_of_printed {k : ℤ} (ht : encodeValue X v c.text = some (intText k)) (hv : v.numeric = some (k : ℚ))
    (hi : -2 ^ 63 ≤ k ∧ k < 2 ^ 63 → integerOf v = some k) (hi' : ∀ k', integerOf v = some k' → k' = k) :
    BinaryFollowsText X v c ∧ TextFollowsBinary X v c := by
  refine ⟨binaryFollowsText_iff.mpr fun t k' h hl hk => ?_, textFollowsBinary_iff.mpr fun k' h _ => ?_⟩
  · obtain rfl := Option.some.inj (ht.symm.trans h)
    rw [integerLiteral_intText] at hl
    obtain rfl := Option.some.inj hl
    exact hi hk.i64
  · obtain rfl := hi' k' h
    exact ⟨hv, _, ht, decimalNumber_intText k'⟩

/-- Where neither path gives an integer. -/
theorem agree_of_none (hi : integerOf v = none)
    (ht : ∀ t k, encodeValue X v c.text = some t → integerLiteral t = some k → ¬ c.Holds k) :
    BinaryFollowsText X v c ∧ TextFollowsBinary X v c := by
  refine ⟨binaryFollowsText_iff.mpr fun t k h hl hk => absurd hk (ht t k h hl), textFollowsBinary_iff.mpr fun k h _ => ?_⟩
  rw [hi] at h
  cases h

/-- A text that starts like no number is no literal. -/
theorem integerLiteral_none {a : Char} {s : Text} (hw : isWhitespace a = false) (hs : a ≠ '-' ∧ a ≠ '+')
    (hd : a.isDigit = false) : integerLiteral (a :: s) = none := by
  obtain ⟨t, ht⟩ := trim_cons hw s
  have hsplit : splitSign (a :: t) = (false, a :: t) := by
    unfold splitSign
    split
    · rename_i e; exact absurd (List.cons.inj e).1 hs.1
    · rename_i e; exact absurd (List.cons.inj e).1 hs.2
    · rfl
  have hn : isNumeral (a :: t) = false := by simp [isNumeral, hd]
  rw [integerLiteral, ht, readInt, hsplit, readNat, hn]
  rfl

theorem agree_of_other {a : Char} {s : Text} (hi : integerOf v = none) (ht : encodeValue X v c.text = some (a :: s))
    (ha : isWhitespace a = false ∧ (a ≠ '-' ∧ a ≠ '+') ∧ a.isDigit = false) :
    BinaryFollowsText X v c ∧ TextFollowsBinary X v c := by
  refine agree_of_none hi fun t k h hl => ?_
  obtain rfl := Option.some.inj (ht.symm.trans h)
  rw [integerLiteral_none ha.1 ha.2.1 ha.2.2] at hl
  cases hl

theorem integerOf_float (x : Finite binary64) :
    integerOf (.number (.float x)) = if (x.trunc : ℚ) = x.val ∧ fitsI64 x then some x.trunc else none := by
  simp only [integerOf, Number.asI64, Number.asU64, Number.asF64, f64ToI64Exact, Option.bind_none, Option.none_or]
  split_ifs with h
  · rw [castI64_of_fits h.2]
  · rfl

theorem float_agree_iff (x : Finite binary64) :
    BinaryFollowsText X (.number (.float x)) c ∧ TextFollowsBinary X (.number (.float x)) c ↔
      (x.trunc : ℚ) = x.val ∨ ¬ c.Holds x.trunc := by
  by_cases hfit : fitsI64 x
  · have ht := encodeValue_float X c x
    rw [if_pos hfit] at ht
    by_cases hwhole : (x.trunc : ℚ) = x.val
    · have hi := integerOf_float x
      rw [if_pos ⟨hwhole, hfit⟩] at hi
      refine iff_of_true (agree_of_printed ht ?_ (fun _ => hi) ?_) (Or.inl hwhole)
      · rw [Value.numeric, Number.val, hwhole]
      · intro k' hk'
        exact (Option.some.inj (hi.symm.trans hk')).symm
    · have hi := integerOf_float x
      rw [if_neg fun h => hwhole h.1] at hi
      simp only [hwhole, false_or]
      constructor
      · intro h hk
        have := binaryFollowsText_iff.mp h.1 _ _ ht (integerLiteral_intText _) hk
        rw [hi] at this
        cases this
      · intro hk
        refine agree_of_none hi fun t k h hl => ?_
        obtain rfl := Option.some.inj (ht.symm.trans h)
        rw [integerLiteral_intText] at hl
        rwa [← Option.some.inj hl]
  · have hi := integerOf_float x
    rw [if_neg fun h => hfit h.2] at hi
    refine iff_of_true (agree_of_none hi fun t k h hl hk => ?_) (Or.inl (whole_of_not_fits hfit))
    rw [encodeValue_float, if_neg hfit] at h
    obtain rfl := Option.some.inj h
    exact display_out_of_range hfit hl hk.i64

theorem string_agree_iff (s : Text) :
    BinaryFollowsText X (.string s) c ∧ TextFollowsBinary X (.string s) c ↔ Exact (.string s) c := by
  have ht : encodeValue X (.string s) c.text = some s := rfl
  constructor
  · rintro ⟨-, h⟩ hp k hf hk
    have hi : integerOf (.string s) = some k := by rw [integerOf, hp, Option.none_or, hf]
    exact (textFollowsBinary_iff.mp h k hi hk).1
  · intro hex
    refine ⟨binaryFollowsText_iff.mpr fun t k h hl hk => ?_, textFollowsBinary_iff.mpr fun k h hk => ?_⟩
    · obtain rfl := Option.some.inj h
      have hp : parseI64 (trim s) = some k := parseI64_eq_some.mpr ⟨hl, hk.i64⟩
      rw [integerOf, hp, Option.some_or]
    · have hval : decimalNumber s = some (k : ℚ) := by
        rw [integerOf] at h
        cases hp : parseI64 (trim s) with
        | none =>
          rw [hp, Option.none_or] at h
          exact hex hp k h hk
        | some k' =>
          rw [hp, Option.some_or] at h
          obtain rfl := Option.some.inj h
          exact readDecimal_of_readInt (parseI64_eq_some.mp hp).1
      exact ⟨hval, s, ht, hval⟩
end

/-- The two paths agree on a value in an integer column if and only if the value is exact. -/
theorem integers_agree_iff (X : Crates) (v : Value) (c : IntColumn) :
    BinaryFollowsText X v c ∧ TextFollowsBinary X v c ↔ Exact v c := by
  cases v with
  | number n =>
    cases n with
    | posInt n h =>
      have hi := integerOf_posInt n h
      refine iff_of_true (agree_of_printed (encodeValue_posInt X c n h) rfl (fun hr => ?_) fun k' hk' => ?_) trivial
      · rw [hi, if_pos (by omega)]
      · rw [hi] at hk'
        split_ifs at hk'
        exact (Option.some.inj hk').symm
    | negInt k h =>
      exact iff_of_true (agree_of_printed (encodeValue_negInt X c k h) rfl (fun _ => rfl)
        fun k' hk' => (Option.some.inj hk').symm) trivial
    | float x => exact float_agree_iff x
  | string s => exact string_agree_iff s
  | null => exact iff_of_true (agree_of_none rfl fun t k h => by cases h) trivial
  | bool b => cases b <;> exact iff_of_true (agree_of_other rfl rfl (by decide)) trivial
  | array vs => exact iff_of_true (agree_of_other rfl (by rw [encodeValue, Value.text]; rfl) (by decide)) trivial
  | object fs => exact iff_of_true (agree_of_other rfl (by rw [encodeValue, Value.text]; rfl) (by decide)) trivial

/-! ## Where they differ -/

/-- Crates that read no date and no decimal. -/
def plainCrates : Crates where
  unicode := asciiOnly
  chrono :=
    { parseDateTime := fun _ _ _ => none
      parseNaive := fun _ _ => none
      parseDate := fun _ => none
      parseTime := fun _ => none
      parseZone := fun _ => none
      single := fun _ _ => none
      formatDateTime := fun _ => []
      formatTime := fun _ => [] }
  floatText := displayF64
  numeric _ := none
  quoteCheck s := s.isEmpty || s.map Char.toLower == "null".toList ||
    s.any fun c => ['"', '\x7b', '\x7d', ',', '\\'].contains c || isWhitespace c

/-- 42.5 -/
def halfPast : Finite binary64 := ⟨false, 85 / 2, 85, -1, by decide, by decide, by decide, by norm_num⟩

/-- The text path truncates 42.5, the binary path refuses it; the binary path rounds the
    string 9007199254740993.0, the text path does not. -/
theorem integer_paths_disagree :
    encodeValue plainCrates (.number (.float halfPast)) IntColumn.bigint.text = some "42".toList ∧
    ¬ BinaryFollowsText plainCrates (.number (.float halfPast)) .bigint ∧
    encodeBinaryCell plainCrates (.string "9007199254740993.0".toList)
      (trinoTypeToPg plainCrates.unicode IntColumn.bigint.text) IntColumn.bigint.text =
        .ok (.bytes (putInt 8 9007199254740992)) ∧
    ¬ TextFollowsBinary plainCrates (.string "9007199254740993.0".toList) .bigint := by
  have ht : encodeValue plainCrates (.number (.float halfPast)) IntColumn.bigint.text = some "42".toList := by
    decide +kernel
  have hi : integerOf (.string "9007199254740993.0".toList) = some 9007199254740992 := by decide +kernel
  have hk : IntColumn.bigint.Holds 9007199254740992 := by decide
  refine ⟨ht, ?_, (encodeBinaryCell_ok_iff _ _ .bigint _).mpr ⟨_, hi, hk, rfl⟩, ?_⟩
  · intro h
    have := binaryFollowsText_iff.mp h _ 42 ht (by decide) (by decide)
    exact absurd this (by decide +kernel)
  · intro h
    exact absurd (textFollowsBinary_iff.mp h _ hi hk).1 (by decide +kernel)

end TrinoGateway.Types
