/-
  Floats — what a client makes of a `real` or `double` cell, in the two wire formats. The
  gateway prints the shortest decimal that reads back as the `f64` in the text format, for
  `real` columns too, and converts the `f64` to an `f32` in the binary format. A client reads
  the text in the column's own format, so for a `real` column the number is rounded once on
  one path and twice on the other.

  Proved:
    - `floats_agree`: a number the gateway can convert arrives as the same float on both
      paths, NaN and the infinities included, unless it is halfway between two `f32`s;
    - the halfway case does differ (the example after it).
-/
import TrinoGateway.Lib.Interchange
import TrinoGateway.Types.Integers

namespace TrinoGateway.Types

open TrinoGateway.Lib

inductive FloatColumn where
  | real
  | double
  deriving DecidableEq, Repr

namespace FloatColumn

def text : FloatColumn → Text
  | real => "real".toList
  | double => "double".toList

def scalar : FloatColumn → Scalar
  | real => .real
  | double => .double

def pgType : FloatColumn → PgType
  | real => .float4
  | double => .float8

theorem pgType_eq (U : UnicodeCase) (c : FloatColumn) : trinoTypeToPg U c.text = c.pgType := by
  have h : trinoTypeToPg U c.text = c.scalar.image :=
    trinoTypeToPg_variant U (.scalar c.scalar none) (by cases c <;> decide)
  cases c <;> exact h

/-- The format of the PostgreSQL type, which is the client's. -/
def format : FloatColumn → FloatFormat
  | real => binary32
  | double => binary64

/-- Bytes of the PostgreSQL type. -/
def width : FloatColumn → ℕ
  | real => 4
  | double => 8

/-- What a client reads from a text cell. -/
def reads (c : FloatColumn) (t : Text) : Option (Binary c.format) := readFloat c.format t

/-- What a client reads from a binary cell. -/
def receives (c : FloatColumn) (bs : List UInt8) : Binary c.format := c.format.ofBits (8 * c.width) (readBytes bs)

theorem fills (c : FloatColumn) : c.format.Fills (8 * c.width) := by
  cases c with
  | real => exact binary32_fills
  | double => exact binary64_fills

theorem two_le_prec (c : FloatColumn) : 2 ≤ c.format.prec := by cases c <;> decide

end FloatColumn

theorem binary64_finer : binary64.Finer binary32 := ⟨by decide, by decide, by decide⟩

/-! ## The text path -/

/-- The shortest digits round to the number they were found for. -/
theorem ofRat_shortest (x : Finite binary64) :
    binary64.ofRat x.neg ((binary64.shortest x.mag).1 * 10 ^ (binary64.shortest x.mag).2) = .finite x := by
  have hsame : binary64.nearest ((binary64.shortest x.mag).1 * 10 ^ (binary64.shortest x.mag).2) =
      binary64.nearest x.mag := by rw [nearest_shortest x.holds, nearest_of_holds _ x.holds]
  rw [ofRat_congr x.neg (by positivity) x.holds.nonneg hsame, ofRat_mag]

theorem formatFloatText_reads (f : Binary binary64) : readFloat binary64 (formatFloatText f) = some f := by
  cases f with
  | finite x =>
    show readFloat binary64 (displayF64 x) = _
    unfold displayF64
    rw [readFloat_signed _ _ (readUnsigned_decimalText _ _)]
    rw [ofRat_shortest]
  | infinite neg => cases neg <;> rfl
  | nan => rfl

theorem encodeNumber_float (X : Crates) (n : Number) (c : FloatColumn) :
    encodeNumber X n (baseType c.text) = formatFloatText n.asF64 := by
  have hlower : toLowercase X.unicode (baseType c.text) = c.text := by
    cases c <;> exact toLowercase_ascii _ (by decide)
  unfold encodeNumber
  rw [hlower]
  cases c <;> rfl

theorem textValue_float (X : Crates) (v : Value) (c : FloatColumn) :
    textValue X v c.pgType c.text = encodeValue X v c.text := by
  cases c <;> rfl

/-- What converts to a float is printed so that it reads as that float. -/
theorem encodeValue_reads (X : Crates) {v : Value} {c : FloatColumn} {f : Binary binary64}
    (hv : jsonToF64 v c.text = .ok f) (hplain : ∀ s, v = .string s → trim s = s) :
    ∃ t, encodeValue X v c.text = some t ∧ readFloat binary64 t = some f := by
  cases v with
  | number n =>
    cases hv
    exact ⟨_, by rw [encodeValue, encodeNumber_float], formatFloatText_reads _⟩
  | string s =>
    refine ⟨s, rfl, ?_⟩
    unfold jsonToF64 at hv
    simp only [hplain s rfl] at hv
    split_ifs at hv with hnan hinf hneg
    · cases hv
      rw [hnan]
      rfl
    · cases hv
      rw [hinf]
      rfl
    · cases hv
      rw [hneg]
      rfl
    · rw [parseF64] at hv
      cases hread : readFloat binary64 s with
      | none => rw [hread] at hv; cases hv
      | some g => rw [hread] at hv; cases hv; rfl
  | null => cases hv
  | bool b => cases hv
  | array vs => cases hv
  | object fs => cases hv

/-! ## The binary path -/

theorem encodeBinaryCell_float (X : Crates) {v : Value} {c : FloatColumn} {f : Binary binary64}
    (hv : jsonToF64 v c.text = .ok f) :
    encodeBinaryCell X v c.pgType c.text = .ok (.bytes (putInt c.width ((f.cast c.format).bits (8 * c.width)))) := by
  cases c with
  | real =>
    show (do return Payload.bytes (putInt 4 (((← jsonToF64 v FloatColumn.real.text).cast binary32).bits 32))) = _
    rw [hv]
    rfl
  | double =>
    show (do return Payload.bytes (putInt 8 ((← jsonToF64 v FloatColumn.double.text).bits 64))) = _
    rw [hv]
    show _ = Except.ok (Payload.bytes (putInt 8 ((f.cast binary64).bits 64)))
    rw [cast_self]
    rfl

theorem receives_putInt (c : FloatColumn) (g : Binary c.format) :
    c.receives (putInt c.width (g.bits (8 * c.width))) = g := by
  have hlt := bits_lt c.fills c.two_le_prec g
  have hread : readBytes (putInt c.width (g.bits (8 * c.width))) = g.bits (8 * c.width) := by
    have h := readBytes_putInt c.width (g.bits (8 * c.width))
    rw [Int.emod_eq_of_lt (by positivity)] at h
    · exact_mod_cast h
    · rw [show (256 : ℤ) = 2 ^ 8 by norm_num, ← pow_mul]
      have hpos : 8 * c.width - 1 + 1 = 8 * c.width := by cases c <;> rfl
      rw [← pow_succ', hpos] at hlt
      exact_mod_cast hlt
  unfold FloatColumn.receives
  rw [hread]
  exact ofBits_bits c.fills c.two_le_prec g

/-! ## Both -/

theorem encodeCell_text (X : Crates) {v : Value} (h : v ≠ .null) (pgType : PgType) (trinoType : Text) :
    encodeCell X v pgType trinoType .text =
      .ok (optionText ((textValue X v pgType trinoType).map (toSqlText X pgType))) := by
  cases v with
  | null => exact absurd rfl h
  | _ => rfl

theorem encodeCell_binary (X : Crates) {v : Value} (h : v ≠ .null) (pgType : PgType) (trinoType : Text) :
    encodeCell X v pgType trinoType .binary = encodeBinaryCell X v pgType trinoType := by
  cases v with
  | null => exact absurd rfl h
  | _ => rfl

/-- The two paths deliver the same float. -/
theorem floats_agree (X : Crates) (v : Value) (c : FloatColumn) (f : Binary binary64) (hv : jsonToF64 v c.text = .ok f)
    (hplain : ∀ s, v = .string s → trim s = s)
    (hreal : c = .real → ∀ x, f = .finite x → ¬ binary32.Halfway x.mag) :
    ∃ t bs, encodeCell X v (trinoTypeToPg X.unicode c.text) c.text .text = .ok (.text t) ∧
      encodeCell X v (trinoTypeToPg X.unicode c.text) c.text .binary = .ok (.bytes bs) ∧
      c.reads t = some (f.cast c.format) ∧ c.receives bs = f.cast c.format := by
  obtain ⟨t, ht, hread⟩ := encodeValue_reads X hv hplain
  have hnull : v ≠ .null := by
    intro hv'
    subst hv'
    cases hv
  refine ⟨t, _, ?_, ?_, ?_, receives_putInt c (f.cast c.format)⟩
  · rw [c.pgType_eq, encodeCell_text X hnull, textValue_float, ht]
    cases c <;> rfl
  · rw [c.pgType_eq, encodeCell_binary X hnull, encodeBinaryCell_float X hv]
  · cases c with
    | real => exact readFloat_cast binary64_finer hread (hreal rfl)
    | double =>
      show readFloat binary64 t = some (f.cast binary64)
      rw [cast_self, hread]

/-- The `f64` next to 0.1, which is no `f32`. -/
def tenth : Finite binary64 :=
  ⟨false, 3602879701896397 / 2 ^ 55, 3602879701896397, -55, by decide, by decide, by decide, by norm_num⟩

theorem tenth_agrees :
    ∃ t bs, encodeCell plainCrates (.number (.float tenth)) (trinoTypeToPg plainCrates.unicode FloatColumn.real.text)
        FloatColumn.real.text .text = .ok (.text t) ∧
      encodeCell plainCrates (.number (.float tenth)) (trinoTypeToPg plainCrates.unicode FloatColumn.real.text)
        FloatColumn.real.text .binary = .ok (.bytes bs) ∧
      FloatColumn.real.reads t = some ((Binary.finite tenth).cast binary32) ∧
      FloatColumn.real.receives bs = (Binary.finite tenth).cast binary32 := by
  refine floats_agree plainCrates (.number (.float tenth)) .real (.finite tenth) rfl (fun s h => by cases h) ?_
  intro _ x hx
  cases hx
  show tenth.mag ≠ _
  decide +kernel

/-- Halfway between 1 and the `f32` after it. -/
def pastOne : Finite binary64 :=
  ⟨false, (2 ^ 24 + 1) / 2 ^ 24, 2 ^ 24 + 1, -24, by decide, by decide, by decide, by norm_num⟩

-- The text is 1.0000000596046448, above the halfway point, and reads as the greater neighbour;
-- the conversion takes the even one.
example : formatFloatText (.finite pastOne) = "1.0000000596046448".toList := by decide +kernel
example : binary32.nearest (10000000596046448 / 10 ^ 16) = 1 + 1 / 2 ^ 23 ∧ binary32.nearest pastOne.mag = 1 := by
  decide +kernel

end TrinoGateway.Types
