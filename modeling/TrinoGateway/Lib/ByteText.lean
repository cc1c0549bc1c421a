/-
  TrinoGateway.Lib.ByteText — bytes written as text, in two ways: base64 (RFC 4648, with
  padding) and the two input forms of PostgreSQL's `bytea`, hexadecimal digits after `\x`
  or text in which a backslash escapes.

  A text without a backslash is read by `bytea` as its own UTF-8 bytes
  (`readBytea_plain`), and base64 is such a text (`base64_plain`), of four characters for
  every three bytes begun (`base64_length`).
-/

import TrinoGateway.Lib.Text

namespace TrinoGateway.Lib

/-! ## Base64 -/

/-- The character of a number below 64. -/
def base64Char (n : ℕ) : Char :=
  if n < 26 then Char.ofNat (65 + n)
  else if n < 52 then Char.ofNat (97 + (n - 26))
  else if n < 62 then Char.ofNat (48 + (n - 52))
  else if n = 62 then '+'
  else '/'

def base64 : List UInt8 → Text
  | [] => []
  | [a] =>
    let v := a.toNat * 16
    [base64Char (v / 64), base64Char (v % 64), '=', '=']
  | [a, b] =>
    let v := (a.toNat * 256 + b.toNat) * 4
    [base64Char (v / 4096), base64Char (v / 64 % 64), base64Char (v % 64), '=']
  | a :: b :: c :: rest =>
    let v := (a.toNat * 256 + b.toNat) * 256 + c.toNat
    base64Char (v / 262144) :: base64Char (v / 4096 % 64) :: base64Char (v / 64 % 64) :: base64Char (v % 64) ::
      base64 rest

example : base64 [0x4D, 0x61, 0x6E, 0x4D] = "TWFuTQ==".toList := by decide

/-! ## The input of `bytea` -/

def hexValue (c : Char) : Option ℕ :=
  if c.isDigit then some (c.toNat - 48)
  else if 'a' ≤ c ∧ c ≤ 'f' then some (c.toNat - 87)
  else if 'A' ≤ c ∧ c ≤ 'F' then some (c.toNat - 55)
  else none

def isHexBlank (c : Char) : Bool := c == ' ' || c == '\n' || c == '\t' || c == '\r'

/-- Pairs of hexadecimal digits, with white space between the pairs. -/
def readHexPairs : Text → Option (List UInt8)
  | [] => some []
  | c :: s =>
    if isHexBlank c then readHexPairs s
    else
      match s with
      | [] => none
      | d :: s => do
        let high ← hexValue c
        let low ← hexValue d
        let bytes ← readHexPairs s
        some (UInt8.ofNat (16 * high + low) :: bytes)

def octalValue (c : Char) : Option ℕ := if '0' ≤ c ∧ c ≤ '7' then some (c.toNat - 48) else none

/-- The escape form: a backslash stands before another one or before three octal digits. -/
def readEscaped : Text → Option (List UInt8)
  | [] => some []
  | '\\' :: '\\' :: s => (readEscaped s).map (92 :: ·)
  | '\\' :: x :: y :: z :: s => do
    let high ← octalValue x
    let mid ← octalValue y
    let low ← octalValue z
    let bytes ← readEscaped s
    if high ≤ 3 then some (UInt8.ofNat (64 * high + 8 * mid + low) :: bytes) else none
  | c :: s => if c = '\\' then none else (readEscaped s).map (String.utf8EncodeChar c ++ ·)

/-- `byteain` -/
def readBytea : Text → Option (List UInt8)
  | '\\' :: 'x' :: s => readHexPairs s
  | s => readEscaped s

example : readBytea "\\x4D 6e".toList = some [0x4D, 0x6E] := by decide +kernel

example : readBytea "M\\\\\\156".toList = some [0x4D, 0x5C, 0x6E] := by decide +kernel

/-! ## Base64 read as `bytea` -/

theorem base64Char_ne_backslash (n : ℕ) : base64Char n ≠ '\\' := by
  by_cases h : n < 64
  · revert n
    decide
  · have hslash : base64Char n = '/' := by
      unfold base64Char
      rw [if_neg (by omega), if_neg (by omega), if_neg (by omega), if_neg (by omega)]
    rw [hslash]
    decide

theorem base64_plain (bytes : List UInt8) : '\\' ∉ base64 bytes := by
  fun_induction base64 bytes with
  | case1 => simp
  | case2 a v => simp [(base64Char_ne_backslash _).symm]
  | case3 a b v => simp [(base64Char_ne_backslash _).symm]
  | case4 a b c rest v ih => simp [(base64Char_ne_backslash _).symm, ih]

theorem base64_length (bytes : List UInt8) : (base64 bytes).length = 4 * ((bytes.length + 2) / 3) := by
  fun_induction base64 bytes with
  | case1 => rfl
  | case2 a v => simp
  | case3 a b v => simp
  | case4 a b c rest v ih =>
    simp only [List.length_cons, ih]
    omega

theorem readEscaped_cons {c : Char} (h : c ≠ '\\') (s : Text) :
    readEscaped (c :: s) = (readEscaped s).map (String.utf8EncodeChar c ++ ·) := by
  rw [readEscaped, if_neg h]
  · intro s' e
    exact absurd e h
  · intro x y z s' e
    exact absurd e h

theorem readEscaped_plain {s : Text} (h : '\\' ∉ s) : readEscaped s = some (s.flatMap String.utf8EncodeChar) := by
  induction s with
  | nil => rfl
  | cons c s ih =>
    rw [List.mem_cons, not_or] at h
    rw [readEscaped_cons (Ne.symm h.1), ih h.2, Option.map_some, List.flatMap_cons]

theorem readBytea_plain {s : Text} (h : '\\' ∉ s) : readBytea s = some (s.flatMap String.utf8EncodeChar) := by
  rw [← readEscaped_plain h]
  unfold readBytea
  split
  · exact absurd List.mem_cons_self h
  · rfl

/-- No character has an empty encoding. -/
theorem length_le_utf8 (s : Text) : s.length ≤ (s.flatMap String.utf8EncodeChar).length := by
  induction s with
  | nil => rfl
  | cons c s ih =>
    have hpos : 0 < (String.utf8EncodeChar c).length := by
      rw [String.length_utf8EncodeChar]
      exact c.utf8Size_pos
    simp only [List.flatMap_cons, List.length_append, List.length_cons]
    omega

end TrinoGateway.Lib
