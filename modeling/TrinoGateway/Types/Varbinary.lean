/-
  TrinoGateway.Types.Varbinary — `varbinary` cells in the text format. Trino delivers the
  bytes in base64, the column is announced as `bytea`, and `text_value` of `src/types.rs`
  hands the base64 text on as it is.

  Proved: `varbinary_text_read_iff`. Base64 has no backslash, so PostgreSQL's rules for
  `bytea` accept it as the escape form of its own characters, four for every three bytes
  begun: the client reads the right bytes if and only if there are none
  (`varbinary_text_misread`).
-/

import TrinoGateway.Lib.ByteText
import TrinoGateway.Types.Integers

namespace TrinoGateway.Types

open TrinoGateway.Lib

def varbinary : Text := "varbinary".toList

theorem varbinary_is_bytea (U : UnicodeCase) : trinoTypeToPg U varbinary = .bytea :=
  trinoTypeToPg_variant U (.scalar .varbinary none) (by decide)

/-- A string in a `bytea` column is passed through. -/
theorem encodeCell_bytea (X : Crates) (s trinoType : Text) :
    encodeCell X (.string s) .bytea trinoType .text = .ok (.text s) := by
  have htext : textValue X (.string s) .bytea trinoType = encodeValue X (.string s) trinoType := by
    rw [textValue, if_neg (by decide), if_neg (by decide)]
  show Except.ok (optionText (textValue X (.string s) .bytea trinoType)) = _
  rw [htext]
  rfl

/-- `bytea` reads base64 as its characters, never as the bytes it stands for. -/
theorem readBytea_base64_iff (bytes : List UInt8) : readBytea (base64 bytes) = some bytes ↔ bytes = [] := by
  rw [readBytea_plain (base64_plain bytes), Option.some.injEq]
  constructor
  · intro h
    have hlen := length_le_utf8 (base64 bytes)
    rw [h, base64_length] at hlen
    exact List.length_eq_zero_iff.mp (by omega)
  · rintro rfl
    rfl

/-- The text cell of a `varbinary` value is refused or read as the value exactly if the value is empty. -/
theorem varbinary_text_read_iff (X : Crates) (bytes : List UInt8) :
    ∃ payload, encodeCell X (.string (base64 bytes)) (trinoTypeToPg X.unicode varbinary) varbinary .text =
        .ok (.text payload) ∧
      (readBytea payload = none ∨ readBytea payload = some bytes ↔ bytes = []) := by
  rw [varbinary_is_bytea, encodeCell_bytea]
  refine ⟨_, rfl, ?_⟩
  have haccepted : readBytea (base64 bytes) ≠ none := by
    rw [readBytea_plain (base64_plain bytes)]
    exact Option.some_ne_none _
  rw [← readBytea_base64_iff, or_iff_right haccepted]

/-- The two bytes of `hi` are read as the four of `aGk=`. -/
theorem varbinary_text_misread :
    encodeCell plainCrates (.string (base64 [0x68, 0x69])) (trinoTypeToPg plainCrates.unicode varbinary) varbinary .text =
        .ok (.text "aGk=".toList) ∧
      readBytea "aGk=".toList = some [0x61, 0x47, 0x6B, 0x3D] ∧
      ¬ (readBytea "aGk=".toList = none ∨ readBytea "aGk=".toList = some [0x68, 0x69]) := by
  have hbase64 : base64 [0x68, 0x69] = "aGk=".toList := by decide
  have hread : readBytea "aGk=".toList = some [0x61, 0x47, 0x6B, 0x3D] := by decide +kernel
  refine ⟨?_, hread, ?_⟩
  · rw [varbinary_is_bytea, encodeCell_bytea, hbase64]
  · rw [hread]
    decide

end TrinoGateway.Types
