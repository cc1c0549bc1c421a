/-
  TrinoGateway.Pgwire — the values the gateway exchanges with the `pgwire` crate: errors,
  wire formats, the columns of a row description and the cells of a data row.
-/

import TrinoGateway.Types.TypeMap

namespace TrinoGateway

open TrinoGateway.Lib
open TrinoGateway.Types (PgType)

structure ErrorInfo where
  severity : Text
  code : Text
  message : Text
  deriving DecidableEq, Repr

/-- `userError` is reported to the client; any other error tears the connection down. -/
inductive PgWireError where
  | userError (info : ErrorInfo)
  | apiError (message : Text)
  deriving DecidableEq, Repr

abbrev PgWireResult (α : Type) := Except PgWireError α

inductive FieldFormat where
  | text
  | binary
  deriving DecidableEq, Repr

/-- The result formats of a Bind: one for all columns, or a format code per column. -/
inductive Format where
  | unifiedText
  | unifiedBinary
  | individual (codes : List ℤ)
  deriving DecidableEq, Repr

/-- Beyond the list of codes a column is text. -/
def Format.formatFor : Format → ℕ → FieldFormat
  | .unifiedText, _ => .text
  | .unifiedBinary, _ => .binary
  | .individual codes, idx => if codes[idx]? = some 1 then .binary else .text

structure FieldInfo where
  name : Text
  datatype : PgType
  format : FieldFormat
  deriving DecidableEq, Repr

/-- One field of a data row: SQL NULL, or the bytes after the length. A string's bytes
    are its UTF-8 encoding in either format. -/
inductive Payload where
  | null
  | text (s : Text)
  | bytes (bs : List UInt8)
  deriving DecidableEq, Repr

abbrev DataRow := List Payload

abbrev Schema := List FieldInfo

end TrinoGateway
