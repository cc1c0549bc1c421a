/-
  TrinoGateway.Types.Encode — one cell of a result row, from the JSON value Trino sent to
  the bytes of the data row (`encode_cell` of `src/types.rs`): the text path
  (`encode_value`, `text_value`) and the binary path (`encode_binary_cell` with its
  conversions).

  What the code takes from other crates and does not define is a parameter (`Crates`):
  the Unicode case maps, `chrono`, how `serde_json` prints a float, how `rust_decimal` reads
  and sends a decimal, and which texts `pgwire` quotes.
-/

import TrinoGateway.Lib.Interchange
import TrinoGateway.Types.Temporal
import TrinoGateway.Pgwire

namespace TrinoGateway.Types

open TrinoGateway.Lib

/-! ## JSON values -/

/-- `serde_json::Number`: a `u64`, a negative `i64` or a finite `f64`. -/
inductive Number where
  | posInt (n : ℕ) (h : n < 2 ^ 64)
  | negInt (k : ℤ) (h : -2 ^ 63 ≤ k ∧ k < 0)
  | float (x : Finite binary64)

inductive Value where
  | null
  | bool (b : Bool)
  | number (n : Number)
  | string (s : Text)
  | array (vs : List Value)
  | object (fields : List (Text × Value))

def Number.asI64 : Number → Option ℤ
  | .posInt n _ => if n < 2 ^ 63 then some n else none
  | .negInt k _ => some k
  | .float _ => none

def Number.asU64 : Number → Option ℕ
  | .posInt n _ => some n
  | _ => none

def Number.asF64 : Number → Binary binary64
  | .posInt n _ => binary64.ofRat false n
  | .negInt k _ => binary64.ofRat true k.natAbs
  | .float x => .finite x

def Value.asStr : Value → Option Text
  | .string s => some s
  | _ => none

structure Crates where
  unicode : UnicodeCase
  chrono : Chrono
  /-- `Display` of a float in `serde_json`. -/
  floatText : Finite binary64 → Text
  /-- The payload of what `Decimal::from_str_exact` reads. -/
  numeric : Text → Option (List UInt8)
  /-- Which texts `pgwire` puts in quotes where the type of the column is an array. -/
  quoteCheck : Text → Bool

variable (X : Crates)

def Number.text : Number → Text
  | .posInt n _ => natText n
  | .negInt k _ => intText k
  | .float x => X.floatText x

/-- How JSON writes a character of a string. -/
def escapeChar (c : Char) : Text :=
  if c = '"' then "\\\"".toList
  else if c = '\\' then "\\\\".toList
  else if c.toNat = 8 then "\\b".toList
  else if c.toNat = 9 then "\\t".toList
  else if c.toNat = 10 then "\\n".toList
  else if c.toNat = 12 then "\\f".toList
  else if c.toNat = 13 then "\\r".toList
  else if c.toNat < 32 then "\\u00".toList ++ [Nat.digitChar (c.toNat / 16), Nat.digitChar (c.toNat % 16)]
  else [c]

def quoted (s : Text) : Text := '"' :: s.flatMap escapeChar ++ ['"']

mutual
/-- `Display` of a JSON value. -/
def Value.text : Value → Text
  | .null => "null".toList
  | .bool b => if b then "true".toList else "false".toList
  | .number n => n.text X
  | .string s => quoted s
  | .array vs => '[' :: elements vs ++ [']']
  | .object fs => '\x7b' :: members fs ++ ['\x7d']
def elements : List Value → Text
  | [] => []
  | [v] => v.text
  | v :: vs => v.text ++ ',' :: elements vs
def members : List (Text × Value) → Text
  | [] => []
  | [(k, v)] => quoted k ++ ':' :: v.text
  | (k, v) :: fs => quoted k ++ ':' :: v.text ++ ',' :: members fs
end

/-! ## Floats and integers of Rust -/

/-- `Display` of an `f64`: the shortest digits that read back, written out. -/
def displayF64 (x : Finite binary64) : Text :=
  (if x.neg then ['-'] else []) ++ decimalText (binary64.shortest x.mag).1 (binary64.shortest x.mag).2

/-- `f >= i64::MIN as f64 && f < i64::MAX as f64`; the upper bound is 2 to the 63. -/
def fitsI64 (x : Finite binary64) : Prop := -2 ^ 63 ≤ x.val ∧ x.val < 2 ^ 63

instance (x : Finite binary64) : Decidable (fitsI64 x) := inferInstanceAs (Decidable (_ ∧ _))

/-- `f as i64`, which saturates. -/
def castI64 (x : Finite binary64) : ℤ := max (-2 ^ 63) (min (2 ^ 63 - 1) x.trunc)

/-- `str::parse::<i64>`. -/
def parseI64 (s : Text) : Option ℤ := (readInt s).filter fun k => decide (-2 ^ 63 ≤ k ∧ k < 2 ^ 63)

/-- `str::parse::<f64>`; the sign of a NaN is not kept. -/
def parseF64 (s : Text) : Option (Binary binary64) := readFloat binary64 s

def f64ToI64Exact : Binary binary64 → Option ℤ
  | .finite x => if (x.trunc : ℚ) = x.val ∧ fitsI64 x then some (castI64 x) else none
  | .infinite _ => none
  | .nan => none

/-! ## The text path -/

/-- The name before the parameters. -/
def baseType (trinoType : Text) : Text :=
  let trimmed := trim trinoType
  match trimmed.idxOf? '(' with
  | some idx => trim (trimmed.take idx)
  | none => trimmed

/-- PostgreSQL's text for an `f64`. -/
def formatFloatText : Binary binary64 → Text
  | .nan => "NaN".toList
  | .infinite neg => if neg then "-Infinity".toList else "Infinity".toList
  | .finite x => displayF64 x

/-- The Trino names of the integer types. -/
def integerNames : List Text := ["tinyint".toList, "smallint".toList, "integer".toList, "bigint".toList]

def encodeNumber (n : Number) (base : Text) : Text :=
  let name := toLowercase X.unicode base
  if name ∈ integerNames then
    match n.asI64 with
    | some i => intText i
    | none =>
      match n.asU64 with
      | some u => natText u
      | none =>
        match n.asF64 with
        | .finite x => if fitsI64 x then intText (castI64 x) else displayF64 x
        | _ => n.text X
  else if name = "real".toList ∨ name = "double".toList then formatFloatText n.asF64
  else n.text X

def encodeValue (value : Value) (trinoType : Text) : Option Text :=
  match value with
  | .null => none
  | .bool b => some (if b then "true".toList else "false".toList)
  | .number n => some (encodeNumber X n (baseType trinoType))
  | .string s => some s
  | .array _ => some (value.text X)
  | .object _ => some (value.text X)

/-- A value in the text format; the two types with a time zone are reshaped if they parse. -/
def textValue (value : Value) (pgType : PgType) (trinoType : Text) : Option Text :=
  match if pgType = .timestamptz then value.asStr.bind (parseTrinoTimestamptz X.chrono) else none with
  | some dt => some (renderTimestamptzText X.chrono dt)
  | none =>
    match if pgType = .timetz then value.asStr.bind (parseTrinoTimetz X.chrono) else none with
    | some t => some (t.toPgText X.chrono)
    | none => encodeValue X value trinoType

/-! ## The binary path -/

/-- `Type::name`. -/
def PgType.typeName : PgType → String
  | .bool => "bool"
  | .int2 => "int2"
  | .int4 => "int4"
  | .int8 => "int8"
  | .float4 => "float4"
  | .float8 => "float8"
  | .numeric => "numeric"
  | .varchar => "varchar"
  | .bpchar => "bpchar"
  | .bytea => "bytea"
  | .date => "date"
  | .time => "time"
  | .timetz => "timetz"
  | .timestamp => "timestamp"
  | .timestamptz => "timestamptz"
  | .interval => "interval"
  | .jsonb => "jsonb"
  | .uuid => "uuid"
  | .inet => "inet"
  | .text => "text"
  | .name => "name"
  | .unknown => "unknown"
  | .boolArray => "_bool"
  | .int2Array => "_int2"
  | .int4Array => "_int4"
  | .int8Array => "_int8"
  | .float4Array => "_float4"
  | .float8Array => "_float8"
  | .numericArray => "_numeric"
  | .varcharArray => "_varchar"
  | .bpcharArray => "_bpchar"
  | .byteaArray => "_bytea"
  | .dateArray => "_date"
  | .timeArray => "_time"
  | .timetzArray => "_timetz"
  | .timestampArray => "_timestamp"
  | .timestamptzArray => "_timestamptz"
  | .intervalArray => "_interval"
  | .jsonbArray => "_jsonb"
  | .uuidArray => "_uuid"
  | .inetArray => "_inet"
  | .textArray => "_text"

def userError (code : String) (message : Text) : PgWireError := .userError ⟨"ERROR".toList, code.toList, message⟩

def conversionError (target : String) (trinoType : Text) : PgWireError :=
  userError "22P03" ("gateway could not encode a Trino ".toList ++ trinoType ++ " value as binary ".toList ++ target.toList)

def outOfRange (value : ℤ) (target : String) : PgWireError :=
  userError "22003" ("value ".toList ++ intText value ++ " out of range for binary ".toList ++ target.toList)

def unsupportedBinaryType (pgType : PgType) (trinoType : Text) : PgWireError :=
  userError "0A000" ("binary wire format for column type ".toList ++ pgType.typeName.toList ++ " (Trino ".toList ++ trinoType ++
    ") is not supported by the gateway; the client requested binary results for this column".toList)

/-- A conversion's result, or the error that names its target. -/
def convert {α : Type} (target : String) (trinoType : Text) : Option α → PgWireResult α
  | some a => .ok a
  | none => .error (conversionError target trinoType)

def jsonToBool (value : Value) (trinoType : Text) : PgWireResult Bool :=
  convert "boolean" trinoType <|
    match value with
    | .bool b => some b
    | .string s => if s = "true".toList then some true else if s = "false".toList then some false else none
    | _ => none

/-- The integer `json_to_i64` finds in a value. -/
def integerOf : Value → Option ℤ
  | .number n =>
    (n.asI64.or (n.asU64.bind fun u => if u < 2 ^ 63 then some (u : ℤ) else none)).or (f64ToI64Exact n.asF64)
  | .string s => (parseI64 (trim s)).or ((parseF64 (trim s)).bind f64ToI64Exact)
  | _ => none

def jsonToI64 (value : Value) (trinoType : Text) : PgWireResult ℤ := convert "integer" trinoType (integerOf value)

def jsonToF64 (value : Value) (trinoType : Text) : PgWireResult (Binary binary64) :=
  convert "float" trinoType <|
    match value with
    | .number n => some n.asF64
    | .string s =>
      let t := trim s
      if t = "NaN".toList then some .nan
      else if t = "Infinity".toList then some (.infinite false)
      else if t = "-Infinity".toList then some (.infinite true)
      else parseF64 t
    | _ => none

/-- The payload of the decimal. -/
def jsonToDecimal (value : Value) (trinoType : Text) : PgWireResult (List UInt8) :=
  convert "numeric" trinoType <|
    match value with
    | .string s => X.numeric (trim s)
    | .number n => X.numeric (trim (n.text X))
    | _ => none

def jsonToTimestamp (value : Value) (trinoType : Text) : PgWireResult NaiveDateTime :=
  convert "timestamp" trinoType (value.asStr.bind fun s => parseNaiveDatetime X.chrono (trim s))

def jsonToTimestamptz (value : Value) (trinoType : Text) : PgWireResult NaiveDateTime :=
  convert "timestamptz" trinoType (value.asStr.bind (parseTrinoTimestamptz X.chrono))

def jsonToDate (value : Value) (trinoType : Text) : PgWireResult ℤ :=
  convert "date" trinoType (value.asStr.bind fun s => X.chrono.parseDate (trim s))

def jsonToTime (value : Value) (trinoType : Text) : PgWireResult NaiveTime :=
  convert "time" trinoType (value.asStr.bind fun s => X.chrono.parseTime (truncateFraction (trim s)))

def jsonToTimetz (value : Value) (trinoType : Text) : PgWireResult TimeTz :=
  convert "timetz" trinoType (value.asStr.bind (parseTrinoTimetz X.chrono))

def optionText : Option Text → Payload
  | some s => .text s
  | none => .null

def encodeBinaryCell (value : Value) (pgType : PgType) (trinoType : Text) : PgWireResult Payload :=
  match pgType with
  | .bool => do return .bytes [if ← jsonToBool value trinoType then 1 else 0]
  | .int2 => do
    let n ← jsonToI64 value trinoType
    if -2 ^ 15 ≤ n ∧ n < 2 ^ 15 then return .bytes (putInt 2 n) else throw (outOfRange n "int2")
  | .int4 => do
    let n ← jsonToI64 value trinoType
    if -2 ^ 31 ≤ n ∧ n < 2 ^ 31 then return .bytes (putInt 4 n) else throw (outOfRange n "int4")
  | .int8 => do return .bytes (putInt 8 (← jsonToI64 value trinoType))
  | .float4 => do return .bytes (putInt 4 (((← jsonToF64 value trinoType).cast binary32).bits 32))
  | .float8 => do return .bytes (putInt 8 ((← jsonToF64 value trinoType).bits 64))
  | .numeric => do return .bytes (← jsonToDecimal X value trinoType)
  | .timestamp => do return .bytes (putInt 8 (← jsonToTimestamp X value trinoType).numMicroseconds)
  | .timestamptz => do return .bytes (putInt 8 (← jsonToTimestamptz X value trinoType).numMicroseconds)
  | .date => do return .bytes (putInt 4 (← jsonToDate X value trinoType))
  | .time => do return .bytes (putInt 8 (← jsonToTime X value trinoType).numMicroseconds)
  | .timetz => do return .bytes (← jsonToTimetz X value trinoType).toSql
  | .varchar | .text | .bpchar | .name | .unknown => return optionText (encodeValue X value trinoType)
  | _ => throw (unsupportedBinaryType pgType trinoType)

def PgType.isArray : PgType → Bool
  | .boolArray | .int2Array | .int4Array | .int8Array | .float4Array | .float8Array | .numericArray | .varcharArray
  | .bpcharArray | .byteaArray | .dateArray | .timeArray | .timetzArray | .timestampArray | .timestamptzArray
  | .intervalArray | .jsonbArray | .uuidArray | .inetArray | .textArray => true
  | _ => false

/-- A quote or backslash with a backslash before it. -/
def escapeQuote (c : Char) : Text := if c = '"' ∨ c = '\\' then ['\\', c] else [c]

/-- `to_sql_text` of a string, by which `encode_field` writes a text cell: in a column of an array
    type a text is taken for an element of an array literal. -/
def toSqlText (pgType : PgType) (s : Text) : Text :=
  if pgType.isArray && X.quoteCheck s then '"' :: s.flatMap escapeQuote ++ ['"'] else s

def encodeCell (value : Value) (pgType : PgType) (trinoType : Text) (format : FieldFormat) : PgWireResult Payload :=
  match value with
  | .null => return .null
  | _ =>
    match format with
    | .text => return optionText ((textValue X value pgType trinoType).map (toSqlText X pgType))
    | .binary => encodeBinaryCell X value pgType trinoType

end TrinoGateway.Types
