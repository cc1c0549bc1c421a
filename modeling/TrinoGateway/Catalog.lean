/-
  TrinoGateway.Catalog — the tables of `pg_catalog` the gateway answers itself
  (`src/catalog/`): static stubs, the list of types, and `pg_class` and `pg_attribute`, which
  are built from two queries of the gateway's own to Trino's `information_schema`.
-/

import TrinoGateway.TrinoStream
import TrinoGateway.Sql.Inspection

namespace TrinoGateway.Catalog

open TrinoGateway.Lib
open TrinoGateway.Types
open TrinoGateway.Sql

def textField (name : String) (ty : PgType) : FieldInfo := ⟨name.toList, ty, .text⟩

def jsonStr (values : List Value) (idx : ℕ) (default : String) : Text :=
  (values[idx]?.bind Value.asStr).getD default.toList

/-- A result of strings, `none` for NULL. -/
def buildResponse (schema : Schema) (rows : List (List (Option Text))) : PgWireResult (List Response) :=
  .ok [.query schema (.static (rows.map (·.map optionText)))]

/-! ## Stubs -/

def emptyCompositeFields : PgWireResult (List Response) :=
  buildResponse [textField "oid" .int4, textField "attname" .varchar, textField "atttypid" .int4] []

def emptyEnumLabels : PgWireResult (List Response) :=
  buildResponse [textField "oid" .int4, textField "enumlabel" .varchar] []

def emptyPgRange : PgWireResult (List Response) :=
  buildResponse [textField "rngtypid" .int4, textField "rngsubtype" .int4, textField "rngmultitypid" .int4] []

def respondPgNamespace : PgWireResult (List Response) :=
  buildResponse [textField "oid" .int4, textField "nspname" .varchar]
    [[some "11".toList, some "pg_catalog".toList], [some "2200".toList, some "public".toList],
     [some "13171".toList, some "information_schema".toList]]

/-! ## pg_type -/

structure TypeEntry where
  oid : ℕ
  typname : String
  typtype : String
  elemtypoid : ℕ

def baseTypeEntries : List TypeEntry :=
  [⟨16, "bool", "b", 0⟩, ⟨17, "bytea", "b", 0⟩, ⟨20, "int8", "b", 0⟩, ⟨21, "int2", "b", 0⟩, ⟨23, "int4", "b", 0⟩,
   ⟨25, "text", "b", 0⟩, ⟨26, "oid", "b", 0⟩, ⟨114, "json", "b", 0⟩, ⟨142, "xml", "b", 0⟩, ⟨700, "float4", "b", 0⟩,
   ⟨701, "float8", "b", 0⟩, ⟨869, "inet", "b", 0⟩, ⟨1042, "bpchar", "b", 0⟩, ⟨1043, "varchar", "b", 0⟩,
   ⟨1082, "date", "b", 0⟩, ⟨1083, "time", "b", 0⟩, ⟨1114, "timestamp", "b", 0⟩, ⟨1184, "timestamptz", "b", 0⟩,
   ⟨1186, "interval", "b", 0⟩, ⟨1266, "timetz", "b", 0⟩, ⟨1700, "numeric", "b", 0⟩, ⟨2950, "uuid", "b", 0⟩,
   ⟨3802, "jsonb", "b", 0⟩]

def pseudoTypeEntries : List TypeEntry :=
  [⟨705, "unknown", "p", 0⟩, ⟨2249, "record", "p", 0⟩, ⟨2278, "void", "p", 0⟩]

def arrayTypeEntries : List TypeEntry :=
  [⟨199, "_json", "a", 114⟩, ⟨1000, "_bool", "a", 16⟩, ⟨1001, "_bytea", "a", 17⟩, ⟨1005, "_int2", "a", 21⟩,
   ⟨1007, "_int4", "a", 23⟩, ⟨1009, "_text", "a", 25⟩, ⟨1014, "_bpchar", "a", 1042⟩, ⟨1015, "_varchar", "a", 1043⟩,
   ⟨1016, "_int8", "a", 20⟩, ⟨1021, "_float4", "a", 700⟩, ⟨1022, "_float8", "a", 701⟩, ⟨1028, "_oid", "a", 26⟩,
   ⟨1041, "_inet", "a", 869⟩, ⟨1115, "_timestamp", "a", 1114⟩, ⟨1182, "_date", "a", 1082⟩,
   ⟨1183, "_time", "a", 1083⟩, ⟨1185, "_timestamptz", "a", 1184⟩, ⟨1187, "_interval", "a", 1186⟩,
   ⟨1231, "_numeric", "a", 1700⟩, ⟨2951, "_uuid", "a", 2950⟩, ⟨3807, "_jsonb", "a", 3802⟩]

def typeSchema : Schema :=
  [textField "nspname" .varchar, textField "typname" .varchar, textField "oid" .int4, textField "typrelid" .int4,
   textField "typbasetype" .int4, textField "type" .varchar, textField "elemoid" .int4, textField "ord" .int4]

/-- Base types first, then domains, ranges, arrays. -/
def TypeEntry.ord (e : TypeEntry) : String :=
  match e.typtype with
  | "a" => "3"
  | "r" => "2"
  | "d" => "1"
  | _ => "0"

def entryToRow (e : TypeEntry) : List (Option Text) :=
  [some "pg_catalog".toList, some e.typname.toList, some (natText e.oid), some "0".toList, some "0".toList,
   some e.typtype.toList, some (natText e.elemtypoid), some e.ord.toList]

def respondTypeLoading : PgWireResult (List Response) :=
  buildResponse typeSchema ((baseTypeEntries ++ pseudoTypeEntries ++ arrayTypeEntries).map entryToRow)

/-! ## pg_class -/

def baseTableOid : ℕ := 16384

def publicNamespaceOid : ℕ := 2200

def baseNamespaceOid : ℕ := 20000

/-- One byte into the hash, modulo 2 to the 32. -/
def djb2Byte (h b : ℕ) : ℕ := (h * 33 % 2 ^ 32 + b) % 2 ^ 32

def djb2Part (h : ℕ) (part : Text) : ℕ := (part.flatMap String.utf8EncodeChar).foldl (fun h b => djb2Byte h b.toNat) h

/-- The hash of the parts, with a byte no text has between them. -/
def djb2Hash : List Text → ℕ
  | [] => 5381
  | part :: parts => parts.foldl (fun h part => djb2Part (djb2Byte h 0xFF) part) (djb2Part 5381 part)

def djb2Oid (parts : List Text) (base : ℕ) : ℕ := base + djb2Hash parts % (2 ^ 31 - 1 - base)

def tableOid (schemaName tableName : Text) : ℕ := djb2Oid [schemaName, tableName] baseTableOid

def namespaceOid (schemaName : Text) : ℕ :=
  if schemaName = "public".toList then publicNamespaceOid else djb2Oid [schemaName] baseNamespaceOid

variable (X : Crates)

def relkind (tableType : Text) : String :=
  if toUppercase X.unicode tableType = "BASE TABLE".toList then "r"
  else if toUppercase X.unicode tableType = "VIEW".toList then "v"
  else "r"

def pgClassSql : Text :=
  ("SELECT table_schema, table_name, table_type FROM information_schema.tables " ++
    "WHERE table_schema NOT IN ('information_schema')").toList

def pgClassRow (values : List Value) : List (Option Text) :=
  let schemaName := jsonStr values 0 "public"
  let tblName := jsonStr values 1 ""
  let tblType := jsonStr values 2 "BASE TABLE"
  [some (natText (tableOid schemaName tblName)), some tblName, some (natText (namespaceOid schemaName)),
   some (relkind X tblType).toList]

/-- The rows of a query of the gateway's own; a failure of it is not reported as a user error. -/
abbrev Dataset := Except Text (List (List Value))

def respondPgClass (dataset : Dataset) : PgWireResult (List Response) :=
  match dataset with
  | .error e => .error (.apiError e)
  | .ok rows =>
    buildResponse [textField "oid" .int4, textField "relname" .varchar, textField "relnamespace" .int4,
      textField "relkind" .varchar] (rows.map (pgClassRow X))

/-! ## pg_attribute -/

def pgAttributeSql : Text :=
  ("SELECT table_schema, table_name, column_name, ordinal_position, is_nullable, data_type " ++
    "FROM information_schema.columns WHERE table_schema NOT IN ('information_schema') " ++
    "ORDER BY table_schema, table_name, ordinal_position").toList

/-- `Type::oid`. -/
def pgTypeOid : PgType → ℕ
  | .bool => 16
  | .int2 => 21
  | .int4 => 23
  | .int8 => 20
  | .float4 => 700
  | .float8 => 701
  | .numeric => 1700
  | .varchar => 1043
  | .bpchar => 1042
  | .bytea => 17
  | .date => 1082
  | .time => 1083
  | .timetz => 1266
  | .timestamp => 1114
  | .timestamptz => 1184
  | .interval => 1186
  | .jsonb => 3802
  | .uuid => 2950
  | .inet => 869
  | .text => 25
  | .name => 19
  | .unknown => 705
  | .boolArray => 1000
  | .int2Array => 1005
  | .int4Array => 1007
  | .int8Array => 1016
  | .float4Array => 1021
  | .float8Array => 1022
  | .numericArray => 1231
  | .varcharArray => 1015
  | .bpcharArray => 1014
  | .byteaArray => 1001
  | .dateArray => 1182
  | .timeArray => 1183
  | .timetzArray => 1270
  | .timestampArray => 1115
  | .timestamptzArray => 1185
  | .intervalArray => 1187
  | .jsonbArray => 3807
  | .uuidArray => 2951
  | .inetArray => 1041
  | .textArray => 1009

/-- The position of a column, a JSON number or a string of one. -/
def ordinalPosition (value : Value) : Option ℤ :=
  match value with
  | .number n => n.asI64
  | .string s => parseI64 s
  | _ => none

def pgAttributeRow (values : List Value) : List (Option Text) :=
  let attrelid := tableOid (jsonStr values 0 "public") (jsonStr values 1 "")
  let ordinal := (values[3]?.bind ordinalPosition).getD 0
  let atttypid := pgTypeOid (trinoTypeToPg X.unicode (jsonStr values 5 "varchar"))
  let attnotnull := if jsonStr values 4 "YES" = "NO".toList then "true" else "false"
  [some (natText attrelid), some (jsonStr values 2 ""), some (natText atttypid), some (intText ordinal),
   some attnotnull.toList, some "false".toList]

def respondPgAttribute (dataset : Dataset) : PgWireResult (List Response) :=
  match dataset with
  | .error e => .error (.apiError e)
  | .ok rows =>
    buildResponse [textField "attrelid" .int4, textField "attname" .varchar, textField "atttypid" .int4,
      textField "attnum" .int2, textField "attnotnull" .bool, textField "attisdropped" .bool] (rows.map (pgAttributeRow X))

/-! ## Dispatch -/

/-- The static tables. The enum query joins `pg_type`, so `pg_enum` comes first. -/
def handleCatalogQuery (query : ParsedQuery) : Option (PgWireResult (List Response)) :=
  if query.referencesTable "pg_attribute".toList && query.referencesTable "pg_type".toList then some emptyCompositeFields
  else if query.referencesTable "pg_enum".toList then some emptyEnumLabels
  else if query.referencesTable "pg_type".toList then some respondTypeLoading
  else if query.referencesTable "pg_range".toList then some emptyPgRange
  else if query.referencesTable "pg_namespace".toList then some respondPgNamespace
  else none

/-- The tables that are answered by a query to Trino. -/
inductive DynamicTable where
  | pgClass
  | pgAttribute
  deriving DecidableEq, Repr

def DynamicTable.sql : DynamicTable → Text
  | .pgClass => pgClassSql
  | .pgAttribute => pgAttributeSql

def DynamicTable.respond : DynamicTable → Dataset → PgWireResult (List Response)
  | .pgClass => respondPgClass X
  | .pgAttribute => respondPgAttribute X

/-- Which of them `handle_dynamic_catalog_query` answers the query with. -/
def dynamicTable (query : ParsedQuery) : Option DynamicTable :=
  if query.referencesTable "pg_attribute".toList && query.referencesTable "pg_type".toList then none
  else if query.referencesTable "pg_class".toList then some .pgClass
  else if query.referencesTable "pg_attribute".toList then some .pgAttribute
  else none

/-- `SELECT` one column `FROM` one table. -/
def selectFrom (column table : String) : Query :=
  .mk [] (.select (.mk [] [.unnamedExpr (.identifier ⟨column.toList, none⟩)]
    [.table [.identifier ⟨table.toList, none⟩] []] none [] none [] [] [] none [])) [] .absent .absent []

example : dynamicTable ⟨some [.query (selectFrom "relname" "pg_class")]⟩ = some .pgClass := by decide +kernel

end TrinoGateway.Catalog
