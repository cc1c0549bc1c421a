/-
  TrinoGateway.Intercept — the queries the gateway answers without Trino
  (`src/intercept.rs`, `src/info_schema.rs`). Session commands are told by the words the
  text starts with; the rest by the relations and functions of the parsed query, whatever
  kind of statement names them.
-/

import TrinoGateway.Catalog

namespace TrinoGateway.Intercept

open TrinoGateway.Lib
open TrinoGateway.Types
open TrinoGateway.Sql
open TrinoGateway.Catalog

/-! ## Responses -/

def singleTextResponse (columnName value : Text) : PgWireResult (List Response) :=
  .ok [.query [⟨columnName, .varchar, .text⟩] (.static [[.text value]])]

def singleBoolResponse (columnName : Text) (value : Bool) : PgWireResult (List Response) :=
  .ok [.query [⟨columnName, .bool, .text⟩] (.static [[.text (if value then ['t'] else ['f'])]])]

def executed (tag : String) : PgWireResult (List Response) := .ok [.execution tag.toList]

/-! ## SHOW -/

/-- The parameters the gateway announces at startup and returns for `SHOW`. -/
def serverParams : List (String × String) :=
  [("server_version", "16.6"), ("server_version_num", "160006"), ("server_encoding", "UTF8"),
   ("client_encoding", "UTF8"), ("DateStyle", "ISO, MDY"), ("integer_datetimes", "on"),
   ("standard_conforming_strings", "on"), ("TimeZone", "UTC"), ("IntervalStyle", "postgres"),
   ("in_hot_standby", "off"), ("search_path", "\"$user\", public"), ("is_superuser", "on"),
   ("default_transaction_read_only", "off"), ("application_name", ""), ("max_identifier_length", "63"),
   ("transaction_isolation", "read committed")]

/-- The text from byte `n` on. -/
def dropBytes : ℕ → Text → Text
  | 0, s => s
  | _ + 1, [] => []
  | n + 1, c :: s => dropBytes (n + 1 - c.utf8Size) s

variable (X : Crates)

def interceptShow (trimmed : Text) : PgWireResult (List Response) :=
  let param := toLowercase X.unicode (trim (dropBytes 4 trimmed))
  let value := ((serverParams.find? fun kv => decide (CaseVariant kv.1.toList param)).map (·.2)).getD "on"
  singleTextResponse param value.toList

/-! ## Server functions -/

structure Config where
  trinoCatalog : Text
  trinoSchema : Text

def currentSetting (setting : Text) : Option String :=
  if setting = "server_version_num".toList then some "160006"
  else if setting = "server_version".toList then some "16.6"
  else none

def interceptServerFunctions (query : ParsedQuery) (config : Config) : Option (PgWireResult (List Response)) :=
  if !query.isBareScalarSelect then none
  else if query.callsFunction "version".toList then
    some (singleTextResponse "version".toList
      "PostgreSQL 16.6 on x86_64-pc-linux-gnu, compiled by gcc 12.2.0, 64-bit".toList)
  else if query.callsFunction "current_database".toList then
    some (singleTextResponse "current_database".toList config.trinoCatalog)
  else if query.callsFunctionOrKeyword "current_schema".toList then
    some (singleTextResponse "current_schema".toList config.trinoSchema)
  else if query.callsFunction "pg_is_in_recovery".toList then
    some (singleTextResponse "pg_is_in_recovery".toList "false".toList)
  else
    ((query.functionStringArg "current_setting".toList).bind currentSetting).map fun v =>
      singleTextResponse "current_setting".toList v.toList

/-! ## information_schema -/

def informationSchema : Text := "information_schema".toList

def missingTables : List Text :=
  ["referential_constraints".toList, "table_constraints".toList, "key_column_usage".toList,
   "constraint_column_usage".toList, "constraint_table_usage".toList, "check_constraints".toList]

/-- No rows, with the columns of the query's `SELECT` list. -/
def emptyQueryResponse (query : ParsedQuery) : PgWireResult (List Response) :=
  let columns := if query.selectColumnNames.isEmpty then ["column".toList] else query.selectColumnNames
  .ok [.query (columns.map fun name => ⟨name, .varchar, .text⟩) (.static [])]

def interceptMissingInformationSchema (query : ParsedQuery) : Option (PgWireResult (List Response)) :=
  if missingTables.any (query.referencesTableInSchema informationSchema) then some (emptyQueryResponse query)
  else none

def typeMapping : Text :=
  ("CASE WHEN lower(data_type) = 'double' THEN 'double precision' " ++
    "WHEN lower(data_type) LIKE 'varchar%' THEN 'character varying' " ++
    "WHEN lower(data_type) LIKE 'char(%' THEN 'character' " ++
    "WHEN lower(data_type) LIKE '%timestamp%with time zone%' THEN 'timestamp with time zone' " ++
    "WHEN lower(data_type) LIKE 'timestamp%' THEN 'timestamp without time zone' " ++
    "WHEN lower(data_type) LIKE '%time%with time zone%' THEN 'time with time zone' " ++
    "WHEN lower(data_type) LIKE 'time%' THEN 'time without time zone' " ++
    "WHEN lower(data_type) LIKE 'decimal%' THEN 'numeric' " ++
    "WHEN lower(data_type) = 'varbinary' THEN 'bytea' ELSE data_type END").toList

def powerbiMarker : Text := "CASE WHEN (DATA_TYPE LIKE '%UNSIGNED%')".toList

def endMarker : Text := "END AS DATA_TYPE".toList

/-- Splice the mapping in, between the first marker and the first end marker after it. -/
def rewriteInfoSchemaColumns (query : Text) (parsedQuery : ParsedQuery) : Option Text :=
  if !parsedQuery.referencesTableInSchema informationSchema "columns".toList then none
  else do
    let upper := query.map Char.toUpper
    let start ← find? powerbiMarker upper
    let endPos ← find? endMarker (upper.drop start)
    some (query.take start ++ typeMapping ++ " AS DATA_TYPE".toList ++ query.drop (start + endPos + endMarker.length))

/-! ## Dispatch -/

/-- The response to a session command, told by the upper-cased text without its final semicolons. -/
def sessionCommand (trimmed : Text) : Option (PgWireResult (List Response)) :=
  let upper := toUppercase X.unicode trimmed
  let starts (word : String) : Bool := word.toList.isPrefixOf upper
  let is (word : String) : Bool := upper == word.toList
  if starts "SET " then some (executed "SET")
  else if is "BEGIN" || starts "BEGIN " || starts "START TRANSACTION" then some (executed "BEGIN")
  else if is "COMMIT" || is "END" then some (executed "COMMIT")
  else if is "ROLLBACK" || starts "ROLLBACK " then some (executed "ROLLBACK")
  else if starts "DISCARD " || starts "DEALLOCATE " || is "CLOSE ALL" then some (executed "OK")
  else if starts "SHOW " then some (interceptShow X trimmed)
  else none

/-- The text without white space around it and semicolons after it. -/
def withoutTerminator (query : Text) : Text := trim ((trim query).rdropWhile (· == ';'))

/-- The checks on the parsed query, after those on the text. -/
def tableIntercept (parsedQuery : ParsedQuery) (clientIsSecure : Bool) : Option (PgWireResult (List Response)) :=
  if parsedQuery.referencesTable "pg_stat_ssl".toList then some (singleBoolResponse "ssl".toList clientIsSecure)
  else
    (handleCatalogQuery parsedQuery).or
      (if parsedQuery.referencesTableInSchema informationSchema "character_sets".toList then
        some (singleTextResponse "character_set_name".toList "UTF8".toList)
      else interceptMissingInformationSchema parsedQuery)

def tryIntercept (query : Text) (parsedQuery : ParsedQuery) (config : Config) (clientIsSecure : Bool) :
    Option (PgWireResult (List Response)) :=
  if (trim query).isEmpty then none
  else
    ((sessionCommand X (withoutTerminator query)).or (interceptServerFunctions parsedQuery config)).or
      (tableIntercept parsedQuery clientIsSecure)

end TrinoGateway.Intercept
