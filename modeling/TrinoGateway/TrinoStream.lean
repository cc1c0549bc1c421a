/-
  TrinoGateway.TrinoStream — a statement sent to Trino and its rows (`src/trino_stream.rs`).

  Trino answers a statement with a chain of pages, each naming the URI of the next. The
  gateway follows the chain until a page has columns (`discover`) and hands the rest to
  the stream the client pulls (`RowStream.poll`). A URI stands here for what fetching it
  returns, so a chain of replies is a value of `Reply`.

  The slot `active_query_id` is state that `executeTrinoQuery` passes on. The stream's
  guard, which clears the slot, exists from the first poll to the end of the stream
  (`RowStream.guarded`); who polls and drops is not decided here.

  Proved: `execute_refines_chain`. Whatever the chain, the result is the error of a failure
  that comes before the columns, and otherwise the schema of the first page with columns
  and a stream of all rows of all pages, then the error the chain ends with, if it does.
  The two loops meet in `discoverFrom_spec` and `advance_yields`: one says which rows
  and which rest of the chain the first loop leaves, the other what a rest yields.
-/

import TrinoGateway.Lib.Pull
import TrinoGateway.ErrorMapping
import TrinoGateway.Types.Encode

namespace TrinoGateway

open TrinoGateway.Lib
open TrinoGateway.Types
open TrinoGateway.ErrorMapping (trinoErrorToPg)

/-! ## What the Trino client returns -/

structure Column where
  name : Text
  ty : Text

abbrev Row := List Value

inductive QueryResultData where
  | direct (rows : List Row)
  /-- Segments to be fetched elsewhere; the gateway does not. -/
  | spooled

/-- One page of a result; `error` is the message of the error it carries. -/
structure QueryResult where
  id : Text
  columns : Option (List Column)
  data : Option QueryResultData
  error : Option Text

/-- What a request to Trino returns: a failure, or a page with or without a `nextUri`. -/
inductive Reply where
  | failed (message : Text)
  | last (result : QueryResult)
  | more (result : QueryResult) (nextUri : Reply)

/-- `Client::get` and `Client::get_next`. -/
def Reply.get : Reply → Except Text (QueryResult × Option Reply)
  | .failed message => .error message
  | .last result => .ok (result, none)
  | .more result nextUri => .ok (result, some nextUri)

/-- The id of the query, on its first page. -/
def Reply.queryId : Reply → Text
  | .failed _ => []
  | .last result => result.id
  | .more result _ => result.id

/-! ## Schema and rows -/

structure TrinoColumn where
  name : Text
  trinoType : Text
  deriving DecidableEq

def TrinoColumn.ofColumn (col : Column) : TrinoColumn := ⟨col.name, col.ty⟩

variable (X : Crates)

def buildPgSchema (columns : List TrinoColumn) (resultFormat : Option Format) : Schema :=
  columns.mapIdx fun idx col =>
    ⟨col.name, trinoTypeToPg X.unicode col.trinoType, resultFormat.elim .text (·.formatFor idx)⟩

def encodeRow (values : Row) (columns : List TrinoColumn) (schema : Schema) : PgWireResult DataRow :=
  (values.zip (columns.zip schema)).mapM fun (value, col, field) =>
    encodeCell X value field.datatype col.trinoType field.format

def extractDirectRows : Option QueryResultData → List Row
  | some (.direct rows) => rows
  | _ => []

def QueryResult.trinoColumns (result : QueryResult) : List TrinoColumn :=
  (result.columns.map (·.map TrinoColumn.ofColumn)).getD []

def trinoError (message : Text) : PgWireError := .userError (trinoErrorToPg message)

/-! ## The row stream -/

inductive Phase where
  | unstarted (rows : List Row) (nextUri : Option Reply)
  | running (rows : List Row) (nextUri : Option Reply)
  /-- The error has been yielded, the body not left. -/
  | failing
  | finished

structure RowStream where
  columns : List TrinoColumn
  schema : Schema
  phase : Phase

/-- The body has started and its guard has not been dropped. -/
def RowStream.guarded (s : RowStream) : Bool :=
  match s.phase with
  | .running _ _ | .failing => true
  | .unstarted _ _ | .finished => false

/-- The rows of a statement sent to Trino, with its number on the connection and the id Trino gave it. -/
structure TrinoRows where
  number : ℕ
  id : Text
  stream : RowStream

/-- Where the rows of a result come from. -/
inductive RowSource where
  | static (rows : List DataRow)
  | trino (rows : TrinoRows)

/-- A response owns its stream; dropping one that was never polled runs no guard. -/
inductive Response where
  | query (schema : Schema) (rows : RowSource)
  | execution (tag : Text)
  | error (info : ErrorInfo)

/-- The rows of a result set forwarded from Trino. -/
def Response.trinoRows? : Response → Option TrinoRows
  | .query _ (.trino rows) => some rows
  | _ => none

variable (columns : List TrinoColumn) (schema : Schema)

/-- Fetch pages until there is something to yield. -/
def advance : Reply → Option (PgWireResult DataRow) × Phase
  | .failed message => (some (.error (trinoError message)), .failing)
  | .last result =>
    match result.error with
    | some message => (some (.error (trinoError message)), .failing)
    | none =>
      match extractDirectRows result.data with
      | [] => (none, .finished)
      | row :: rows => (some (encodeRow X row columns schema), .running rows none)
  | .more result nextUri =>
    match result.error with
    | some message => (some (.error (trinoError message)), .failing)
    | none =>
      match extractDirectRows result.data with
      | [] => advance nextUri
      | row :: rows => (some (encodeRow X row columns schema), .running rows (some nextUri))

/-- Run the body to its next `yield` or to its end. -/
def resume : List Row → Option Reply → Option (PgWireResult DataRow) × Phase
  | row :: rows, nextUri => (some (encodeRow X row columns schema), .running rows nextUri)
  | [], some reply => advance X columns schema reply
  | [], none => (none, .finished)

def RowStream.poll (s : RowStream) : Option (PgWireResult DataRow) × RowStream :=
  match s.phase with
  | .unstarted rows nextUri | .running rows nextUri =>
    let (item, phase) := resume X s.columns s.schema rows nextUri
    (item, { s with phase })
  | .failing | .finished => (none, { s with phase := .finished })

/-! ## Submitting a statement -/

/-- The loop that polls forward until columns appear, from where there are none yet. -/
def discoverFrom (rows : List Row) : Reply → Except Text (List TrinoColumn × List Row × Option Reply)
  | .failed message => .error message
  | .last result =>
    match result.error with
    | some message => .error message
    | none => .ok (result.trinoColumns, rows ++ extractDirectRows result.data, none)
  | .more result nextUri =>
    match result.error with
    | some message => .error message
    | none =>
      if result.trinoColumns.isEmpty then discoverFrom (rows ++ extractDirectRows result.data) nextUri
      else .ok (result.trinoColumns, rows ++ extractDirectRows result.data, some nextUri)

def discover (columns : List TrinoColumn) (rows : List Row) :
    Option Reply → Except Text (List TrinoColumn × List Row × Option Reply)
  | none => .ok (columns, rows, none)
  | some reply => if columns.isEmpty then discoverFrom rows reply else .ok (columns, rows, some reply)

/-- The result, and the slot after it. -/
def executeTrinoQuery (reply : Reply) (activeQueryId : Option Text) (resultFormat : Option Format) :
    PgWireResult (Schema × RowStream) × Option Text :=
  match reply.get with
  | .error message => (.error (trinoError message), activeQueryId)
  | .ok (result, nextUri) =>
    -- The slot is set before the error is looked at, and cleared again on every error.
    match result.error with
    | some message => (.error (trinoError message), none)
    | none =>
      match discover result.trinoColumns (extractDirectRows result.data) nextUri with
      | .error message => (.error (trinoError message), none)
      | .ok (columns, initialRows, nextUri) =>
        let schema := buildPgSchema X columns resultFormat
        (.ok (schema, ⟨columns, schema, .unstarted initialRows nextUri⟩), some result.id)

/-! ## What a chain of replies is -/

/-- The pages before the failure, if there is one, in order. -/
def Reply.pages : Reply → List QueryResult
  | .failed _ => []
  | .last result => if result.error.isSome then [] else [result]
  | .more result nextUri => if result.error.isSome then [] else result :: nextUri.pages

/-- The message of the error the chain ends with. -/
def Reply.failure : Reply → Option Text
  | .failed message => some message
  | .last result => result.error
  | .more result nextUri => result.error.or nextUri.failure

/-- The columns of the first page that has some. -/
def firstColumns (pages : List QueryResult) : Option (List TrinoColumn) :=
  (pages.find? (!·.trinoColumns.isEmpty)).map (·.trinoColumns)

def rowsOf (pages : List QueryResult) : List Row := pages.flatMap fun page => extractDirectRows page.data

def failureItem : Option Text → List (PgWireResult DataRow)
  | none => []
  | some message => [.error (trinoError message)]

/-- What is left to yield of `rows` and the chain after them. -/
def remainder (rows : List Row) (nextUri : Option Reply) : List (PgWireResult DataRow) :=
  (rows ++ nextUri.elim [] fun reply => rowsOf reply.pages).map (encodeRow X · columns schema) ++
    failureItem (nextUri.bind (·.failure))

/-! ## The stream yields what is left of the chain -/

/-- The stream with `rows` of the current page and the rest of the chain before it. -/
def runningAt (rows : List Row) (nextUri : Option Reply) : RowStream := ⟨columns, schema, .running rows nextUri⟩

abbrev StreamYields (s : RowStream) (items : List (PgWireResult DataRow)) : Prop := Yields (RowStream.poll X) s items

variable {X columns schema}

theorem failing_yields : StreamYields X ⟨columns, schema, .failing⟩ [] := ⟨_, .nil _, _, rfl, rfl⟩

/-- Rows are yielded one by one, whatever comes after them. -/
theorem rows_yield {nextUri : Option Reply}
    (h : StreamYields X (runningAt columns schema [] nextUri) (remainder X columns schema [] nextUri)) (rows : List Row) :
    StreamYields X (runningAt columns schema rows nextUri) (remainder X columns schema rows nextUri) := by
  induction rows with
  | nil => exact h
  | cons row rows ih => exact ih.cons rfl

theorem error_yields {reply : Reply} {message : Text}
    (hp : advance X columns schema reply = (some (.error (trinoError message)), .failing)) :
    StreamYields X (runningAt columns schema [] (some reply)) [.error (trinoError message)] := by
  have hpoll : (runningAt columns schema [] (some reply)).poll X =
      (some (.error (trinoError message)), ⟨columns, schema, .failing⟩) := by
    simp only [RowStream.poll, runningAt, resume, hp]
  exact failing_yields.cons hpoll

theorem remainder_error {reply : Reply} (message : Text) (hp : reply.pages = []) (hf : reply.failure = some message) :
    remainder X columns schema [] (some reply) = [.error (trinoError message)] := by
  simp [remainder, hp, hf, rowsOf, failureItem]

/-- What is left before a page without an error is its rows and what is left after it. -/
theorem remainder_more {result : QueryResult} {nextUri : Reply} (h : result.error = none) :
    remainder X columns schema [] (some (.more result nextUri)) =
      remainder X columns schema (extractDirectRows result.data) (some nextUri) := by
  simp [remainder, Reply.pages, Reply.failure, rowsOf, h]

theorem remainder_last {result : QueryResult} (h : result.error = none) :
    remainder X columns schema [] (some (.last result)) = remainder X columns schema (extractDirectRows result.data) none := by
  simp [remainder, Reply.pages, Reply.failure, rowsOf, h]

theorem end_yields : StreamYields X (runningAt columns schema [] none) (remainder X columns schema [] none) :=
  ⟨_, .nil _, ⟨columns, schema, .finished⟩, rfl, rfl⟩

theorem advance_yields (reply : Reply) :
    StreamYields X (runningAt columns schema [] (some reply)) (remainder X columns schema [] (some reply)) := by
  induction reply with
  | failed message =>
    rw [remainder_error message rfl rfl]
    exact error_yields rfl
  | last result =>
    cases he : result.error with
    | some message =>
      rw [remainder_error message (by simp [Reply.pages, he]) (by simp [Reply.failure, he])]
      exact error_yields (by simp [advance, he])
    | none =>
      rw [remainder_last he]
      refine (rows_yield end_yields _).of_poll_eq ?_
      cases hr : extractDirectRows result.data <;> simp [RowStream.poll, runningAt, resume, advance, he, hr]
  | more result nextUri ih =>
    cases he : result.error with
    | some message =>
      rw [remainder_error message (by simp [Reply.pages, he]) (by simp [Reply.failure, he])]
      exact error_yields (by simp [advance, he])
    | none =>
      rw [remainder_more he]
      refine (rows_yield ih _).of_poll_eq ?_
      cases hr : extractDirectRows result.data <;> simp [RowStream.poll, runningAt, resume, advance, he, hr]

theorem unstarted_yields (rows : List Row) (nextUri : Option Reply) :
    StreamYields X ⟨columns, schema, .unstarted rows nextUri⟩ (remainder X columns schema rows nextUri) := by
  have h : StreamYields X (runningAt columns schema [] nextUri) (remainder X columns schema [] nextUri) := by
    cases nextUri with
    | none => exact end_yields
    | some reply => exact advance_yields reply
  exact (rows_yield h rows).of_poll_eq (by rfl)

/-! ## The first loop leaves the right rest -/

variable (X) in
/-- What the first loop finds, with `rows` read before `reply`: the error of a failure that comes before the
    columns, no columns, or the first columns, and rows and a rest that together are what was left. -/
def Discovers (rows : List Row) (reply : Reply) (found : Except Text (List TrinoColumn × List Row × Option Reply)) : Prop :=
  match firstColumns reply.pages, reply.failure with
  | none, some message => found = .error message
  | none, none => ∃ initialRows, found = .ok ([], initialRows, none)
  | some columns, _ => ∃ initialRows nextUri, found = .ok (columns, initialRows, nextUri) ∧
      ∀ schema, remainder X columns schema initialRows nextUri = remainder X columns schema rows (some reply)

theorem firstColumns_cons (result : QueryResult) (pages : List QueryResult) : firstColumns (result :: pages) =
    if result.trinoColumns.isEmpty then firstColumns pages else some result.trinoColumns := by
  by_cases h : result.trinoColumns.isEmpty = true <;> simp [firstColumns, h]

theorem discoverFrom_spec (rows : List Row) (reply : Reply) : Discovers X rows reply (discoverFrom rows reply) := by
  induction reply generalizing rows with
  | failed message => simp [Discovers, Reply.pages, Reply.failure, firstColumns, discoverFrom]
  | last result =>
    cases he : result.error with
    | some message => simp [Discovers, Reply.pages, Reply.failure, firstColumns, discoverFrom, he]
    | none =>
      by_cases hc : result.trinoColumns.isEmpty = true
      · have hnil : result.trinoColumns = [] := List.isEmpty_iff.mp hc
        simp [Discovers, Reply.pages, Reply.failure, firstColumns, discoverFrom, he, hnil]
      · simp [Discovers, Reply.pages, Reply.failure, firstColumns_cons, discoverFrom, he, hc, remainder, rowsOf]
  | more result nextUri ih =>
    cases he : result.error with
    | some message => simp [Discovers, Reply.pages, Reply.failure, firstColumns, discoverFrom, he]
    | none =>
      by_cases hc : result.trinoColumns.isEmpty = true
      · have := ih (rows ++ extractDirectRows result.data)
        simpa [Discovers, Reply.pages, Reply.failure, firstColumns_cons, discoverFrom, he, hc, remainder, rowsOf] using this
      · simp [Discovers, Reply.pages, Reply.failure, firstColumns_cons, discoverFrom, he, hc, remainder, rowsOf]

/-- The first loop loses nothing when it stops at columns. -/
theorem discoverFrom_remainder {reply : Reply} {columns : List TrinoColumn} {initialRows : List Row}
    {nextUri : Option Reply} (h : discoverFrom [] reply = .ok (columns, initialRows, nextUri)) (hne : columns ≠ []) :
    remainder X columns schema initialRows nextUri = remainder X columns schema [] (some reply) := by
  have hspec := discoverFrom_spec (X := X) [] reply
  rw [Discovers, h] at hspec
  split at hspec
  · cases hspec
  · obtain ⟨_, hfound⟩ := hspec
    cases hfound
    exact absurd rfl hne
  · obtain ⟨_, _, hfound, hrest⟩ := hspec
    cases hfound
    exact hrest schema

/-- The first loop fails with the failure of the chain. -/
theorem discoverFrom_error {rows : List Row} {reply : Reply} {message : Text}
    (h : discoverFrom rows reply = .error message) : reply.failure = some message := by
  induction reply generalizing rows with
  | failed message' =>
    cases h
    rfl
  | last result =>
    unfold discoverFrom at h
    cases he : result.error with
    | none => rw [he] at h; cases h
    | some message' =>
      rw [he] at h
      cases h
      exact he
  | more result nextUri ih =>
    unfold discoverFrom at h
    cases he : result.error with
    | some message' =>
      rw [he] at h
      cases h
      rw [Reply.failure, he]
      rfl
    | none =>
      rw [he] at h
      dsimp only at h
      split_ifs at h
      rw [Reply.failure, he]
      exact ih h

/-- The first page is read as the later ones are. -/
theorem execute_result (reply : Reply) (slot : Option Text) (resultFormat : Option Format) :
    (executeTrinoQuery X reply slot resultFormat).1 =
      match discoverFrom [] reply with
      | .error message => .error (trinoError message)
      | .ok (columns, initialRows, nextUri) =>
        .ok (buildPgSchema X columns resultFormat,
          ⟨columns, buildPgSchema X columns resultFormat, .unstarted initialRows nextUri⟩) := by
  cases reply with
  | failed message => rfl
  | last result => cases he : result.error <;> simp [executeTrinoQuery, Reply.get, discoverFrom, discover, he]
  | more result nextUri =>
    cases he : result.error with
    | some message => simp [executeTrinoQuery, Reply.get, discoverFrom, he]
    | none =>
      by_cases hc : result.trinoColumns.isEmpty = true
      · simp only [executeTrinoQuery, Reply.get, discoverFrom, discover, he, hc, if_true, List.nil_append]
        cases discoverFrom (extractDirectRows result.data) nextUri <;> rfl
      · simp [executeTrinoQuery, Reply.get, discoverFrom, discover, he, hc]

/-- A statement that is accepted leaves its id in the slot. -/
theorem execute_slot {reply : Reply} {slot : Option Text} {resultFormat : Option Format} {r : Schema × RowStream}
    (h : (executeTrinoQuery X reply slot resultFormat).1 = .ok r) :
    (executeTrinoQuery X reply slot resultFormat).2 = some reply.queryId := by
  cases reply with
  | failed message => cases h
  | last result => cases he : result.error <;> simp_all [executeTrinoQuery, Reply.get, discover, Reply.queryId]
  | more result nextUri =>
    simp only [executeTrinoQuery, Reply.get] at h ⊢
    split at h
    · cases h
    · split at h
      · cases h
      · rfl

/-- The stream of a chain with columns yields all its rows and its failure. -/
theorem execute_of_columns {reply : Reply} {columns : List TrinoColumn} (h : firstColumns reply.pages = some columns)
    (slot : Option Text) (resultFormat : Option Format) :
    ∃ stream, (executeTrinoQuery X reply slot resultFormat).1 = .ok (buildPgSchema X columns resultFormat, stream) ∧
      StreamYields X stream ((rowsOf reply.pages).map (encodeRow X · columns (buildPgSchema X columns resultFormat)) ++
        failureItem reply.failure) := by
  have hspec := discoverFrom_spec (X := X) [] reply
  simp only [Discovers, h] at hspec
  obtain ⟨initialRows, nextUri, hfound, hrest⟩ := hspec
  rw [execute_result, hfound]
  refine ⟨_, rfl, ?_⟩
  have hyields : StreamYields X ⟨columns, buildPgSchema X columns resultFormat, .unstarted initialRows nextUri⟩ _ :=
    unstarted_yields initialRows nextUri
  rw [hrest] at hyields
  exact hyields

theorem execute_refines_chain (X : Crates) (reply : Reply) (slot : Option Text) (resultFormat : Option Format) :
    match firstColumns reply.pages, reply.failure with
    | none, some message => (executeTrinoQuery X reply slot resultFormat).1 = .error (trinoError message)
    | none, none => ∃ stream, (executeTrinoQuery X reply slot resultFormat).1 = .ok ([], stream)
    | some columns, failure =>
      ∃ stream, (executeTrinoQuery X reply slot resultFormat).1 = .ok (buildPgSchema X columns resultFormat, stream) ∧
        ∀ items, Yields (RowStream.poll X) stream items ↔
          items = (rowsOf reply.pages).map (encodeRow X · columns (buildPgSchema X columns resultFormat)) ++
            failureItem failure := by
  have hspec := discoverFrom_spec (X := X) [] reply
  simp only [Discovers] at hspec
  split
  · next hc hf =>
    simp only [hc, hf] at hspec
    rw [execute_result, hspec]
  · next hc hf =>
    simp only [hc, hf] at hspec
    obtain ⟨initialRows, hfound⟩ := hspec
    rw [execute_result, hfound]
    exact ⟨_, rfl⟩
  · next columns _ hc =>
    obtain ⟨stream, hstream, hyields⟩ := execute_of_columns (X := X) hc slot resultFormat
    refine ⟨stream, hstream, fun items => ?_⟩
    constructor
    · intro h
      exact h.unique hyields
    · rintro rfl
      exact hyields

end TrinoGateway
