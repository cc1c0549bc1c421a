/-
  TrinoGateway.Pipeline — the query pipeline (`src/query_pipeline.rs`): a text is split into
  statements, and each one is answered by the gateway itself, answered from a query of the
  gateway's own to Trino, or rewritten and submitted to Trino.

  `Link` is what the pipeline changes on a connection: the slot `active_query_id`, and the
  requests made to Trino so far. Trino's behaviour is a function of these and of the text it
  is sent, so it may answer the same text in another way every time.

  Proved: `write_reaches_trino_iff` (`write_answered_locally` is a write that does not): a
  statement that changes data or schema is submitted, or refused, if and only if it is no
  session command and names none of the tables the gateway serves, and a lookup for
  `pg_class` or `pg_attribute` fails.
  `batch_stops_iff` (`batch_goes_on`): statements are submitted when the batch is read, not
  when their rows are, so a statement that fails on a later page stops the batch only if the
  gateway would have sent nothing after it anyway.
  `processBatch_spec` says what a batch does, whatever its statements do.
-/

import TrinoGateway.Intercept
import TrinoGateway.Sql.Rewrite
import TrinoGateway.Types.Integers

namespace TrinoGateway.Pipeline

open TrinoGateway.Lib
open TrinoGateway.Types
open TrinoGateway.Sql
open TrinoGateway.Catalog
open TrinoGateway.Intercept

/-! ## Trino and the connection to it -/

inductive Request where
  | statement (sql : Text)
  | lookup (sql : Text)
  deriving DecidableEq, Repr

def Request.statement? : Request → Option Text
  | .statement sql => some sql
  | .lookup _ => none

structure Trino where
  reply : List Request → Text → Reply
  getAll : List Request → Text → Dataset

structure Link where
  activeQueryId : Option Text
  requests : List Request

/-- The statements submitted so far, in order. -/
def Link.submitted (l : Link) : List Text := l.requests.filterMap Request.statement?

def Link.request (l : Link) (r : Request) : Link := { l with requests := l.requests ++ [r] }

theorem submitted_request_statement (l : Link) (sql : Text) (slot : Option Text) :
    ({ l.request (.statement sql) with activeQueryId := slot } : Link).submitted.length = l.submitted.length + 1 := by
  simp [Link.submitted, Link.request, Request.statement?]

theorem submitted_request_lookup (l : Link) (sql : Text) : (l.request (.lookup sql)).submitted = l.submitted := by
  simp [Link.submitted, Link.request, Request.statement?]

/-- What does not change while a connection lives. -/
structure Gateway where
  crates : Crates
  parser : Parser
  config : Config
  trino : Trino
  clientIsSecure : Bool

variable (G : Gateway)

/-! ## One statement -/

def submit (l : Link) (sql : Text) (resultFormat : Option Format) : PgWireResult (List Response) × Link :=
  let reply := G.trino.reply l.requests sql
  match executeTrinoQuery G.crates reply l.activeQueryId resultFormat with
  | (.error e, slot) => (.error e, { l.request (.statement sql) with activeQueryId := slot })
  | (.ok (schema, stream), slot) =>
    -- Without columns the stream is dropped before its first poll, and the slot keeps the id.
    (.ok (if schema.isEmpty then [.execution "OK".toList]
      else [.query schema (.trino ⟨l.submitted.length, reply.queryId, stream⟩)]),
      { l.request (.statement sql) with activeQueryId := slot })

def parse (query : Text) : ParsedQuery := ⟨G.parser.parseSql query⟩

def intercepted (query : Text) : Option (PgWireResult (List Response)) :=
  tryIntercept G.crates query (parse G query) G.config G.clientIsSecure

/-- The text that is submitted for a query. -/
def rewritten (query : Text) : Text :=
  rewriteSql G.parser G.crates.unicode ((rewriteInfoSchemaColumns query (parse G query)).getD query)

def processSingleStatement (l : Link) (query : Text) (resultFormat : Option Format) : PgWireResult (List Response) × Link :=
  match intercepted G query with
  | some result => (result, l)
  | none =>
    match dynamicTable (parse G query) with
    | some table =>
      (table.respond G.crates (G.trino.getAll l.requests table.sql), l.request (.lookup table.sql))
    | none => submit G l (rewritten G query) resultFormat

/-! ## Batches -/

def splitStatements (query : Text) : List Text :=
  match G.parser.parseSql query with
  | some stmts => if stmts.length > 1 then stmts.map G.parser.toString else [query]
  | none => [query]

/-- The loop over the statements of a batch, with the responses so far. -/
def processBatch (resultFormat : Option Format) (out : List Response) (l : Link) :
    List Text → PgWireResult (List Response) × Link
  | [] => (.ok out, l)
  | stmt :: rest =>
    match processSingleStatement G l stmt resultFormat with
    | (.ok responses, l) => processBatch resultFormat (out ++ responses) l rest
    | (.error (.userError info), l) => (.ok (out ++ [.error info]), l)
    | (.error e, l) => (.error e, l)

def processQuery (l : Link) (query : Text) (resultFormat : Option Format) : PgWireResult (List Response) × Link :=
  let pieces := splitStatements G query
  if pieces.length ≤ 1 then processSingleStatement G l query resultFormat
  else processBatch G resultFormat [] l pieces

/-! ## Which statements the gateway answers itself -/

/-- The tables of `pg_catalog` that are answered without Trino. -/
def catalogTables : List Text := ["pg_enum".toList, "pg_type".toList, "pg_range".toList, "pg_namespace".toList]

/-- The tables that are answered wherever they are named. -/
def servedTables : List Text := "pg_stat_ssl".toList :: catalogTables

/-- The tables that are answered when they are unqualified or in `information_schema`. -/
def servedInSchema : List Text := "character_sets".toList :: missingTables

def servedRelation (r : ObjectName) : Bool :=
  servedTables.any (lastIdentEq r) ||
    servedInSchema.any fun table => lastIdentEq r table && ParsedQuery.qualifiedOk r informationSchema

variable {q : ParsedQuery}

theorem handleCatalogQuery_eq_none_iff : handleCatalogQuery q = none ↔ ∀ t ∈ catalogTables, q.referencesTable t = false := by
  simp only [catalogTables, List.forall_mem_cons, handleCatalogQuery]
  split_ifs <;> simp_all

theorem interceptMissing_eq_none_iff : interceptMissingInformationSchema q = none ↔
    ∀ t ∈ missingTables, q.referencesTableInSchema informationSchema t = false := by
  rw [interceptMissingInformationSchema]
  split_ifs with h
  · obtain ⟨t, ht, hq⟩ := List.any_eq_true.mp h
    simp only [false_iff, not_forall]
    exact ⟨t, ht, by rw [hq]; decide⟩
  · simpa using h

theorem tableIntercept_eq_none_iff (secure : Bool) : tableIntercept q secure = none ↔
    (∀ t ∈ servedTables, q.referencesTable t = false) ∧
      ∀ t ∈ servedInSchema, q.referencesTableInSchema informationSchema t = false := by
  rw [servedTables, servedInSchema, List.forall_mem_cons, List.forall_mem_cons, ← handleCatalogQuery_eq_none_iff,
    ← interceptMissing_eq_none_iff, tableIntercept]
  split_ifs <;> simp_all

theorem relations_served_iff : (∀ r ∈ q.relations, servedRelation r = false) ↔
    (∀ t ∈ servedTables, q.referencesTable t = false) ∧
      ∀ t ∈ servedInSchema, q.referencesTableInSchema informationSchema t = false := by
  simp only [servedRelation, ParsedQuery.referencesTable, ParsedQuery.referencesTableInSchema, Bool.or_eq_false_iff,
    List.any_eq_false, Bool.not_eq_true]
  constructor
  · intro h
    exact ⟨fun t ht r hr => (h r hr).1 t ht, fun t ht r hr => (h r hr).2 t ht⟩
  · intro h r hr
    exact ⟨fun t ht => h.1 t ht r hr, fun t ht => h.2 t ht r hr⟩

/-- A success without rows from Trino. -/
def IsLocal : Response → Prop
  | .query _ (.static _) => True
  | .query _ (.trino _) => False
  | .execution _ => True
  | .error _ => False

/-- One response, built by the gateway. -/
def Built (result : PgWireResult (List Response)) : Prop := ∃ response, result = .ok [response] ∧ IsLocal response

variable {result : PgWireResult (List Response)}

theorem sessionCommand_built {X : Crates} {trimmed : Text} (h : sessionCommand X trimmed = some result) : Built result := by
  rw [sessionCommand] at h
  split_ifs at h
  all_goals
    cases h
    exact ⟨_, rfl, trivial⟩

theorem interceptServerFunctions_built {config : Config} (h : interceptServerFunctions q config = some result) :
    Built result := by
  rw [interceptServerFunctions] at h
  split_ifs at h
  iterate 4
    cases h
    exact ⟨_, rfl, trivial⟩
  obtain ⟨v, -, rfl⟩ := Option.map_eq_some_iff.mp h
  exact ⟨_, rfl, trivial⟩

theorem handleCatalogQuery_built (h : handleCatalogQuery q = some result) : Built result := by
  rw [handleCatalogQuery] at h
  split_ifs at h
  all_goals
    cases h
    exact ⟨_, rfl, trivial⟩

theorem tableIntercept_built {secure : Bool} (h : tableIntercept q secure = some result) : Built result := by
  rw [tableIntercept] at h
  split_ifs at h with hssl hsets
  · cases h
    exact ⟨_, rfl, trivial⟩
  · rcases Option.or_eq_some_iff.mp h with h | ⟨-, h⟩
    · exact handleCatalogQuery_built h
    · cases h
      exact ⟨_, rfl, trivial⟩
  · rcases Option.or_eq_some_iff.mp h with h | ⟨-, h⟩
    · exact handleCatalogQuery_built h
    · rw [interceptMissingInformationSchema] at h
      split_ifs at h
      cases h
      exact ⟨_, rfl, trivial⟩

theorem intercepted_built {query : Text} (h : intercepted G query = some result) : Built result := by
  rw [intercepted, tryIntercept] at h
  split_ifs at h
  rcases Option.or_eq_some_iff.mp h with h | ⟨-, h⟩
  · rcases Option.or_eq_some_iff.mp h with h | ⟨-, h⟩
    · exact sessionCommand_built h
    · exact interceptServerFunctions_built h
  · exact tableIntercept_built h

/-! ## What one statement does -/

/-- A result set forwarded for the statement that `l` submits next, with the rows it has before the first poll. -/
inductive Forwards (l : Link) (resultFormat : Option Format) : Response → Text → Prop
  | rows (columns : List TrinoColumn) (id : Text) (initialRows : List Row) (nextUri : Option Reply) :
      Forwards l resultFormat
        (.query (buildPgSchema G.crates columns resultFormat) (.trino ⟨l.submitted.length, id,
          ⟨columns, buildPgSchema G.crates columns resultFormat, .unstarted initialRows nextUri⟩⟩)) id

/-- What can come of a statement that `l` submits. -/
inductive Submission (l : Link) (sql : Text) (resultFormat : Option Format) : PgWireResult (List Response) × Link → Prop
  | refused (info : ErrorInfo) (slot : Option Text) :
      Submission l sql resultFormat (.error (.userError info), { l.request (.statement sql) with activeQueryId := slot })
  | executed (slot : Option Text) :
      Submission l sql resultFormat (.ok [.execution "OK".toList], { l.request (.statement sql) with activeQueryId := slot })
  | forwarded {response : Response} {id : Text} : Forwards G l resultFormat response id →
      Submission l sql resultFormat (.ok [response], { l.request (.statement sql) with activeQueryId := some id })

theorem submit_spec (l : Link) (sql : Text) (resultFormat : Option Format) :
    Submission G l sql resultFormat (submit G l sql resultFormat) := by
  have hresult := execute_result (X := G.crates) (G.trino.reply l.requests sql) l.activeQueryId resultFormat
  rcases he : executeTrinoQuery G.crates (G.trino.reply l.requests sql) l.activeQueryId resultFormat with ⟨r, slot⟩
  rw [he] at hresult
  cases hd : discoverFrom [] (G.trino.reply l.requests sql) with
  | error message =>
    rw [hd] at hresult
    obtain rfl : r = .error (trinoError message) := hresult
    simp only [submit, he]
    exact .refused _ _
  | ok found =>
    obtain ⟨columns, initialRows, nextUri⟩ := found
    rw [hd] at hresult
    have hslot := execute_slot (X := G.crates) (by rw [he]; exact hresult)
    rw [he] at hslot
    obtain rfl : slot = some (G.trino.reply l.requests sql).queryId := hslot
    obtain rfl : r = .ok (_, _) := hresult
    simp only [submit, he]
    split_ifs
    · exact .executed _
    · exact .forwarded (.rows columns _ initialRows nextUri)

/-- What can come of a statement. -/
inductive Processed (l : Link) (query : Text) (resultFormat : Option Format) :
    PgWireResult (List Response) × Link → Prop
  | built {response : Response} : IsLocal response → Processed l query resultFormat (.ok [response], l)
  | looked {response : Response} (sql : Text) : IsLocal response →
      Processed l query resultFormat (.ok [response], l.request (.lookup sql))
  | failed (e : Text) (sql : Text) : Processed l query resultFormat (.error (.apiError e), l.request (.lookup sql))
  | submitted {out : PgWireResult (List Response) × Link} : Submission G l (rewritten G query) resultFormat out →
      Processed l query resultFormat out

theorem respond_cases (X : Crates) (table : DynamicTable) (dataset : Dataset) :
    (∃ response, table.respond X dataset = .ok [response] ∧ IsLocal response) ∨
      ∃ e, table.respond X dataset = .error (.apiError e) := by
  cases table <;> cases dataset
  · exact Or.inr ⟨_, rfl⟩
  · exact Or.inl ⟨_, rfl, trivial⟩
  · exact Or.inr ⟨_, rfl⟩
  · exact Or.inl ⟨_, rfl, trivial⟩

theorem processSingleStatement_spec (l : Link) (query : Text) (resultFormat : Option Format) :
    Processed G l query resultFormat (processSingleStatement G l query resultFormat) := by
  rw [processSingleStatement]
  cases hi : intercepted G query with
  | some result =>
    obtain ⟨response, rfl, hlocal⟩ := intercepted_built G hi
    exact .built hlocal
  | none =>
    cases hd : dynamicTable (parse G query) with
    | some table =>
      rcases respond_cases G.crates table (G.trino.getAll l.requests table.sql) with ⟨response, h, hlocal⟩ | ⟨e, h⟩
      · simp only [h]
        exact .looked _ hlocal
      · simp only [h]
        exact .failed _ _
    | none => exact .submitted (submit_spec G l _ _)

/-! ## Writes -/

/-- The statement is sent, or the client gets an error. -/
def ReachesTrino (l : Link) (sql : Text) (out : PgWireResult (List Response) × Link) : Prop :=
  out.2.requests = l.requests ++ [.statement sql] ∨ ∃ e, out.1 = .error e

theorem submit_requests (l : Link) (sql : Text) (resultFormat : Option Format) :
    (submit G l sql resultFormat).2.requests = l.requests ++ [.statement sql] := by
  rw [submit]
  split <;> rfl

theorem respond_error_iff {X : Crates} {table : DynamicTable} {dataset : Dataset} :
    (∃ e, table.respond X dataset = .error e) ↔ ∃ e, dataset = .error e := by
  cases table <;> cases dataset <;> simp [DynamicTable.respond, respondPgClass, respondPgAttribute, buildResponse]

/-- A write is no bare `SELECT`, so only its first word and its relations matter. -/
theorem intercepted_write {query : Text} {kind : WriteKind} {targets : List ObjectName} {tables : List TableFactor}
    {queries : List Query} {exprs : List Expr}
    (hparse : G.parser.parseSql query = some [.write kind targets tables queries exprs]) (hblank : trim query ≠ []) :
    intercepted G query =
      (sessionCommand G.crates (withoutTerminator query)).or (tableIntercept (parse G query) G.clientIsSecure) := by
  have hbare : (parse G query).isBareScalarSelect = false := by
    simp [parse, hparse, ParsedQuery.isBareScalarSelect, ParsedQuery.bareSelect]
  have hfun : interceptServerFunctions (parse G query) G.config = none := by
    rw [interceptServerFunctions, hbare]
    rfl
  rw [intercepted, tryIntercept, if_neg (by simpa using hblank), hfun, Option.or_none]

theorem write_reaches_trino_iff (l : Link) (query : Text) (resultFormat : Option Format) {kind : WriteKind}
    {targets : List ObjectName} {tables : List TableFactor} {queries : List Query} {exprs : List Expr}
    (hparse : G.parser.parseSql query = some [.write kind targets tables queries exprs]) (hblank : trim query ≠ []) :
    ReachesTrino l (rewritten G query) (processSingleStatement G l query resultFormat) ↔
      sessionCommand G.crates (withoutTerminator query) = none ∧
      (∀ r ∈ (Statement.write kind targets tables queries exprs).relations, servedRelation r = false) ∧
      ∀ table, dynamicTable (parse G query) = some table → ∃ e, G.trino.getAll l.requests table.sql = .error e := by
  have hrel : (Statement.write kind targets tables queries exprs).relations = (parse G query).relations := by
    simp [parse, ParsedQuery.relations, hparse]
  rw [hrel, relations_served_iff, ← tableIntercept_eq_none_iff G.clientIsSecure, ← and_assoc, ← Option.or_eq_none_iff,
    ← intercepted_write G hparse hblank, processSingleStatement]
  cases hi : intercepted G query with
  | some result =>
    obtain ⟨response, rfl, -⟩ := intercepted_built G hi
    simp [ReachesTrino]
  | none =>
    cases hd : dynamicTable (parse G query) with
    | some table => simp [ReachesTrino, respond_error_iff, Link.request]
    | none => simp [ReachesTrino, submit_requests]

/-- `INSERT INTO` a table, of one value. -/
def insertInto (table : Text) : Statement :=
  .write .insert [[.identifier ⟨table, none⟩]] [] [.mk [] (.values [.value (.number ['1'] false)]) [] .absent .absent []] []

/-- A gateway whose parser knows one statement, and whose Trino accepts every statement without a result. -/
def knowing (sql : Text) (stmt : Statement) : Gateway where
  crates := plainCrates
  parser := ⟨fun s => if s = sql then some [stmt] else none, fun _ => sql⟩
  config := ⟨"memory".toList, "default".toList⟩
  trino := ⟨fun _ _ => .last ⟨"q0".toList, none, none, none⟩, fun _ _ => .ok []⟩
  clientIsSecure := false

def insertOrders : Text := "INSERT INTO orders VALUES (1)".toList

def insertConstraints : Text := "INSERT INTO check_constraints VALUES (1)".toList

/-- A write into a table with a name of its own is submitted. -/
theorem write_reaches_trino_orders :
    ReachesTrino ⟨none, []⟩ insertOrders
      (processSingleStatement (knowing insertOrders (insertInto "orders".toList)) ⟨none, []⟩ insertOrders none) := by
  refine (write_reaches_trino_iff (knowing insertOrders (insertInto "orders".toList)) ⟨none, []⟩ insertOrders none rfl
    (by decide)).mpr ⟨rfl, by decide, ?_⟩
  intro table h
  have hnone : dynamicTable (parse (knowing insertOrders (insertInto "orders".toList)) insertOrders) = none := rfl
  rw [hnone] at h
  cases h

/-- A write into a table that shares its name with one of `information_schema` is answered and lost. -/
theorem write_answered_locally :
    (knowing insertConstraints (insertInto "check_constraints".toList)).parser.parseSql insertConstraints =
      some [insertInto "check_constraints".toList] ∧
    (∃ response, processSingleStatement (knowing insertConstraints (insertInto "check_constraints".toList)) ⟨none, []⟩
      insertConstraints none = (.ok [response], ⟨none, []⟩)) ∧
    ¬ ReachesTrino ⟨none, []⟩ insertConstraints
      (processSingleStatement (knowing insertConstraints (insertInto "check_constraints".toList)) ⟨none, []⟩
        insertConstraints none) := by
  have hout : ∃ response, processSingleStatement (knowing insertConstraints (insertInto "check_constraints".toList))
      ⟨none, []⟩ insertConstraints none = (.ok [response], ⟨none, []⟩) := ⟨_, rfl⟩
  refine ⟨rfl, hout, ?_⟩
  obtain ⟨response, h⟩ := hout
  rw [h]
  rintro (h | ⟨e, h⟩) <;> cases h

/-! ## What a batch does -/

/-- The statements all succeed, one after the other, with these responses. -/
inductive Succeeds (resultFormat : Option Format) : Link → List Text → List Response → Link → Prop
  | nil (l : Link) : Succeeds resultFormat l [] [] l
  | cons {l l₁ l₂ : Link} {stmt : Text} {stmts : List Text} {responses rest : List Response} :
      processSingleStatement G l stmt resultFormat = (.ok responses, l₁) → Succeeds resultFormat l₁ stmts rest l₂ →
      Succeeds resultFormat l (stmt :: stmts) (responses ++ rest) l₂

/-- The result of a batch in which a statement fails after `out`. -/
def stopped (out : List Response) : PgWireError → PgWireResult (List Response)
  | .userError info => .ok (out ++ [.error info])
  | e => .error e

variable {G} {resultFormat : Option Format} {l l₁ : Link}

theorem processBatch_go {stmt : Text} {responses : List Response}
    (h : processSingleStatement G l stmt resultFormat = (.ok responses, l₁)) (out : List Response) (rest : List Text) :
    processBatch G resultFormat out l (stmt :: rest) = processBatch G resultFormat (out ++ responses) l₁ rest := by
  rw [processBatch, h]

theorem processBatch_stop {stmt : Text} {e : PgWireError} (h : processSingleStatement G l stmt resultFormat = (.error e, l₁))
    (out : List Response) (rest : List Text) :
    processBatch G resultFormat out l (stmt :: rest) = (stopped out e, l₁) := by
  cases e <;> simp [processBatch, h, stopped]

theorem processBatch_append {before : List Text} {responses : List Response}
    (h : Succeeds G resultFormat l before responses l₁) (out : List Response) (rest : List Text) :
    processBatch G resultFormat out l (before ++ rest) = processBatch G resultFormat (out ++ responses) l₁ rest := by
  induction h generalizing out with
  | nil l => rw [List.nil_append, List.append_nil]
  | cons hs _ ih => rw [List.cons_append, processBatch_go hs, ih, List.append_assoc]

/-- A batch runs to its end, or to the first statement that fails. -/
theorem processBatch_spec (l : Link) (out : List Response) (pieces : List Text) :
    (∃ responses l', Succeeds G resultFormat l pieces responses l' ∧
      processBatch G resultFormat out l pieces = (.ok (out ++ responses), l')) ∨
    ∃ before stmt after responses l₁ e l', pieces = before ++ stmt :: after ∧
      Succeeds G resultFormat l before responses l₁ ∧ processSingleStatement G l₁ stmt resultFormat = (.error e, l') ∧
      processBatch G resultFormat out l pieces = (stopped (out ++ responses) e, l') := by
  induction pieces generalizing l out with
  | nil => exact Or.inl ⟨[], l, .nil l, by rw [processBatch, List.append_nil]⟩
  | cons stmt rest ih =>
    rcases hs : processSingleStatement G l stmt resultFormat with ⟨e | responses, l₁⟩
    · exact Or.inr ⟨[], stmt, rest, [], l, e, l₁, rfl, .nil l, hs, by rw [List.append_nil, processBatch_stop hs]⟩
    · have hgo := processBatch_go hs out rest
      rcases ih l₁ (out ++ responses) with ⟨more, l', hm, hb⟩ | ⟨before, s, after, more, l₂, e, l', rfl, hm, hf, hb⟩
      · exact Or.inl ⟨responses ++ more, l', .cons hs hm, by rw [hgo, hb, List.append_assoc]⟩
      · refine Or.inr ⟨stmt :: before, s, after, responses ++ more, l₂, e, l', rfl, .cons hs hm, hf, ?_⟩
        rw [hgo, hb, List.append_assoc]

/-! ## What a batch submits -/

variable (G) in
/-- The gateway answers the statement without submitting it. -/
def AnswersItself (stmt : Text) : Prop := (intercepted G stmt).isSome ∨ (dynamicTable (parse G stmt)).isSome

instance (stmt : Text) : Decidable (AnswersItself G stmt) := inferInstanceAs (Decidable (_ ∨ _))

theorem submit_submitted (l : Link) (sql : Text) : (submit G l sql resultFormat).2.submitted = l.submitted ++ [sql] := by
  rw [Link.submitted, submit_requests, List.filterMap_append]
  rfl

theorem single_of_answers {stmt : Text} (h : AnswersItself G stmt) (l : Link) :
    (processSingleStatement G l stmt resultFormat).2.submitted = l.submitted := by
  rw [processSingleStatement]
  cases hi : intercepted G stmt with
  | some result => rfl
  | none =>
    cases hd : dynamicTable (parse G stmt) with
    | some table => exact submitted_request_lookup l table.sql
    | none => simp [AnswersItself, hi, hd] at h

theorem single_of_not_answers {stmt : Text} (h : ¬ AnswersItself G stmt) (l : Link) :
    processSingleStatement G l stmt resultFormat = submit G l (rewritten G stmt) resultFormat := by
  simp only [AnswersItself, not_or, Bool.not_eq_true, Option.isSome_eq_false_iff, Option.isNone_iff_eq_none] at h
  rw [processSingleStatement, h.1, h.2]

theorem single_prefix (l : Link) (stmt : Text) :
    l.submitted <+: (processSingleStatement G l stmt resultFormat).2.submitted := by
  by_cases h : AnswersItself G stmt
  · rw [single_of_answers h]
  · rw [single_of_not_answers h, submit_submitted]
    exact List.prefix_append _ _

theorem batch_prefix (l : Link) (out : List Response) (pieces : List Text) :
    l.submitted <+: (processBatch G resultFormat out l pieces).2.submitted := by
  induction pieces generalizing l out with
  | nil => exact List.prefix_rfl
  | cons stmt rest ih =>
    have hp : l.submitted <+: (processSingleStatement G l stmt resultFormat).2.submitted := single_prefix l stmt
    rcases hs : processSingleStatement G l stmt resultFormat with ⟨e | responses, l₁⟩
    · rw [processBatch_stop hs]
      rwa [hs] at hp
    · rw [processBatch_go hs]
      rw [hs] at hp
      exact hp.trans (ih l₁ _)

variable (G resultFormat) in
/-- All statements before `stmt` succeed, so it is processed. -/
def Reached (l : Link) (pieces : List Text) (stmt : Text) : Prop :=
  ∃ before after responses l₁, pieces = before ++ stmt :: after ∧ Succeeds G resultFormat l before responses l₁

theorem reached_cons_stop {stmt s : Text} {rest : List Text} {e : PgWireError}
    (h : processSingleStatement G l stmt resultFormat = (.error e, l₁)) :
    Reached G resultFormat l (stmt :: rest) s ↔ s = stmt := by
  constructor
  · rintro ⟨before, after, responses, l₂, hpieces, hsucc⟩
    cases hsucc with
    | nil => exact (List.cons.inj hpieces).1.symm
    | cons hs _ =>
      rw [← (List.cons.inj hpieces).1, h] at hs
      cases hs
  · rintro rfl
    exact ⟨[], rest, [], l, rfl, .nil l⟩

theorem reached_cons_go {stmt s : Text} {rest : List Text} {responses : List Response}
    (h : processSingleStatement G l stmt resultFormat = (.ok responses, l₁)) :
    Reached G resultFormat l (stmt :: rest) s ↔ s = stmt ∨ Reached G resultFormat l₁ rest s := by
  constructor
  · rintro ⟨before, after, _, l₂, hpieces, hsucc⟩
    cases hsucc with
    | nil => exact Or.inl (List.cons.inj hpieces).1.symm
    | cons hs hrest =>
      obtain ⟨rfl, rfl⟩ := List.cons.inj hpieces
      rw [h] at hs
      cases hs
      exact Or.inr ⟨_, _, _, _, rfl, hrest⟩
  · rintro (rfl | ⟨before, after, more, l₂, rfl, hsucc⟩)
    · exact ⟨[], rest, [], l, rfl, .nil l⟩
    · exact ⟨stmt :: before, after, _, l₂, rfl, .cons h hsucc⟩

theorem batch_prefix_cons (l : Link) (out : List Response) (stmt : Text) (rest : List Text) :
    (processSingleStatement G l stmt resultFormat).2.submitted <+:
      (processBatch G resultFormat out l (stmt :: rest)).2.submitted := by
  rcases hs : processSingleStatement G l stmt resultFormat with ⟨e | responses, l₁⟩
  · rw [processBatch_stop hs]
  · rw [processBatch_go hs]
    exact batch_prefix _ _ _

/-- What is submitted stays so. -/
theorem batch_of_unanswered {stmt : Text} (h : ¬ AnswersItself G stmt) (l : Link) (out : List Response) (rest : List Text) :
    (processBatch G resultFormat out l (stmt :: rest)).2.submitted ≠ l.submitted := by
  intro hsame
  have hmore : (processSingleStatement G l stmt resultFormat).2.submitted <+: _ := batch_prefix_cons l out stmt rest
  rw [hsame, single_of_not_answers h, submit_submitted] at hmore
  exact absurd hmore.length_le (by simp)

/-- A batch submits nothing if and only if the gateway answers every statement that is reached. -/
theorem batch_submits_nothing_iff (l : Link) (out : List Response) (pieces : List Text) :
    (processBatch G resultFormat out l pieces).2.submitted = l.submitted ↔
      ∀ stmt, Reached G resultFormat l pieces stmt → AnswersItself G stmt := by
  induction pieces generalizing l out with
  | nil => simp [processBatch, Reached]
  | cons stmt rest ih =>
    by_cases ha : AnswersItself G stmt
    · have hsame : (processSingleStatement G l stmt resultFormat).2.submitted = l.submitted := single_of_answers ha l
      rcases hs : processSingleStatement G l stmt resultFormat with ⟨e | responses, l₁⟩
      · rw [hs] at hsame
        simp [processBatch_stop hs, reached_cons_stop hs, hsame, ha]
      · rw [hs] at hsame
        rw [processBatch_go hs, ← hsame, ih]
        simp [reached_cons_go hs, ha]
    · exact ⟨fun h => absurd h (batch_of_unanswered ha l out rest),
        fun h => absurd (h stmt ⟨[], rest, [], l, rfl, .nil l⟩) ha⟩

/-! ## A statement that fails on a later page -/

theorem firstColumns_ne_nil {pages : List QueryResult} {columns : List TrinoColumn} (h : firstColumns pages = some columns) :
    columns ≠ [] := by
  obtain ⟨page, hpage, rfl⟩ := Option.map_eq_some_iff.mp h
  simpa using List.find?_some hpage

theorem submit_of_columns (resultFormat : Option Format) {sql : Text} {columns : List TrinoColumn}
    (h : firstColumns (G.trino.reply l.requests sql).pages = some columns) :
    ∃ schema rows, submit G l sql resultFormat = (.ok [.query schema (.trino rows)], (submit G l sql resultFormat).2) ∧
      StreamYields G.crates rows.stream ((rowsOf (G.trino.reply l.requests sql).pages).map (encodeRow G.crates · columns schema) ++
        failureItem (G.trino.reply l.requests sql).failure) := by
  obtain ⟨stream, hok, hyields⟩ := execute_of_columns (X := G.crates) h l.activeQueryId resultFormat
  have hschema : (buildPgSchema G.crates columns resultFormat).isEmpty = false := by
    simp [buildPgSchema, firstColumns_ne_nil h]
  refine ⟨_, ⟨l.submitted.length, (G.trino.reply l.requests sql).queryId, stream⟩, ?_, hyields⟩
  rcases he : executeTrinoQuery G.crates (G.trino.reply l.requests sql) l.activeQueryId resultFormat with ⟨r, slot⟩
  rw [he] at hok
  subst hok
  simp [submit, he, hschema]

theorem batch_stops_iff (G : Gateway) (resultFormat : Option Format) (l : Link) (query stmt : Text) {before after : List Text}
    {responses : List Response} {l₁ : Link} {columns : List TrinoColumn} {message : Text}
    (hpieces : splitStatements G query = before ++ stmt :: after) (hmany : 1 < (splitStatements G query).length)
    (hbefore : Succeeds G resultFormat l before responses l₁) (hsent : ¬ AnswersItself G stmt)
    (hcolumns : firstColumns (G.trino.reply l₁.requests (rewritten G stmt)).pages = some columns)
    (hfails : (G.trino.reply l₁.requests (rewritten G stmt)).failure = some message) :
    ∃ schema rows l₂, processSingleStatement G l₁ stmt resultFormat = (.ok [.query schema (.trino rows)], l₂) ∧
      (∃ items, Yields (RowStream.poll G.crates) rows.stream (items ++ [.error (trinoError message)])) ∧
      ((processQuery G l query resultFormat).2.submitted = l₂.submitted ↔
        ∀ s, Reached G resultFormat l₂ after s → AnswersItself G s) := by
  obtain ⟨schema, rows, hsub, hyields⟩ := submit_of_columns resultFormat hcolumns
  rw [hfails] at hyields
  rw [← single_of_not_answers hsent] at hsub
  refine ⟨schema, rows, _, hsub, ⟨_, hyields⟩, ?_⟩
  have hbatch : processQuery G l query resultFormat = processBatch G resultFormat [] l (before ++ stmt :: after) := by
    rw [processQuery, ← hpieces]
    exact if_neg (by omega)
  rw [hbatch, processBatch_append hbefore, processBatch_go hsub, batch_submits_nothing_iff]

/-- A gateway whose parser splits at semicolons. -/
def splitting (trino : Trino) : Gateway where
  crates := plainCrates
  parser :=
    { parseSql := fun sql => some ((sql.splitOn ';').map fun piece => .other piece [] [] [])
      toString := fun
        | .other label _ _ _ => label
        | _ => [] }
  config := ⟨"memory".toList, "default".toList⟩
  trino := trino
  clientIsSecure := false

/-- The reply of one integer column whose next page cannot be fetched. -/
def breaking : Reply := .more ⟨"q0".toList, some [⟨"x".toList, "integer".toList⟩], none, none⟩ (.failed "lost".toList)

def brokenTrino : Trino := ⟨fun _ _ => breaking, fun _ _ => .ok []⟩

theorem reached_mem {pieces : List Text} {stmt : Text} (h : Reached G resultFormat l pieces stmt) : stmt ∈ pieces := by
  obtain ⟨before, after, _, _, rfl, -⟩ := h
  simp

theorem batch_stops_before_set :
    (processQuery (splitting brokenTrino) ⟨none, []⟩ "SELECT a;SET b = 1".toList none).2.submitted = ["SELECT a".toList] := by
  obtain ⟨schema, rows, l₂, hs, -, hiff⟩ :=
    batch_stops_iff (splitting brokenTrino) none ⟨none, []⟩ "SELECT a;SET b = 1".toList "SELECT a".toList
      (rfl : _ = [] ++ "SELECT a".toList :: ["SET b = 1".toList]) (by decide) (.nil _) (by decide +kernel) rfl rfl
  have hl : l₂.submitted = ["SELECT a".toList] := by
    have h := congrArg (fun out => out.2.submitted) hs
    rw [← h]
    decide +kernel
  rw [← hl]
  refine hiff.mpr fun s hr => ?_
  rw [List.mem_singleton.mp (reached_mem hr)]
  decide +kernel

/-- The second statement is submitted though the first one fails. -/
theorem batch_goes_on :
    firstColumns breaking.pages = some [⟨"x".toList, "integer".toList⟩] ∧ breaking.failure = some "lost".toList ∧
    (processQuery (splitting brokenTrino) ⟨none, []⟩ "SELECT a;SELECT b".toList none).2.submitted =
      ["SELECT a".toList, "SELECT b".toList] := by
  exact ⟨rfl, rfl, by decide +kernel⟩

end TrinoGateway.Pipeline
