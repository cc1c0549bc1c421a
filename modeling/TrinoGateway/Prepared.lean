/-
  TrinoGateway.Prepared — the columns of a prepared statement. A Describe of a statement runs
  the query once for its columns and throws the rows away (`do_describe_statement`,
  `src/query_extended.rs`); an Execute of a portal of the statement runs it again, with the
  formats of the portal, or takes the response a Describe of the portal has stashed. The two
  runs see different states of Trino and of the connection, so the columns can only agree if
  Trino gives the first statement of the text the same ones each time (`Steady`); nothing is
  assumed of its rows, of other statements or of the rest of the text.

  Proved, over every run of messages before the Describe and between it and the Execute:
  `prepared_columns`. The names and types announced for the statement are those of the
  Execute if and only if the text begins with a query, or the Execute has no columns. What is
  not a query is described as if it had none, and some of it has: `SHOW` answers with a row
  (`select_described_show_not`).
-/

import TrinoGateway.Batches
import TrinoGateway.Described

namespace TrinoGateway.Framing

open TrinoGateway.Lib
open TrinoGateway.Types
open TrinoGateway.Catalog
open TrinoGateway.Intercept
open TrinoGateway.Pipeline
open TrinoGateway.Portals
open TrinoGateway.Connection

/-! ## The columns of a statement -/

/-- A column without its format. -/
def fieldColumn (field : FieldInfo) : Text × PgType := (field.name, field.datatype)

def columnsOf (response : Response) : List (Text × PgType) := (fieldsOf response).map fieldColumn

/-- The columns Trino announces before it fails, if it does. -/
def announced (reply : Reply) : Option (List TrinoColumn) := (discoverFrom [] reply).toOption.map Prod.fst

def trinoColumn (X : Crates) (column : TrinoColumn) : Text × PgType :=
  (column.name, trinoTypeToPg X.unicode column.trinoType)

/-- The columns of the first response to a text that begins with the statement; a user error ends a batch as a
    response without columns. -/
def headColumns : PgWireResult (List Response) → Option (List (Text × PgType))
  | .ok (response :: _) => some (columnsOf response)
  | .error (.userError _) => some []
  | _ => none

theorem buildPgSchema_columns (X : Crates) (columns : List TrinoColumn) (resultFormat : Option Format) :
    (buildPgSchema X columns resultFormat).map fieldColumn = columns.map (trinoColumn X) := by
  apply List.ext_getElem?
  intro i
  unfold buildPgSchema
  rw [List.getElem?_map, List.getElem?_mapIdx, List.getElem?_map, Option.map_map]
  rfl

section statements

variable {G : Gateway}

theorem submit_columns (l : Link) (sql : Text) (resultFormat : Option Format) :
    headColumns (submit G l sql resultFormat).1 =
      some (((announced (G.trino.reply l.requests sql)).getD []).map (trinoColumn G.crates)) := by
  have hresult := execute_result (X := G.crates) (G.trino.reply l.requests sql) l.activeQueryId resultFormat
  unfold submit announced
  rcases hexecute : executeTrinoQuery G.crates (G.trino.reply l.requests sql) l.activeQueryId resultFormat with
    ⟨result, slot⟩
  rw [hexecute] at hresult
  cases hfound : discoverFrom [] (G.trino.reply l.requests sql) with
  | error message =>
    rw [hfound] at hresult
    obtain rfl : result = .error (trinoError message) := hresult
    simp only [hexecute]
    rfl
  | ok found =>
    obtain ⟨columns, initialRows, nextUri⟩ := found
    rw [hfound] at hresult
    obtain rfl : result = .ok (buildPgSchema G.crates columns resultFormat, _) := hresult
    have hcolumns := buildPgSchema_columns G.crates columns resultFormat
    simp only [hexecute]
    split_ifs with hempty
    · rw [List.isEmpty_iff.mp hempty] at hcolumns
      show some [] = some (columns.map (trinoColumn G.crates))
      rw [← hcolumns]
      rfl
    · show some ((buildPgSchema G.crates columns resultFormat).map fieldColumn) = _
      rw [hcolumns]
      rfl

theorem respond_columns (X : Crates) (table : DynamicTable) (dataset dataset' : Dataset)
    {columns columns' : List (Text × PgType)} (h : headColumns (table.respond X dataset) = some columns)
    (h' : headColumns (table.respond X dataset') = some columns') : columns = columns' := by
  cases table with
  | pgClass =>
    cases dataset with
    | error e => cases h
    | ok rows =>
      cases dataset' with
      | error e => cases h'
      | ok rows' => exact Option.some.inj (h.symm.trans h')
  | pgAttribute =>
    cases dataset with
    | error e => cases h
    | ok rows =>
      cases dataset' with
      | error e => cases h'
      | ok rows' => exact Option.some.inj (h.symm.trans h')

variable (G) in
/-- Trino announces the same columns for the statement whatever came before. -/
def Steady (stmt : Text) : Prop :=
  ∀ requests requests', announced (G.trino.reply requests (rewritten G stmt)) =
    announced (G.trino.reply requests' (rewritten G stmt))

theorem single_columns {stmt : Text} (hsteady : Steady G stmt) {l l' : Link}
    {resultFormat resultFormat' : Option Format} {columns columns' : List (Text × PgType)}
    (h : headColumns (processSingleStatement G l stmt resultFormat).1 = some columns)
    (h' : headColumns (processSingleStatement G l' stmt resultFormat').1 = some columns') : columns = columns' := by
  unfold processSingleStatement at h h'
  cases hintercepted : intercepted G stmt with
  | some result =>
    rw [hintercepted] at h h'
    exact Option.some.inj (h.symm.trans h')
  | none =>
    rw [hintercepted] at h h'
    cases hdynamic : dynamicTable (parse G stmt) with
    | some table =>
      rw [hdynamic] at h h'
      exact respond_columns G.crates table _ _ h h'
    | none =>
      rw [hdynamic] at h h'
      dsimp only at h h'
      rw [submit_columns, hsteady l.requests l'.requests, ← submit_columns l' _ resultFormat'] at h
      exact Option.some.inj (h.symm.trans h')

/-! ## The first statement of a text -/

variable (G) in
/-- The statement that the first response to a text is for. -/
def firstStatement (query : Text) : Text :=
  if (splitStatements G query).length ≤ 1 then query else (splitStatements G query).headD query

theorem batch_columns {l : Link} {stmt : Text} {rest : List Text} {resultFormat : Option Format} {response : Response}
    (h : firstResponse (processBatch G resultFormat [] l (stmt :: rest)).1 = .ok response) :
    headColumns (processSingleStatement G l stmt resultFormat).1 = some (columnsOf response) := by
  rcases hs : processSingleStatement G l stmt resultFormat with ⟨e | responses, l₁⟩
  · rw [processBatch_stop hs] at h
    cases e with
    | userError info =>
      cases h
      rfl
    | apiError message => cases h
  · obtain ⟨first, rfl, -⟩ := single_ok hs
    have hgo := processBatch_go hs [] rest
    -- What is there when the loop goes on stays in front.
    rcases processBatch_spec (G := G) l₁ [first] rest with ⟨more, l₂, -, hb⟩ | ⟨_, _, _, more, _, e, l₂, _, _, _, hb⟩
    · rw [hgo, List.nil_append, hb] at h
      cases h
      rfl
    · rw [hgo, List.nil_append, hb] at h
      cases e with
      | userError info =>
        cases h
        rfl
      | apiError message => cases h

theorem first_columns {l : Link} {query : Text} {resultFormat : Option Format} {response : Response}
    (h : firstResponse (processQuery G l query resultFormat).1 = .ok response) :
    headColumns (processSingleStatement G l (firstStatement G query) resultFormat).1 = some (columnsOf response) := by
  unfold processQuery at h
  unfold firstStatement
  by_cases hone : (splitStatements G query).length ≤ 1
  · rw [if_pos hone] at h ⊢
    generalize (processSingleStatement G l query resultFormat).1 = result at h ⊢
    rcases result with e | (_ | ⟨first, rest⟩)
    · cases h
    · cases h
    · cases h
      rfl
  · rw [if_neg hone] at h ⊢
    cases hpieces : splitStatements G query with
    | nil => exact absurd hpieces (splitStatements_ne_nil query)
    | cons stmt rest =>
      rw [hpieces] at h
      exact batch_columns h

/-- Two runs of the pipeline on a text agree on its first columns. -/
theorem runs_agree {query : Text} (hsteady : Steady G (firstStatement G query)) {l l' : Link}
    {resultFormat resultFormat' : Option Format} {response response' : Response}
    (h : firstResponse (processQuery G l query resultFormat).1 = .ok response)
    (h' : firstResponse (processQuery G l' query resultFormat').1 = .ok response') :
    columnsOf response = columnsOf response' :=
  single_columns hsteady (first_columns h) (first_columns h')

/-! ## Runs -/

variable (G) in
/-- The response is that of some run of the pipeline on the text. -/
def Produced (query : Text) (response : Response) : Prop :=
  ∃ l resultFormat, firstResponse (processQuery G l query resultFormat).1 = .ok response

theorem run_produced (ms : List Message) : ∀ name entry,
    (run (step G) .fresh ms).session.portals.lookup name = some entry → Produced G entry.query entry.response := by
  refine run_invariant (P := fun c : Conn => ∀ name entry, c.session.portals.lookup name = some entry →
    Produced G entry.query entry.response) (fun c m h name entry hlookup => ?_)
    fun name entry hlookup => by cases hlookup
  rcases step_stashed hlookup with hold | ⟨portal, rest, -, hquery, hr⟩
  · exact h name entry hold
  · refine ⟨c.session.link, some portal.resultColumnFormat, ?_⟩
    rw [← hquery, hr]
    rfl

/-- An Execute answers with the first response of a run of the pipeline on its text, now or when it was described. -/
theorem doQuery_first (ms : List Message) (portal : Portal) :
    ∃ l resultFormat, (doQuery G (run (step G) .fresh ms).session portal).1 =
      firstResponse (processQuery G l portal.query resultFormat).1 := by
  by_cases hserves : Serves (run (step G) .fresh ms).session portal.name portal.query
  · obtain ⟨entry, hlookup, hquery⟩ := hserves
    obtain ⟨l, resultFormat, hproduced⟩ := run_produced ms portal.name entry hlookup
    refine ⟨l, resultFormat, ?_⟩
    rw [doQuery_served hlookup hquery, ← hquery, hproduced]
  · rw [doQuery_afresh hserves]
    exact ⟨_, _, rfl⟩

/-- What a Describe of a statement says comes from a run of the pipeline, if the text begins with a query. -/
theorem describeStatement_cases {s : Session} {query : Text} {answer : Option Schema}
    (h : (doDescribeStatement G s query).1 = .ok answer) :
    ((parse G query).returnsRows = false ∧ answer = none) ∨
      (parse G query).returnsRows = true ∧
        ∃ response, answer = some (fieldsOf response) ∧ Produced G query response := by
  unfold doDescribeStatement at h
  cases hrows : (parse G query).returnsRows with
  | false =>
    rw [hrows] at h
    cases h
    exact .inl ⟨rfl, rfl⟩
  | true =>
    rw [hrows] at h
    refine .inr ⟨rfl, ?_⟩
    simp only [Bool.not_true, Bool.false_eq_true, if_false, runPipeline] at h
    cases hresponse : firstResponse (processQuery G s.link query none).1 with
    | error e => rw [hresponse] at h; cases h
    | ok response =>
      rw [hresponse] at h
      cases h
      exact ⟨response, rfl, s.link, none, hresponse⟩

end statements

/-- A Describe of a statement and a later Execute of a portal of it agree on the columns if and only if the text begins
    with a query or there are none. -/
theorem prepared_columns (G : Gateway) (before after : List Message) (portal : Portal)
    (hsteady : Steady G (firstStatement G portal.query)) (answer : Option Schema)
    (hdescribed : (doDescribeStatement G (run (step G) .fresh before).session portal.query).1 = .ok answer)
    (response : Response)
    (hexecuted : (doQuery G (run (step G) .fresh (before ++ .describeStatement portal.query :: after)).session
      portal).1 = .ok response) :
    (answer.getD []).map fieldColumn = columnsOf response ↔
      (parse G portal.query).returnsRows = true ∨ columnsOf response = [] := by
  obtain ⟨l, resultFormat, hproduced⟩ := doQuery_first (G := G)
    (before ++ .describeStatement portal.query :: after) portal
  rw [hexecuted] at hproduced
  rcases describeStatement_cases hdescribed with ⟨hrows, rfl⟩ | ⟨hrows, first, rfl, l', resultFormat', hfirst⟩
  · rw [hrows]
    constructor
    · intro hsame
      exact .inr hsame.symm
    · intro hcase
      rcases hcase with hquery | hnone
      · cases hquery
      · exact hnone.symm
  · constructor
    · intro _
      exact .inl hrows
    · intro _
      exact runs_agree hsteady hfirst hproduced.symm

/-- A gateway that knows `SELECT a`; Trino has a row for it. -/
def selectGateway : Gateway :=
  { splitting Cancel.rowTrino with
    parser :=
      { parseSql := fun sql =>
          if sql = "SELECT a".toList then some [.query Batches.selectA] else some [.other sql [] [] []]
        toString := fun _ => "SELECT a".toList } }

def binaryPortal (query : Text) : Portal := ⟨"p".toList, query, .unifiedBinary⟩

/-- Another query runs before the statement is described, and the portal is described before it is executed. -/
def prepares (query : Text) : List Message :=
  [.query "SELECT a".toList] ++ .describeStatement query :: [.bind (binaryPortal query), .describePortal "p".toList]

def described (query : Text) : Option (Option Schema) :=
  (doDescribeStatement selectGateway (run (step selectGateway) .fresh [.query "SELECT a".toList]).session
    query).1.toOption

def executedColumns (query : Text) : Option (List (Text × PgType)) :=
  (doQuery selectGateway (run (step selectGateway) .fresh (prepares query)).session (binaryPortal query)).1.toOption.map
    columnsOf

theorem ok_of_toOption {α : Type} {result : PgWireResult α} {a : α} (h : result.toOption = some a) :
    result = .ok a := by
  cases result with
  | error e => cases h
  | ok b => exact congrArg Except.ok (Option.some.inj h)

/-- The columns of `SELECT a` are announced; that `SHOW` has one is not. -/
theorem select_described_show_not :
    executedColumns "SELECT a".toList =
        (described "SELECT a".toList).map (fun answer => (answer.getD []).map fieldColumn) ∧
      executedColumns "SHOW server_version".toList ≠
        (described "SHOW server_version".toList).map fun answer => (answer.getD []).map fieldColumn := by
  have hsteady : ∀ stmt, Steady selectGateway stmt := fun stmt requests requests' => rfl
  have hagree : ∀ query answer columns, described query = some answer → executedColumns query = some columns →
      ((answer.getD []).map fieldColumn = columns ↔
        (parse selectGateway query).returnsRows = true ∨ columns = []) := by
    intro query answer columns hdescribed hexecuted
    obtain ⟨response, hresponse, rfl⟩ := Option.map_eq_some_iff.mp hexecuted
    exact prepared_columns selectGateway [.query "SELECT a".toList]
      [.bind (binaryPortal query), .describePortal "p".toList] (binaryPortal query) (hsteady _) answer
      (ok_of_toOption hdescribed) response (ok_of_toOption hresponse)
  have hselect : described "SELECT a".toList = some (some [⟨"x".toList, .int4, .text⟩]) := by decide +kernel
  have hselected : executedColumns "SELECT a".toList = some [("x".toList, .int4)] := by decide +kernel
  have hshow : described "SHOW server_version".toList = some none := by decide +kernel
  have hshown : executedColumns "SHOW server_version".toList = some [("server_version".toList, .varchar)] := by
    decide +kernel
  refine ⟨?_, ?_⟩
  · rw [hselect, hselected]
    exact congrArg some ((hagree _ _ _ hselect hselected).mpr (.inl (by decide +kernel))).symm
  · rw [hshow, hshown]
    intro hsame
    rcases (hagree _ _ _ hshow hshown).mp (Option.some.inj hsame).symm with hrows | hnone
    · exact absurd hrows (by decide +kernel)
    · cases hnone

end TrinoGateway.Framing
