/-
  TrinoGateway.ErrorOrigins — where the errors come from that a client is sent. Trino's
  messages name hosts and classes, so `execute_trino_query` passes them through
  `trino_error_to_pg` before they leave (`src/error_mapping.rs`). They reach a client in many
  ways: as the result of a handler, as a response in the middle of a batch, as an item of a
  row stream long after the statement was submitted, and in the extended protocol from the
  stash, where the failure of an earlier Describe waits for its Execute.

  `errorsSent` are the errors a message makes the gateway send. Proved, over every run of
  messages, polls and drops: `errors_traced`. Each of them is the failure Trino's reply to a
  statement of this connection ends with, made fit for the client; a refusal of the gateway's
  own to encode a value of such a reply; or the failure of a query of the gateway's own for
  `pg_class` or `pg_attribute`. The last kind is sent as the client library printed it, hosts
  and all (`lookup_failure_sent`), and it is the only one. What a run keeps is `Traced`: each
  stream and each stashed response yields the end of what Trino sent for some statement.
-/

import TrinoGateway.Framing
import TrinoGateway.Idle

namespace TrinoGateway.ErrorOrigins

open TrinoGateway.Lib
open TrinoGateway.Types
open TrinoGateway.Catalog
open TrinoGateway.Pipeline
open TrinoGateway.Portals
open TrinoGateway.Connection
open TrinoGateway.Idle (SentAfter)

/-! ## Cells -/

/-- The texts the gateway has for a cell it cannot encode. -/
inductive Refusal : PgWireError → Prop
  | conversion (target : String) (trinoType : Text) : Refusal (conversionError target trinoType)
  | range (value : ℤ) (target : String) : Refusal (outOfRange value target)
  | unsupported (pgType : PgType) (trinoType : Text) : Refusal (unsupportedBinaryType pgType trinoType)

theorem convert_error {α : Type} {target : String} {trinoType : Text} {found : Option α} {e : PgWireError}
    (h : convert target trinoType found = .error e) : Refusal e := by
  cases found with
  | some a => cases h
  | none =>
    cases h
    exact .conversion target trinoType

/-- A payload made of a conversion fails as the conversion does. -/
theorem payload_error {α : Type} {target : String} {trinoType : Text} {found : Option α} {e : PgWireError}
    {f : α → Payload} (h : (do return f (← convert target trinoType found)) = Except.error e) : Refusal e := by
  cases hfound : convert target trinoType found with
  | ok a => rw [hfound] at h; cases h
  | error e' =>
    rw [hfound] at h
    cases h
    exact convert_error hfound

/-- The integer types check their range after the conversion. -/
theorem integer_error {trinoType : Text} {found : Option ℤ} {e : PgWireError} {fits : ℤ → Prop} [DecidablePred fits]
    {width : ℕ} {target : String}
    (h : (do
      let n ← convert "integer" trinoType found
      if fits n then return Payload.bytes (putInt width n) else throw (outOfRange n target)) = Except.error e) :
    Refusal e := by
  cases hfound : convert "integer" trinoType found with
  | error e' =>
    rw [hfound] at h
    cases h
    exact convert_error hfound
  | ok n =>
    rw [hfound] at h
    change (if fits n then Except.ok (Payload.bytes (putInt width n)) else Except.error (outOfRange n target)) = _ at h
    by_cases hfits : fits n
    · rw [if_pos hfits] at h
      cases h
    · rw [if_neg hfits] at h
      cases h
      exact .range n target

theorem encodeBinaryCell_error {X : Crates} {value : Value} {pgType : PgType} {trinoType : Text} {e : PgWireError}
    (h : encodeBinaryCell X value pgType trinoType = .error e) : Refusal e := by
  unfold encodeBinaryCell at h
  split at h
  · exact payload_error h
  · exact integer_error h
  · exact integer_error h
  · exact payload_error h
  · exact payload_error h
  · exact payload_error h
  · exact payload_error h
  · exact payload_error h
  · exact payload_error h
  · exact payload_error h
  · exact payload_error h
  · exact payload_error h
  all_goals
    cases h
    try exact .unsupported _ _

theorem encodeCell_error {X : Crates} {value : Value} {pgType : PgType} {trinoType : Text} {format : FieldFormat}
    {e : PgWireError} (h : encodeCell X value pgType trinoType format = .error e) : Refusal e := by
  by_cases hnull : value = .null
  · subst hnull
    cases h
  · cases format with
    | text =>
      rw [encodeCell_text X hnull] at h
      cases h
    | binary =>
      rw [encodeCell_binary X hnull] at h
      exact encodeBinaryCell_error h

theorem mapM_error {α β : Type} {f : α → PgWireResult β} {as : List α} {e : PgWireError} (h : as.mapM f = .error e) :
    ∃ a ∈ as, f a = .error e := by
  induction as with
  | nil => cases h
  | cons a as ih =>
    rw [List.mapM_cons] at h
    cases ha : f a with
    | error e' =>
      rw [ha] at h
      cases h
      exact ⟨a, List.mem_cons_self, ha⟩
    | ok b =>
      rw [ha] at h
      cases has : as.mapM f with
      | ok bs => rw [has] at h; cases h
      | error e' =>
        rw [has] at h
        cases h
        obtain ⟨a', hmem, ha'⟩ := ih has
        exact ⟨a', List.mem_cons_of_mem a hmem, ha'⟩

/-! ## Statements and streams -/

/-- Where an error may come from, after the requests of `l`. -/
inductive Origin (G : Gateway) (l : Link) : PgWireError → Prop
  /-- What Trino sent for a statement ends with the message, and it was made fit for the client. -/
  | trino {before : List Request} {sql message : Text} (sent : SentAfter l before sql)
      (failed : (G.trino.reply before sql).failure = some message) : Origin G l (trinoError message)
  /-- A value that Trino sent for a statement cannot be encoded. -/
  | cell {before : List Request} {sql : Text} {row : Row} {value : Value} {pgType : PgType} {trinoType : Text}
      {format : FieldFormat} {e : PgWireError} (sent : SentAfter l before sql)
      (ofRow : row ∈ rowsOf (G.trino.reply before sql).pages) (ofValue : value ∈ row)
      (failed : encodeCell G.crates value pgType trinoType format = .error e) (refused : Refusal e) : Origin G l e
  /-- A query of the gateway's own has failed; the message is as it came. -/
  | lookup {before : List Request} {table : DynamicTable} {message : Text}
      (made : before ++ [.lookup table.sql] <+: l.requests)
      (failed : G.trino.getAll before table.sql = .error message) : Origin G l (.apiError message)

variable {G : Gateway} {l l₁ : Link} {resultFormat : Option Format} {responses : List Response}

theorem Origin.later {e : PgWireError} (h : Origin G l e) (hgrows : l.requests <+: l₁.requests) : Origin G l₁ e := by
  cases h with
  | trino sent failed => exact .trino (sent.later hgrows) failed
  | cell sent ofRow ofValue failed refused => exact .cell (sent.later hgrows) ofRow ofValue failed refused
  | lookup made failed => exact .lookup (made.trans hgrows) failed

/-- The items of what Trino sent for a statement. -/
theorem remainder_origin {before : List Request} {sql : Text} (sent : SentAfter l before sql)
    {columns : List TrinoColumn} {schema : Schema} {e : PgWireError}
    (h : .error e ∈ remainder G.crates columns schema [] (some (G.trino.reply before sql))) : Origin G l e := by
  rcases List.mem_append.mp h with hrow | hfailure
  · obtain ⟨row, hmem, hencode⟩ := List.mem_map.mp hrow
    obtain ⟨⟨value, column, field⟩, hzip, hcell⟩ := mapM_error hencode
    exact .cell sent hmem (List.of_mem_zip hzip).1 hcell (encodeCell_error hcell)
  · change .error e ∈ failureItem (G.trino.reply before sql).failure at hfailure
    cases hfailed : (G.trino.reply before sql).failure with
    | none => rw [hfailed] at hfailure; cases hfailure
    | some message =>
      rw [hfailed] at hfailure
      cases List.mem_singleton.mp hfailure
      exact .trino sent hfailed

variable (G) in
/-- What the stream has to yield is the end of what Trino sent for a statement. -/
def Sourced (l : Link) (s : RowStream) : Prop :=
  ∃ before sql columns schema items, SentAfter l before sql ∧ StreamYields G.crates s items ∧
    items <:+ remainder G.crates columns schema [] (some (G.trino.reply before sql))

theorem Sourced.later {s : RowStream} (h : Sourced G l s) (hgrows : l.requests <+: l₁.requests) : Sourced G l₁ s := by
  obtain ⟨before, sql, columns, schema, items, sent, hyields, hend⟩ := h
  exact ⟨before, sql, columns, schema, items, sent.later hgrows, hyields, hend⟩

/-- One poll: an error has an origin, and the stream stays sourced. -/
theorem Sourced.poll {s : RowStream} (h : Sourced G l s) :
    Sourced G l (s.poll G.crates).2 ∧ ∀ e, (s.poll G.crates).1 = some (.error e) → Origin G l e := by
  obtain ⟨before, sql, columns, schema, items, sent, hyields, hend⟩ := h
  obtain ⟨rest, rfl, hrest⟩ := hyields.next
  refine ⟨⟨before, sql, columns, schema, rest, sent, hrest, (List.suffix_append _ _).trans hend⟩, fun e hitem => ?_⟩
  refine remainder_origin sent (hend.subset (List.mem_append_left _ ?_))
  rw [hitem]
  exact List.mem_singleton_self _

theorem sentAfter_submit (l : Link) (sql : Text) (resultFormat : Option Format) :
    SentAfter (submit G l sql resultFormat).2 l.requests sql := by
  rw [SentAfter, submit_requests]

theorem submit_origin {sql : Text} {e : PgWireError} (h : (submit G l sql resultFormat).1 = .error e) :
    Origin G (submit G l sql resultFormat).2 e := by
  have sent := sentAfter_submit (G := G) l sql resultFormat
  have hresult := execute_result (X := G.crates) (G.trino.reply l.requests sql) l.activeQueryId resultFormat
  unfold submit at h
  rcases hexecute : executeTrinoQuery G.crates (G.trino.reply l.requests sql) l.activeQueryId resultFormat with
    ⟨e' | found, slot⟩
  · simp only [hexecute] at h
    rw [hexecute] at hresult
    cases hfound : discoverFrom [] (G.trino.reply l.requests sql) with
    | ok found => rw [hfound] at hresult; cases hresult
    | error message =>
      rw [hfound] at hresult
      cases hresult
      cases h
      exact .trino sent (discoverFrom_error hfound)
  · simp only [hexecute] at h
    cases h

/-- The stream of a statement begins with all that Trino sent for it. -/
theorem submit_sourced (l : Link) (sql : Text) (resultFormat : Option Format) :
    ∀ rows ∈ forwarded ((submit G l sql resultFormat).1.toOption.getD []),
      Sourced G (submit G l sql resultFormat).2 rows.stream := by
  intro rows hrows
  have sent := sentAfter_submit (G := G) l sql resultFormat
  have hresult := execute_result (X := G.crates) (G.trino.reply l.requests sql) l.activeQueryId resultFormat
  rcases hexecute : executeTrinoQuery G.crates (G.trino.reply l.requests sql) l.activeQueryId resultFormat with
    ⟨e | ⟨schema, stream⟩, slot⟩
  · simp only [submit, hexecute] at hrows
    cases hrows
  · rw [hexecute] at hresult
    cases hfound : discoverFrom [] (G.trino.reply l.requests sql) with
    | error message => rw [hfound] at hresult; cases hresult
    | ok found =>
      obtain ⟨columns, initialRows, nextUri⟩ := found
      rw [hfound] at hresult
      cases hresult
      simp only [submit, hexecute, Except.toOption, Option.getD_some] at hrows
      split_ifs at hrows with hempty
      · cases hrows
      · cases List.mem_singleton.mp hrows
        have hcolumns : columns ≠ [] := by
          rintro rfl
          exact hempty rfl
        have hyields : StreamYields G.crates
            ⟨columns, buildPgSchema G.crates columns resultFormat, .unstarted initialRows nextUri⟩
            (remainder G.crates columns (buildPgSchema G.crates columns resultFormat) initialRows nextUri) :=
          unstarted_yields initialRows nextUri
        rw [discoverFrom_remainder hfound hcolumns] at hyields
        exact ⟨l.requests, sql, _, _, _, sent, hyields, List.suffix_rfl⟩

theorem respond_origin {table : DynamicTable} {e : PgWireError}
    (h : table.respond G.crates (G.trino.getAll l.requests table.sql) = .error e) :
    Origin G (l.request (.lookup table.sql)) e := by
  cases hdataset : G.trino.getAll l.requests table.sql with
  | ok rows =>
    rw [hdataset] at h
    cases table <;> cases h
  | error message =>
    have hlookup : Origin G (l.request (.lookup table.sql)) (.apiError message) := .lookup List.prefix_rfl hdataset
    rw [hdataset] at h
    cases table with
    | pgClass =>
      cases h
      exact hlookup
    | pgAttribute =>
      cases h
      exact hlookup

theorem single_origin {stmt : Text} {e : PgWireError} (h : (processSingleStatement G l stmt resultFormat).1 = .error e) :
    Origin G (processSingleStatement G l stmt resultFormat).2 e := by
  unfold processSingleStatement at h ⊢
  cases hintercepted : intercepted G stmt with
  | some result =>
    obtain ⟨response, rfl, -⟩ := intercepted_built G hintercepted
    rw [hintercepted] at h
    cases h
  | none =>
    rw [hintercepted] at h
    cases hdynamic : dynamicTable (parse G stmt) with
    | some table =>
      rw [hdynamic] at h
      exact respond_origin h
    | none =>
      rw [hdynamic] at h
      exact submit_origin h

theorem single_sourced (l : Link) (stmt : Text) (resultFormat : Option Format) :
    ∀ rows ∈ forwarded ((processSingleStatement G l stmt resultFormat).1.toOption.getD []),
      Sourced G (processSingleStatement G l stmt resultFormat).2 rows.stream := by
  intro rows hrows
  unfold processSingleStatement at hrows ⊢
  cases hintercepted : intercepted G stmt with
  | some result =>
    obtain ⟨response, rfl, hlocal⟩ := intercepted_built G hintercepted
    simp [hintercepted, Except.toOption, forwarded, trinoRows?_of_local hlocal] at hrows
  | none =>
    rw [hintercepted] at hrows
    cases hdynamic : dynamicTable (parse G stmt) with
    | some table =>
      rcases respond_cases G.crates table (G.trino.getAll l.requests table.sql) with ⟨response, h, hlocal⟩ | ⟨e, h⟩
      · simp [hdynamic, h, Except.toOption, forwarded, trinoRows?_of_local hlocal] at hrows
      · simp [hdynamic, h, Except.toOption, forwarded] at hrows
    | none =>
      rw [hdynamic] at hrows
      exact submit_sourced l _ resultFormat rows hrows

/-! ## Batches -/

def responseErrors : Response → List PgWireError
  | .error info => [.userError info]
  | _ => []

/-- The errors in the answer to a query text. -/
def resultErrors : PgWireResult (List Response) → List PgWireError
  | .ok responses => responses.flatMap responseErrors
  | .error e => [e]

theorem succeeds_no_errors {stmts : List Text} (h : Succeeds G resultFormat l stmts responses l₁) :
    responses.flatMap responseErrors = [] := by
  induction h with
  | nil l => rfl
  | cons hs _ ih =>
    obtain ⟨response, rfl, hne⟩ := single_ok hs
    have hnone : responseErrors response = [] := by
      cases response with
      | error info => exact absurd rfl (hne info)
      | query schema source => rfl
      | execution tag => rfl
    rw [List.singleton_append, List.flatMap_cons, hnone, ih]
    rfl

theorem processQuery_origin (l : Link) (text : Text) (resultFormat : Option Format) :
    ∀ e ∈ resultErrors (processQuery G l text resultFormat).1, Origin G (processQuery G l text resultFormat).2 e := by
  intro e he
  rw [processQuery] at he ⊢
  split_ifs at he ⊢ with hone
  · have horigin : (processSingleStatement G l text resultFormat).1 = .error e →
        Origin G (processSingleStatement G l text resultFormat).2 e := single_origin
    rcases hs : processSingleStatement G l text resultFormat with ⟨e' | responses, l'⟩
    · rw [hs] at he horigin
      exact horigin (by rw [List.mem_singleton.mp he])
    · have hnone := succeeds_no_errors (.cons hs (.nil l'))
      rw [List.append_nil] at hnone
      rw [hs] at he
      change e ∈ responses.flatMap responseErrors at he
      rw [hnone] at he
      cases he
  · rcases processBatch_spec (G := G) l [] (splitStatements G text) with ⟨responses, l', hm, hb⟩ |
      ⟨_, stmt, _, responses, l₁, e', l', _, hm, hf, hb⟩
    · rw [hb, List.nil_append] at he
      change e ∈ responses.flatMap responseErrors at he
      rw [succeeds_no_errors hm] at he
      cases he
    · -- The statement that fails is the last that runs.
      have horigin := single_origin (congrArg Prod.fst hf)
      rw [hf] at horigin
      rw [hb, List.nil_append] at he ⊢
      cases e' with
      | apiError message =>
        rw [List.mem_singleton.mp he]
        exact horigin
      | userError info =>
        change e ∈ (responses ++ [Response.error info]).flatMap responseErrors at he
        rw [List.flatMap_append, succeeds_no_errors hm, List.nil_append] at he
        rw [List.mem_singleton.mp he]
        exact horigin

variable (G) in
/-- Requests are added, and the streams among the responses are sourced. -/
def Forwarding (l l' : Link) (responses : List Response) : Prop :=
  l.requests <+: l'.requests ∧ ∀ rows ∈ forwarded responses, Sourced G l' rows.stream

theorem forwarding_runs : Runs (Forwarding G) where
  nil l := ⟨List.prefix_rfl, List.forall_mem_nil _⟩
  error l info := ⟨List.prefix_rfl, List.forall_mem_nil _⟩
  append := by
    intro l l₁ l₂ responses more h h'
    refine ⟨h.1.trans h'.1, fun rows hrows => ?_⟩
    rw [forwarded_append] at hrows
    rcases List.mem_append.mp hrows with hrows | hrows
    · exact (h.2 rows hrows).later h'.1
    · exact h'.2 rows hrows
  sublist h hsub := ⟨h.1, fun rows hrows => h.2 rows ((hsub.filterMap _).subset hrows)⟩

theorem processQuery_forwarding (l : Link) (text : Text) (resultFormat : Option Format) :
    Forwarding G l (processQuery G l text resultFormat).2 ((processQuery G l text resultFormat).1.toOption.getD []) :=
  forwarding_runs.processQuery
    (fun l stmt => ⟨(Idle.single_leaves G l stmt resultFormat).grows, single_sourced l stmt resultFormat⟩) l text

variable (G) in
/-- Every error the response has or will have has an origin. -/
structure TracedResponse (l : Link) (response : Response) : Prop where
  rows : ∀ rows ∈ response.trinoRows?, Sourced G l rows.stream
  errors : ∀ e ∈ responseErrors response, Origin G l e

theorem TracedResponse.later {response : Response} (h : TracedResponse G l response)
    (hgrows : l.requests <+: l₁.requests) : TracedResponse G l₁ response :=
  ⟨fun rows hrows => (h.rows rows hrows).later hgrows, fun e he => (h.errors e he).later hgrows⟩

theorem processQuery_traced (l : Link) (text : Text) (resultFormat : Option Format) :
    ∀ response ∈ (processQuery G l text resultFormat).1.toOption.getD [],
      TracedResponse G (processQuery G l text resultFormat).2 response := by
  intro response hresponse
  refine ⟨fun rows hrows => ?_, fun e he => ?_⟩
  · exact (processQuery_forwarding l text resultFormat).2 rows (List.mem_filterMap.mpr ⟨response, hresponse, hrows⟩)
  · refine processQuery_origin l text resultFormat e ?_
    cases hresult : (processQuery G l text resultFormat).1 with
    | error e' => rw [hresult] at hresponse; cases hresponse
    | ok responses =>
      rw [hresult] at hresponse
      exact List.mem_flatMap.mpr ⟨response, hresponse, he⟩

/-! ## Messages -/

def handlerErrors {α : Type} : PgWireResult α → List PgWireError
  | .ok _ => []
  | .error e => [e]

theorem eq_error_of_mem {α : Type} {result : PgWireResult α} {e : PgWireError} (h : e ∈ handlerErrors result) :
    result = .error e := by
  cases result with
  | ok a => cases h
  | error e' => rw [List.mem_singleton.mp h]

/-- The answer of the extended protocol is one response. -/
def firstErrors : PgWireResult Response → List PgWireError
  | .ok response => responseErrors response
  | .error e => [e]

variable (G) in
/-- What a message makes the gateway send as errors. -/
def errorsSent (c : Conn) : Message → List PgWireError
  | .bind _ => []
  | .describePortal name => (c.bound name).elim [] fun portal => handlerErrors (doDescribePortal G c.session portal).1
  | .execute name => (c.bound name).elim [] fun portal => firstErrors (doQuery G c.session portal).1
  | .describeStatement text => handlerErrors (doDescribeStatement G c.session text).1
  | .query text => resultErrors (runPipeline G c.session text none).1
  | .poll n => (c.streams n).elim [] fun rows => (rows.stream.poll G.crates).1.elim [] handlerErrors
  | .drop _ => []

/-- A run of the pipeline fails with an error, or its first response is one of its responses. -/
theorem firstResponse_traced (l : Link) (text : Text) (resultFormat : Option Format) :
    (∀ e, firstResponse (processQuery G l text resultFormat).1 = .error e →
        Origin G (processQuery G l text resultFormat).2 e) ∧
      ∀ response, firstResponse (processQuery G l text resultFormat).1 = .ok response →
        TracedResponse G (processQuery G l text resultFormat).2 response := by
  have horigin := processQuery_origin (G := G) l text resultFormat
  have htraced := processQuery_traced (G := G) l text resultFormat
  cases hresult : (processQuery G l text resultFormat).1 with
  | error e =>
    rw [hresult] at horigin
    refine ⟨fun e' he => ?_, fun response h => ?_⟩
    · cases he
      exact horigin e (List.mem_singleton_self e)
    · cases h
  | ok responses =>
    obtain ⟨first, rest, rfl⟩ := processQuery_ok hresult
    rw [hresult] at htraced
    refine ⟨fun e he => ?_, fun response h => ?_⟩
    · cases he
    · cases h
      exact htraced first List.mem_cons_self

variable (G) in
/-- Whatever the client may still be sent has an origin: the streams it pulls, and the responses in the stash. -/
structure Traced (c : Conn) : Prop where
  streams : ∀ n rows, c.streams n = some rows → Sourced G c.session.link rows.stream
  stash : ∀ name entry, c.session.portals.lookup name = some entry → TracedResponse G c.session.link entry.response

section steps

variable {c : Conn}

theorem execute_traced (h : Traced G c) (portal : Portal) :
    (∀ e, (doQuery G c.session portal).1 = .error e → Origin G (doQuery G c.session portal).2.link e) ∧
      ∀ response, (doQuery G c.session portal).1 = .ok response →
        TracedResponse G (doQuery G c.session portal).2.link response := by
  by_cases hserves : Serves c.session portal.name portal.query
  · obtain ⟨entry, hlookup, hquery⟩ := hserves
    rw [doQuery_served hlookup hquery]
    refine ⟨fun e he => ?_, fun response hresponse => ?_⟩
    · cases he
    · cases hresponse
      exact h.stash portal.name entry hlookup
  · rw [doQuery_afresh hserves]
    exact firstResponse_traced c.session.link portal.query (some portal.resultColumnFormat)

theorem handed_traced (h : Traced G c) (m : Message) :
    ∀ response ∈ handed G c m, TracedResponse G (step G c m).session.link response := by
  intro response hresponse
  cases m with
  | execute name =>
    cases hb : c.bound name with
    | none => simp [handed, hb] at hresponse
    | some portal =>
      simp only [handed, hb, Option.elim_some, Option.mem_toList] at hresponse
      rw [step, hb, Option.elim_some]
      refine (execute_traced h portal).2 response ?_
      cases hresult : (doQuery G c.session portal).1 with
      | error e => rw [hresult] at hresponse; cases hresponse
      | ok first =>
        rw [hresult] at hresponse
        cases hresponse
        rfl
  | query text => exact processQuery_traced c.session.link text none response hresponse
  | bind portal | describePortal name | describeStatement text | poll n | drop n => cases hresponse

theorem step_traced (h : Traced G c) (m : Message) : Traced G (step G c m) := by
  have hgrows := Idle.step_grows (G := G) c m
  refine ⟨fun n rows hlive => ?_, fun name entry hlookup => ?_⟩
  · rcases step_live hlive with hold | ⟨earlier, hold, rfl⟩ | ⟨hrows, -⟩
    · exact (h.streams n rows hold).later hgrows
    · exact (h.streams n earlier hold).poll.1.later hgrows
    · obtain ⟨response, hmem, hresponse⟩ := List.mem_filterMap.mp hrows
      exact (handed_traced h m response hmem).rows rows hresponse
  · rcases Framing.step_stashed hlookup with hold | ⟨portal, rest, -, -, hr⟩
    · exact (h.stash name entry hold).later hgrows
    · have htraced := processQuery_traced (G := G) c.session.link portal.query (some portal.resultColumnFormat)
      rw [hr] at htraced
      exact htraced entry.response List.mem_cons_self

theorem run_traced (ms : List Message) : Traced G (run (step G) .fresh ms) := by
  refine run_invariant (fun c m h => step_traced h m) ⟨fun n rows h => ?_, fun name entry h => ?_⟩
  · cases h
  · cases h

theorem describe_origin {portal : Portal} {e : PgWireError} (h : (doDescribePortal G c.session portal).1 = .error e) :
    Origin G (describe G c portal).session.link e := by
  rw [Idle.describe_link]
  rcases describe_cases (G := G) c.session portal with ⟨e', hr, hd⟩ | ⟨response, rest, -, hd⟩
  · rw [hd] at h
    cases h
    refine processQuery_origin c.session.link portal.query (some portal.resultColumnFormat) e ?_
    rw [hr]
    exact List.mem_singleton_self e
  · rw [hd] at h
    cases h

theorem describeStatement_origin {text : Text} {e : PgWireError}
    (h : (doDescribeStatement G c.session text).1 = .error e) :
    Origin G (doDescribeStatement G c.session text).2.link e := by
  rw [describeStatement_session]
  unfold doDescribeStatement at h
  cases hrows : (parse G text).returnsRows with
  | false =>
    rw [hrows] at h
    cases h
  | true =>
    simp only [hrows, Bool.not_true, Bool.false_eq_true, if_false, runPipeline] at h
    rw [if_pos rfl]
    refine (firstResponse_traced c.session.link text none).1 e ?_
    cases hfirst : firstResponse (processQuery G c.session.link text none).1 with
    | ok response => rw [hfirst] at h; cases h
    | error e' =>
      rw [hfirst] at h
      cases h
      rfl

theorem sent_origin (h : Traced G c) (m : Message) :
    ∀ e ∈ errorsSent G c m, Origin G (step G c m).session.link e := by
  intro e he
  cases m with
  | bind portal => cases he
  | describePortal name =>
    cases hb : c.bound name with
    | none => simp [errorsSent, hb] at he
    | some portal =>
      simp only [errorsSent, hb, Option.elim_some] at he
      rw [step, hb, Option.elim_some]
      exact describe_origin (eq_error_of_mem he)
  | execute name =>
    cases hb : c.bound name with
    | none => simp [errorsSent, hb] at he
    | some portal =>
      simp only [errorsSent, hb, Option.elim_some] at he
      rw [step, hb, Option.elim_some]
      obtain ⟨herror, hok⟩ := execute_traced h portal
      cases hresult : (doQuery G c.session portal).1 with
      | error e' =>
        rw [hresult] at he
        cases List.mem_singleton.mp he
        exact herror e hresult
      | ok response =>
        rw [hresult] at he
        exact (hok response hresult).errors e he
  | describeStatement text => exact describeStatement_origin (eq_error_of_mem he)
  | query text => exact processQuery_origin c.session.link text none e he
  | poll n =>
    cases hs : c.streams n with
    | none => simp [errorsSent, hs] at he
    | some rows =>
      simp only [errorsSent, hs, Option.elim_some] at he
      cases hitem : (rows.stream.poll G.crates).1 with
      | none => simp [hitem] at he
      | some item =>
        rw [hitem] at he
        have herror : item = .error e := eq_error_of_mem he
        rw [herror] at hitem
        exact ((h.streams n rows hs).poll.2 e hitem).later (Idle.step_grows c (.poll n))
  | drop n => cases he

end steps

/-! ## Lookups -/

variable (G) in
/-- The statements a query text is run as: the text itself, or its pieces if there are several. -/
def statementsOf (text : Text) : List Text :=
  if (splitStatements G text).length ≤ 1 then [text] else splitStatements G text

/-- The failure of a lookup is the whole answer to a query text, whatever statements stand before the one it is made
    for. -/
theorem lookup_failure_sent {c : Conn} {text stmt message : Text} {before after : List Text} {table : DynamicTable}
    (htext : statementsOf G text = before ++ stmt :: after) (hbefore : Succeeds G none c.session.link before responses l)
    (hown : intercepted G stmt = none) (htable : dynamicTable (parse G stmt) = some table)
    (hfailed : G.trino.getAll l.requests table.sql = .error message) :
    errorsSent G c (.query text) = [.apiError message] := by
  have hsingle : processSingleStatement G l stmt none = (.error (.apiError message), l.request (.lookup table.sql)) := by
    rw [processSingleStatement, hown, htable]
    dsimp only
    rw [hfailed]
    cases table <;> rfl
  have hresult : (processQuery G c.session.link text none).1 = .error (.apiError message) := by
    unfold statementsOf at htext
    rw [processQuery]
    split_ifs at htext ⊢ with hone
    · -- There is nothing before the one statement.
      cases before with
      | nil =>
        cases htext
        cases hbefore
        rw [hsingle]
      | cons first before => simp at htext
    · rw [htext, processBatch_append hbefore, processBatch_stop hsingle]
      rfl
  show resultErrors (processQuery G c.session.link text none).1 = _
  rw [hresult]
  rfl

/-- Whatever happened on a connection, an error that is sent has one of the three origins; and a lookup that fails is
    answered with the message as it came. -/
theorem errors_traced (G : Gateway) (ms : List Message) :
    let c := run (step G) .fresh ms
    (∀ m, ∀ e ∈ errorsSent G c m, Origin G (step G c m).session.link e) ∧
      ∀ text before stmt after responses l table message, statementsOf G text = before ++ stmt :: after →
        Succeeds G none c.session.link before responses l → intercepted G stmt = none →
        dynamicTable (parse G stmt) = some table → G.trino.getAll l.requests table.sql = .error message →
        errorsSent G c (.query text) = [.apiError message] := by
  intro c
  refine ⟨sent_origin (run_traced ms), ?_⟩
  intro text before stmt after responses l table message htext hbefore hown htable hfailed
  exact lookup_failure_sent htext hbefore hown htable hfailed

def unreachable : Text :=
  "error sending request for url (https://internal-trino-coord.prod:8443/v1/statement/abc): connection refused".toList

def setPath : Text := "SET search_path = public".toList

def relationNames : Text := "SELECT relname FROM pg_class".toList

/-- The gateway knows the query, and the batch it stands in; Trino does not answer. -/
def classGateway : Gateway where
  crates := plainCrates
  parser :=
    { parseSql := fun sql =>
        if sql = relationNames then some [.query (selectFrom "relname" "pg_class")]
        else if sql = setPath ++ ';' :: relationNames then
          some [.other setPath [] [] [], .query (selectFrom "relname" "pg_class")]
        else some [.other sql [] [] []]
      toString := fun
        | .other label _ _ _ => label
        | _ => relationNames }
  config := ⟨"memory".toList, "default".toList⟩
  trino := ⟨fun _ _ => .failed unreachable, fun _ _ => .error unreachable⟩
  clientIsSecure := false

/-- The host is sent; from a statement of the client's the same failure would be sent without it. -/
theorem host_sent :
    errorsSent classGateway (run (step classGateway) .fresh [.bind (selectPortal .unifiedText)])
        (.query (setPath ++ ';' :: relationNames)) = [.apiError unreachable] ∧
      (ErrorMapping.trinoErrorToPg unreachable).message =
        "error sending request for url (https://<trino>/v1/statement/abc): connection refused".toList := by
  have hpieces : statementsOf classGateway (setPath ++ ';' :: relationNames) = [setPath] ++ relationNames :: [] := by
    decide +kernel
  refine ⟨?_, by decide +kernel⟩
  exact (errors_traced classGateway [.bind (selectPortal .unifiedText)]).2 _ _ _ _ _ _ .pgClass unreachable hpieces
    (.cons rfl (.nil _)) rfl rfl rfl

end TrinoGateway.ErrorOrigins
