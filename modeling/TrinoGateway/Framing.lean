/-
  TrinoGateway.Framing — data rows against the row description they are read with. A client
  splits a data row into as many fields as the description has columns, and reads each one in
  the type and format announced for it. The gateway announces columns and encodes rows at
  different times (`src/trino_stream.rs`): the description is sent when the columns of a
  result are known, the rows are encoded one by one when they are pulled, and in the extended
  protocol a Describe sends the description and an Execute, messages later, only the rows
  (`src/query_extended.rs`).

  A row is framed by a schema if it has a field for each column, in the format of the column
  and, in binary, of the size of its type (`Framed`). The gateway does not check the width of
  a row of Trino's: a row with too few values is sent as it is (`encodeRow_framed_iff`), so
  what follows assumes that Trino's rows have a value for each column (`Wide`).

  Proved, over every run of messages, polls and drops: `rows_framed`. Every row that is pulled
  from any stream is framed by the schema of the stream, which is the announced one. What a
  run keeps is `ConnSound`, of the streams with the client and the responses in the stash;
  the answers the gateway builds itself are sound by the width of their rows.
-/

import TrinoGateway.Cancel
import TrinoGateway.Types.Floats

namespace TrinoGateway.Framing

open TrinoGateway.Lib
open TrinoGateway.Types
open TrinoGateway.Catalog
open TrinoGateway.Intercept
open TrinoGateway.Pipeline
open TrinoGateway.Portals
open TrinoGateway.Connection

/-! ## Rows and schemas -/

/-- Bytes of a value in the binary format, where they do not depend on the value. -/
def binarySize : PgType → Option ℕ
  | .bool => some 1
  | .int2 => some 2
  | .int4 | .float4 | .date => some 4
  | .int8 | .float8 | .time | .timestamp | .timestamptz => some 8
  | .timetz => some 12
  | _ => none

/-- The types whose binary form is their text. -/
def stringTypes : List PgType := [.varchar, .text, .bpchar, .name, .unknown]

/-- A field of a data row that a client can read for the column. -/
inductive Fits (field : FieldInfo) : Payload → Prop
  | null : Fits field .null
  | text (s : Text) : field.format = .text → Fits field (.text s)
  | string (s : Text) : field.format = .binary → field.datatype ∈ stringTypes → Fits field (.text s)
  | binary (bs : List UInt8) : field.format = .binary → (∀ n ∈ binarySize field.datatype, bs.length = n) →
      Fits field (.bytes bs)

/-- A field for each column, and each one fits. -/
def Framed (schema : Schema) (row : DataRow) : Prop := List.Forall₂ Fits schema row

theorem fits_optionText {field : FieldInfo} (h : ∀ s, Fits field (.text s)) (t : Option Text) :
    Fits field (optionText t) := by
  cases t with
  | none => exact .null
  | some s => exact h s

theorem fits_putInt {field : FieldInfo} {n : ℕ} (hformat : field.format = .binary)
    (hsize : binarySize field.datatype = some n) (k : ℤ) : Fits field (.bytes (putInt n k)) := by
  refine .binary _ hformat fun m hm => ?_
  rw [hsize] at hm
  cases hm
  exact putInt_length n k

theorem exists_of_ok {α β : Type} {m : PgWireResult α} {f : α → β} {b : β} (h : (do return f (← m)) = .ok b) :
    ∃ a, b = f a := by
  cases m with
  | error e => cases h
  | ok a => exact ⟨a, (Except.ok.inj h).symm⟩

theorem encodeBinaryCell_fits {X : Crates} {v : Value} {field : FieldInfo} {trinoType : Text} {cell : Payload}
    (hformat : field.format = .binary) (h : encodeBinaryCell X v field.datatype trinoType = .ok cell) :
    Fits field cell := by
  obtain ⟨name, ty, format⟩ := field
  subst hformat
  cases ty with
  | bool =>
    obtain ⟨b, rfl⟩ := exists_of_ok h
    refine .binary _ rfl fun n hn => ?_
    cases hn
    rfl
  | int2 | int4 =>
    unfold encodeBinaryCell at h
    cases hn : jsonToI64 v trinoType with
    | error e => rw [hn] at h; cases h
    | ok n =>
      rw [hn] at h
      dsimp only [bind, Except.bind] at h
      split_ifs at h
      cases h
      exact fits_putInt rfl rfl _
  | int8 | float4 | float8 | timestamp | timestamptz | date | time =>
    obtain ⟨_, rfl⟩ := exists_of_ok h
    exact fits_putInt rfl rfl _
  | timetz =>
    obtain ⟨t, rfl⟩ := exists_of_ok h
    refine .binary _ rfl fun n hn => ?_
    cases hn
    rw [TimeTz.toSql, List.length_append, putInt_length, putInt_length]
  | numeric =>
    obtain ⟨bs, rfl⟩ := exists_of_ok h
    exact .binary _ rfl fun n hn => by cases hn
  | varchar | text | bpchar | name | unknown =>
    cases h
    exact fits_optionText (fun s => .string s rfl (by simp [stringTypes])) _
  | _ => cases h

theorem encodeCell_fits {X : Crates} {v : Value} {field : FieldInfo} {trinoType : Text} {cell : Payload}
    (h : encodeCell X v field.datatype trinoType field.format = .ok cell) : Fits field cell := by
  by_cases hv : v = .null
  · subst hv
    cases h
    exact .null
  · cases hformat : field.format with
    | text =>
      rw [hformat, encodeCell_text X hv] at h
      cases h
      exact fits_optionText (fun s => .text s hformat) _
    | binary =>
      rw [hformat, encodeCell_binary X hv] at h
      exact encodeBinaryCell_fits hformat h

/-! ## Rows of Trino's -/

theorem forall₂_of_mapM {α β : Type} {f : α → PgWireResult β} {as : List α} {bs : List β} (h : as.mapM f = .ok bs) :
    List.Forall₂ (fun a b => f a = .ok b) as bs := by
  induction as generalizing bs with
  | nil => cases h; exact .nil
  | cons a as ih =>
    rw [List.mapM_cons] at h
    cases ha : f a with
    | error e => rw [ha] at h; cases h
    | ok b =>
      rw [ha] at h
      cases has : as.mapM f with
      | error e => rw [has] at h; cases h
      | ok rest =>
        rw [has] at h
        cases h
        exact .cons ha (ih has)

section rows

variable {X : Crates} {columns : List TrinoColumn} {schema : Schema} {values : Row} {row : DataRow}

/-- The columns a row has values for are encoded, each one for its field. -/
theorem encodeRow_forall₂ (h : encodeRow X values columns schema = .ok row) :
    List.Forall₂ Fits ((values.zip (columns.zip schema)).map (·.2.2)) row := by
  rw [List.forall₂_map_left_iff]
  exact (forall₂_of_mapM h).imp fun _ _ hcell => encodeCell_fits hcell

theorem zip_fields (values : Row) (hschema : schema.length = columns.length) :
    (values.zip (columns.zip schema)).map (·.2.2) = schema.take values.length := by
  induction values generalizing columns schema with
  | nil => rfl
  | cons v values ih =>
    cases columns with
    | nil =>
      rw [List.length_eq_zero_iff.mp hschema]
      rfl
    | cons column columns =>
      cases schema with
      | nil => cases hschema
      | cons field schema =>
        rw [List.zip_cons_cons, List.zip_cons_cons, List.map_cons, ih (Nat.succ.inj hschema), List.length_cons,
          List.take_succ_cons]

/-- A row is framed if and only if it has a value for each column. -/
theorem encodeRow_framed_iff (hschema : schema.length = columns.length)
    (h : encodeRow X values columns schema = .ok row) :
    Framed schema row ↔ columns.length ≤ values.length := by
  have hfits := encodeRow_forall₂ h
  rw [zip_fields values hschema] at hfits
  constructor
  · intro hframed
    have hlen := hframed.length_eq
    have hlen' := hfits.length_eq
    rw [List.length_take] at hlen'
    omega
  · intro hle
    rwa [List.take_of_length_le (by omega)] at hfits

theorem buildPgSchema_length (columns : List TrinoColumn) (resultFormat : Option Format) :
    (buildPgSchema X columns resultFormat).length = columns.length := List.length_mapIdx

end rows

/-! ## Streams -/

/-- The rows of Trino's a stream has not yielded. -/
def Phase.left : Phase → List Row
  | .unstarted rows nextUri | .running rows nextUri => rows ++ nextUri.elim [] fun reply => rowsOf reply.pages
  | .failing | .finished => []

/-- The schema is that of the columns, and the rows to come have a value for each of them. -/
structure StreamSound (s : RowStream) : Prop where
  schema : s.schema.length = s.columns.length
  wide : ∀ row ∈ Phase.left s.phase, s.columns.length ≤ row.length

/-- What a poll does to a stream with `left` to yield: it yields a row of them or none, and leaves some of them. -/
def Takes (X : Crates) (columns : List TrinoColumn) (schema : Schema) (left : List Row)
    (out : Option (PgWireResult DataRow) × Phase) : Prop :=
  (∀ row, out.1 = some (.ok row) → ∃ values ∈ left, encodeRow X values columns schema = .ok row) ∧
    ∀ values ∈ Phase.left out.2, values ∈ left

section streams

variable {X : Crates} {columns : List TrinoColumn} {schema : Schema}

theorem takes_row (values : Row) (rows : List Row) (nextUri : Option Reply) :
    Takes X columns schema (Phase.left (.running (values :: rows) nextUri))
      (some (encodeRow X values columns schema), .running rows nextUri) := by
  refine ⟨fun row h => ?_, fun values' h => List.mem_cons_of_mem _ h⟩
  exact ⟨values, List.mem_cons_self, Option.some.inj h⟩

theorem takes_error (left : List Row) (e : PgWireError) : Takes X columns schema left (some (.error e), .failing) := by
  refine ⟨fun row h => ?_, fun values h => ?_⟩
  · cases h
  · cases h

theorem takes_none (left : List Row) : Takes X columns schema left (none, .finished) := by
  refine ⟨fun row h => ?_, fun values h => ?_⟩
  · cases h
  · cases h

theorem advance_takes (reply : Reply) :
    Takes X columns schema (rowsOf reply.pages) (advance X columns schema reply) := by
  induction reply with
  | failed message => exact takes_error _ _
  | last result =>
    unfold advance
    cases herror : result.error with
    | some message => exact takes_error _ _
    | none =>
      have hpages : rowsOf (Reply.last result).pages = extractDirectRows result.data := by
        simp [Reply.pages, herror, rowsOf]
      rw [hpages]
      cases extractDirectRows result.data with
      | nil => exact takes_none _
      | cons values rows =>
        have hleft : Phase.left (.running (values :: rows) none) = values :: rows := List.append_nil _
        have htakes : Takes X columns schema (Phase.left (.running (values :: rows) none))
            (some (encodeRow X values columns schema), .running rows none) := takes_row values rows none
        rwa [hleft] at htakes
  | more result nextUri ih =>
    unfold advance
    cases herror : result.error with
    | some message => exact takes_error _ _
    | none =>
      have hpages : rowsOf (Reply.more result nextUri).pages =
          extractDirectRows result.data ++ rowsOf nextUri.pages := by
        simp [Reply.pages, herror, rowsOf]
      rw [hpages]
      cases extractDirectRows result.data with
      | nil => exact ih
      | cons values rows => exact takes_row values rows (some nextUri)

theorem resume_takes (rows : List Row) (nextUri : Option Reply) :
    Takes X columns schema (Phase.left (.running rows nextUri)) (resume X columns schema rows nextUri) := by
  cases rows with
  | cons values rows => exact takes_row values rows nextUri
  | nil =>
    cases nextUri with
    | none => exact takes_none _
    | some reply => exact advance_takes reply

theorem poll_takes (s : RowStream) :
    Takes X s.columns s.schema (Phase.left s.phase) ((s.poll X).1, (s.poll X).2.phase) ∧
      (s.poll X).2.columns = s.columns ∧ (s.poll X).2.schema = s.schema := by
  obtain ⟨columns, schema, phase⟩ := s
  cases phase with
  | unstarted rows nextUri | running rows nextUri => exact ⟨resume_takes rows nextUri, rfl, rfl⟩
  | failing | finished => exact ⟨takes_none _, rfl, rfl⟩

/-- One poll: the row is framed, and the stream stays sound. -/
theorem StreamSound.poll {s : RowStream} (h : StreamSound s) :
    StreamSound (s.poll X).2 ∧ ∀ row, (s.poll X).1 = some (.ok row) → Framed s.schema row := by
  obtain ⟨⟨hrow, hleft⟩, hcolumns, hschema⟩ := poll_takes (X := X) s
  refine ⟨⟨?_, fun values hvalues => ?_⟩, fun row hpoll => ?_⟩
  · rw [hcolumns, hschema]
    exact h.schema
  · rw [hcolumns]
    exact h.wide values (hleft values hvalues)
  · obtain ⟨values, hvalues, hencode⟩ := hrow row hpoll
    exact (encodeRow_framed_iff h.schema hencode).mpr (h.wide values hvalues)

/-- Any number of polls. -/
theorem StreamSound.polls {s s' : RowStream} {items : List (PgWireResult DataRow)} (h : StreamSound s)
    (hpolls : Polls (RowStream.poll X) s items s') : ∀ row, .ok row ∈ items → Framed s.schema row := by
  have hkeep : ∀ (seen : List (PgWireResult DataRow)) (t : RowStream) (item : PgWireResult DataRow) (t' : RowStream),
      (StreamSound t ∧ t.schema = s.schema ∧ ∀ row, .ok row ∈ seen → Framed s.schema row) →
      t.poll X = (some item, t') →
      StreamSound t' ∧ t'.schema = s.schema ∧ ∀ row, .ok row ∈ seen ++ [item] → Framed s.schema row := by
    intro seen t item t' ⟨ht, hschema, hseen⟩ hpoll
    obtain ⟨hnext, hframed⟩ := ht.poll
    have hsame := (poll_takes (X := X) t).2.2
    rw [hpoll] at hnext hframed hsame
    refine ⟨hnext, hsame.trans hschema, fun row hrow => ?_⟩
    rcases List.mem_append.mp hrow with hold | hnew
    · exact hseen row hold
    · rw [← hschema]
      exact hframed row (congrArg some (List.mem_singleton.mp hnew).symm)
  have hstart : StreamSound s ∧ s.schema = s.schema ∧ ∀ row, .ok row ∈ ([] : List (PgWireResult DataRow)) →
      Framed s.schema row := ⟨h, rfl, fun row hrow => by cases hrow⟩
  exact (hpolls.invariant (P := fun seen t =>
    StreamSound t ∧ t.schema = s.schema ∧ ∀ row, .ok row ∈ seen → Framed s.schema row) hkeep hstart).2.2

end streams

/-! ## What Trino is assumed to send -/

/-- Every row of the chain has a value for each of its columns. -/
def Wide (reply : Reply) : Prop :=
  ∀ columns, firstColumns reply.pages = some columns → ∀ row ∈ rowsOf reply.pages, columns.length ≤ row.length

/-- The first loop loses no row, and takes the first columns. -/
theorem discoverFrom_left {rows initialRows : List Row} {reply : Reply} {columns : List TrinoColumn}
    {nextUri : Option Reply} (h : discoverFrom rows reply = .ok (columns, initialRows, nextUri)) :
    Phase.left (.unstarted initialRows nextUri) = rows ++ rowsOf reply.pages ∧
      (columns ≠ [] → firstColumns reply.pages = some columns) := by
  induction reply generalizing rows with
  | failed message => cases h
  | last result =>
    unfold discoverFrom at h
    cases herror : result.error with
    | some message => rw [herror] at h; cases h
    | none =>
      rw [herror] at h
      cases h
      have hpages : (Reply.last result).pages = [result] := by simp [Reply.pages, herror]
      rw [hpages, firstColumns_cons]
      refine ⟨by simp [Phase.left, rowsOf], fun hne => ?_⟩
      rw [if_neg (by simpa [List.isEmpty_iff] using hne)]
  | more result rest ih =>
    unfold discoverFrom at h
    cases herror : result.error with
    | some message => rw [herror] at h; cases h
    | none =>
      rw [herror] at h
      have hpages : (Reply.more result rest).pages = result :: rest.pages := by simp [Reply.pages, herror]
      rw [hpages, firstColumns_cons]
      dsimp only at h
      split_ifs at h with hempty
      · obtain ⟨hleft, hcolumns⟩ := ih h
        rw [if_pos hempty]
        refine ⟨?_, hcolumns⟩
        rw [hleft, List.append_assoc]
        rfl
      · cases h
        rw [if_neg hempty]
        exact ⟨by simp [Phase.left, rowsOf], fun _ => rfl⟩

/-- What `execute_trino_query` returns for a wide chain is a sound stream. -/
theorem execute_sound {X : Crates} {reply : Reply} {slot : Option Text} {resultFormat : Option Format} {schema : Schema}
    {stream : RowStream} (hwide : Wide reply)
    (h : (executeTrinoQuery X reply slot resultFormat).1 = .ok (schema, stream)) (hne : schema ≠ []) :
    stream.schema = schema ∧ StreamSound stream := by
  rw [execute_result] at h
  cases hfound : discoverFrom [] reply with
  | error message => rw [hfound] at h; cases h
  | ok found =>
    obtain ⟨columns, initialRows, nextUri⟩ := found
    rw [hfound] at h
    cases h
    obtain ⟨hleft, hcolumns⟩ := discoverFrom_left hfound
    refine ⟨rfl, buildPgSchema_length columns resultFormat, ?_⟩
    show ∀ row ∈ Phase.left (.unstarted initialRows nextUri), columns.length ≤ row.length
    rw [hleft]
    refine hwide columns (hcolumns fun hnil => hne ?_)
    rw [hnil]
    rfl

/-! ## Responses -/

/-- Every row the response has or will have is framed by its schema. -/
def Sound : Response → Prop
  | .query schema (.static rows) => ∀ row ∈ rows, Framed schema row
  | .query schema (.trino rows) => rows.stream.schema = schema ∧ StreamSound rows.stream
  | .execution _ | .error _ => True

/-- A result of one sound response, if it is no error. -/
def Sounds (result : PgWireResult (List Response)) : Prop := ∀ response ∈ result.toOption.getD [], Sound response

theorem framed_texts {schema : Schema} (htext : ∀ field ∈ schema, field.format = .text) {cells : List (Option Text)}
    (hlen : cells.length = schema.length) : Framed schema (cells.map optionText) := by
  induction schema generalizing cells with
  | nil =>
    rw [List.length_eq_zero_iff.mp hlen]
    exact .nil
  | cons field schema ih =>
    obtain ⟨hfield, hrest⟩ := List.forall_mem_cons.mp htext
    cases cells with
    | nil => cases hlen
    | cons cell cells =>
      exact .cons (fits_optionText (fun s => .text s hfield) cell) (ih hrest (Nat.succ.inj hlen))

theorem executed_sounds (tag : String) : Sounds (Intercept.executed tag) := by
  intro response hresponse
  rw [List.mem_singleton.mp hresponse]
  trivial

/-- One response with a result of the gateway's own. -/
theorem sounds_static {schema : Schema} {rows : List DataRow} (h : ∀ row ∈ rows, Framed schema row) :
    Sounds (.ok [.query schema (.static rows)]) := by
  intro response hresponse
  rw [List.mem_singleton.mp hresponse]
  exact h

theorem buildResponse_sounds {schema : Schema} {rows : List (List (Option Text))}
    (htext : ∀ field ∈ schema, field.format = .text) (hlen : ∀ cells ∈ rows, cells.length = schema.length) :
    Sounds (buildResponse schema rows) := by
  refine sounds_static fun row hrow => ?_
  obtain ⟨cells, hcells, rfl⟩ := List.mem_map.mp hrow
  exact framed_texts htext (hlen cells hcells)

theorem singleTextResponse_sounds (columnName value : Text) : Sounds (singleTextResponse columnName value) := by
  refine sounds_static fun row hrow => ?_
  rw [List.mem_singleton.mp hrow]
  exact .cons (.text value rfl) .nil

theorem singleBoolResponse_sounds (columnName : Text) (value : Bool) :
    Sounds (singleBoolResponse columnName value) := by
  refine sounds_static fun row hrow => ?_
  rw [List.mem_singleton.mp hrow]
  exact .cons (.text _ rfl) .nil

theorem emptyQueryResponse_sounds (query : Sql.ParsedQuery) : Sounds (emptyQueryResponse query) :=
  sounds_static fun row hrow => by cases hrow

/-- What the gateway answers without asking Trino. -/
inductive Own : PgWireResult (List Response) → Prop
  | executed (tag : String) : Own (Intercept.executed tag)
  | text (columnName value : Text) : Own (singleTextResponse columnName value)
  | bool (columnName : Text) (value : Bool) : Own (singleBoolResponse columnName value)
  | missing (query : Sql.ParsedQuery) : Own (emptyQueryResponse query)
  | compositeFields : Own emptyCompositeFields
  | enumLabels : Own emptyEnumLabels
  | types : Own respondTypeLoading
  | ranges : Own emptyPgRange
  | namespaces : Own respondPgNamespace

section answers

variable {X : Crates} {q : Sql.ParsedQuery} {result : PgWireResult (List Response)}

theorem sessionCommand_own {trimmed : Text} (h : sessionCommand X trimmed = some result) : Own result := by
  unfold sessionCommand at h
  dsimp only at h
  split_ifs at h
  all_goals cases h
  · exact .executed _
  · exact .executed _
  · exact .executed _
  · exact .executed _
  · exact .executed _
  · exact .text _ _

theorem interceptServerFunctions_own {config : Config} (h : interceptServerFunctions q config = some result) :
    Own result := by
  unfold interceptServerFunctions at h
  split_ifs at h
  iterate 4
    cases h
    exact .text _ _
  obtain ⟨v, -, rfl⟩ := Option.map_eq_some_iff.mp h
  exact .text _ _

theorem handleCatalogQuery_own (h : handleCatalogQuery q = some result) : Own result := by
  unfold handleCatalogQuery at h
  split_ifs at h
  all_goals cases h
  · exact .compositeFields
  · exact .enumLabels
  · exact .types
  · exact .ranges
  · exact .namespaces

theorem interceptMissing_own (h : interceptMissingInformationSchema q = some result) : Own result := by
  unfold interceptMissingInformationSchema at h
  split_ifs at h
  cases h
  exact .missing q

theorem tableIntercept_own {secure : Bool} (h : tableIntercept q secure = some result) : Own result := by
  unfold tableIntercept at h
  split_ifs at h
  · cases h
    exact .bool _ _
  · rcases Option.or_eq_some_iff.mp h with h | ⟨-, h⟩
    · exact handleCatalogQuery_own h
    · cases h
      exact .text _ _
  · rcases Option.or_eq_some_iff.mp h with h | ⟨-, h⟩
    · exact handleCatalogQuery_own h
    · exact interceptMissing_own h

theorem intercepted_own {G : Gateway} {query : Text} (h : intercepted G query = some result) : Own result := by
  unfold intercepted tryIntercept at h
  split_ifs at h
  rcases Option.or_eq_some_iff.mp h with h | ⟨-, h⟩
  · rcases Option.or_eq_some_iff.mp h with h | ⟨-, h⟩
    · exact sessionCommand_own h
    · exact interceptServerFunctions_own h
  · exact tableIntercept_own h

theorem Own.sounds (h : Own result) : Sounds result := by
  cases h with
  | executed tag => exact executed_sounds tag
  | text columnName value => exact singleTextResponse_sounds columnName value
  | bool columnName value => exact singleBoolResponse_sounds columnName value
  | missing query => exact emptyQueryResponse_sounds query
  | compositeFields | enumLabels | ranges | namespaces => exact buildResponse_sounds (by decide) (by decide)
  | types =>
    refine buildResponse_sounds (by decide) fun cells hcells => ?_
    obtain ⟨e, -, rfl⟩ := List.mem_map.mp hcells
    rfl

theorem respond_sounds (X : Crates) (table : DynamicTable) (dataset : Dataset) : Sounds (table.respond X dataset) := by
  have hrows : ∀ {schema : Schema} {row : List Value → List (Option Text)} (rows : List (List Value)),
      (∀ field ∈ schema, field.format = .text) → (∀ values, (row values).length = schema.length) →
      Sounds (buildResponse schema (rows.map row)) := by
    intro schema row rows htext hlen
    refine buildResponse_sounds htext fun cells hcells => ?_
    obtain ⟨values, -, rfl⟩ := List.mem_map.mp hcells
    exact hlen values
  cases dataset with
  | error e =>
    cases table
    all_goals
      intro response hresponse
      cases hresponse
  | ok rows =>
    cases table with
    | pgClass => exact hrows rows (by decide) fun values => rfl
    | pgAttribute => exact hrows rows (by decide) fun values => rfl

end answers

/-! ## From statements to messages -/

section runs

variable {G : Gateway} (hwide : ∀ requests sql, Wide (G.trino.reply requests sql))
include hwide

theorem submit_sounds (l : Link) (sql : Text) (resultFormat : Option Format) :
    Sounds (submit G l sql resultFormat).1 := by
  intro response hresponse
  unfold submit at hresponse
  rcases hexecute : executeTrinoQuery G.crates (G.trino.reply l.requests sql) l.activeQueryId resultFormat with
    ⟨e | ⟨schema, stream⟩, slot⟩
  · simp only [hexecute] at hresponse
    cases hresponse
  · simp only [hexecute, Except.toOption, Option.getD_some] at hresponse
    split_ifs at hresponse with hempty
    · rw [List.mem_singleton.mp hresponse]
      trivial
    · rw [List.mem_singleton.mp hresponse]
      refine execute_sound (hwide l.requests sql) (by rw [hexecute]) fun hnil => hempty ?_
      rw [hnil]
      rfl

theorem single_sounds (l : Link) (stmt : Text) (resultFormat : Option Format) :
    Sounds (processSingleStatement G l stmt resultFormat).1 := by
  unfold processSingleStatement
  cases hintercepted : intercepted G stmt with
  | some result => exact (intercepted_own hintercepted).sounds
  | none =>
    cases hdynamic : dynamicTable (parse G stmt) with
    | some table => exact respond_sounds G.crates table _
    | none => exact submit_sounds hwide l _ resultFormat

omit hwide in
/-- What holds of every response to a statement, and of errors, holds of every response to a text. -/
theorem forall_runs {P : Response → Prop} (herror : ∀ info, P (.error info)) :
    Runs fun _ _ responses => ∀ response ∈ responses, P response where
  nil := by
    intro l response h
    cases h
  error := by
    intro l info response h
    rw [List.mem_singleton.mp h]
    exact herror info
  append := by
    intro l l₁ l₂ responses more h h' response hmem
    rcases List.mem_append.mp hmem with hmem | hmem
    · exact h response hmem
    · exact h' response hmem
  sublist := fun h hsub response hmem => h response (hsub.subset hmem)

theorem processQuery_sounds (l : Link) (text : Text) (resultFormat : Option Format) :
    Sounds (processQuery G l text resultFormat).1 :=
  (forall_runs fun _ => trivial).processQuery (fun l stmt => single_sounds hwide l stmt resultFormat) l text

theorem firstResponse_sound (l : Link) (text : Text) (resultFormat : Option Format) :
    ∀ response ∈ (firstResponse (processQuery G l text resultFormat).1).toOption.toList, Sound response :=
  (forall_runs fun _ => trivial).firstResponse (fun l stmt => single_sounds hwide l stmt resultFormat) l text

end runs

/-! ## Runs -/

def StreamsSound (streams : ℕ → Option TrinoRows) : Prop := ∀ n rows, streams n = some rows → StreamSound rows.stream

def StashSound (portals : PortalCache) : Prop := ∀ name entry, portals.lookup name = some entry → Sound entry.response

/-- The responses in the stash and the streams with the client are sound. -/
structure ConnSound (c : Conn) : Prop where
  stash : StashSound c.session.portals
  streams : StreamsSound c.streams

theorem forwarded_sound {responses : List Response} (h : ∀ response ∈ responses, Sound response) :
    ∀ rows ∈ forwarded responses, StreamSound rows.stream := by
  intro rows hrows
  obtain ⟨response, hmem, hrows⟩ := List.mem_filterMap.mp hrows
  have hsound := h response hmem
  unfold Response.trinoRows? at hrows
  split at hrows
  · cases hrows
    exact hsound.2
  · cases hrows

section steps

variable {G : Gateway} {c : Conn}

/-- The first response of the run of the pipeline from `l` to `l'`, stashed for a portal. -/
def Stashes (G : Gateway) (l l' : Link) (name : Text) (entry : CachedPortalResponse) : Prop :=
  ∃ (portal : Portal) (rest : List Response), portal.name = name ∧ portal.query = entry.query ∧
    processQuery G l portal.query (some portal.resultColumnFormat) = (.ok (entry.response :: rest), l')

theorem describe_stashed (portal : Portal) {name : Text} {entry : CachedPortalResponse}
    (hlookup : (describe G c portal).session.portals.lookup name = some entry) :
    c.session.portals.lookup name = some entry ∨
      Stashes G c.session.link (describe G c portal).session.link name entry := by
  change (doDescribePortal G c.session portal).2.portals.lookup name = some entry at hlookup
  show _ ∨ Stashes G c.session.link (doDescribePortal G c.session portal).2.link name entry
  rcases describe_cases (G := G) c.session portal with ⟨e, -, hd⟩ | ⟨response, rest, hr, hd⟩
  · rw [hd] at hlookup
    exact .inl hlookup
  · rw [hd] at hlookup
    by_cases heq : name = portal.name
    · subst heq
      rw [lookup_insertCached] at hlookup
      split_ifs at hlookup
      cases hlookup
      exact .inr ⟨portal, rest, rfl, rfl, by rw [hd, ← hr]⟩
    · rw [lookup_insertCached_ne heq] at hlookup
      exact .inl hlookup

theorem execute_stashed (portal : Portal) {name : Text} {entry : CachedPortalResponse}
    (hlookup : (execute G c portal).session.portals.lookup name = some entry) :
    c.session.portals.lookup name = some entry := by
  change (doQuery G c.session portal).2.portals.lookup name = some entry at hlookup
  rw [execute_portals] at hlookup
  by_cases heq : name = portal.name
  · rw [heq, AList.lookup_erase] at hlookup
    cases hlookup
  · rwa [AList.lookup_erase_ne heq] at hlookup

/-- What is in the stash after a message was there before, or the message is the Describe it was stashed by. -/
theorem step_stashed {m : Message} {name : Text} {entry : CachedPortalResponse}
    (hlookup : (step G c m).session.portals.lookup name = some entry) :
    c.session.portals.lookup name = some entry ∨
      Stashes G c.session.link (step G c m).session.link name entry := by
  cases m with
  | bind portal => exact .inl hlookup
  | describePortal other =>
    cases hb : c.bound other with
    | none => exact .inl (by simpa [step, hb] using hlookup)
    | some portal =>
      rw [step, hb, Option.elim_some] at hlookup ⊢
      exact describe_stashed portal hlookup
  | execute other =>
    cases hb : c.bound other with
    | none => exact .inl (by simpa [step, hb] using hlookup)
    | some portal => exact .inl (execute_stashed portal (by simpa [step, hb] using hlookup))
  | describeStatement text =>
    have hsame := describeStatement_portals (G := G) c.session text
    refine .inl ?_
    rw [← hsame]
    exact hlookup
  | query text => exact .inl hlookup
  | poll n =>
    refine .inl ?_
    rcases pollStream_cases G c n with ⟨-, hp⟩ | ⟨rows, -, ⟨-, hp⟩ | ⟨-, hp⟩⟩
    all_goals
      rw [step, hp] at hlookup
      exact hlookup
  | drop n =>
    refine .inl ?_
    rcases dropStream_cases c n with ⟨-, hp⟩ | ⟨rows, -, ⟨-, hp⟩ | ⟨-, hp⟩⟩
    all_goals
      rw [step, hp] at hlookup
      exact hlookup

variable (hwide : ∀ requests sql, Wide (G.trino.reply requests sql))
include hwide

theorem doQuery_sound (h : StashSound c.session.portals) (portal : Portal) :
    ∀ response ∈ (doQuery G c.session portal).1.toOption.toList, Sound response := by
  by_cases hserves : Serves c.session portal.name portal.query
  · obtain ⟨entry, hlookup, hquery⟩ := hserves
    rw [doQuery_served hlookup hquery]
    intro response hresponse
    rw [List.mem_singleton.mp hresponse]
    exact h portal.name entry hlookup
  · rw [doQuery_afresh hserves]
    exact firstResponse_sound hwide c.session.link portal.query (some portal.resultColumnFormat)

theorem handed_sound (h : StashSound c.session.portals) (m : Message) : ∀ response ∈ handed G c m, Sound response := by
  intro response hresponse
  cases m with
  | execute name =>
    cases hb : c.bound name with
    | none => simp [handed, hb] at hresponse
    | some portal =>
      refine doQuery_sound hwide h portal response ?_
      simpa [handed, hb] using hresponse
  | query text => exact processQuery_sounds hwide c.session.link text none response hresponse
  | bind portal | describePortal name | describeStatement text | poll n | drop n => cases hresponse

theorem step_streams (h : ConnSound c) (m : Message) : StreamsSound (step G c m).streams := by
  intro n rows hlive
  rcases step_live hlive with hold | ⟨earlier, hold, rfl⟩ | ⟨hrows, -⟩
  · exact h.streams n rows hold
  · exact (h.streams n earlier hold).poll.1
  · exact forwarded_sound (handed_sound hwide h.stash m) rows hrows

theorem step_sound (h : ConnSound c) (m : Message) : ConnSound (step G c m) := by
  refine ⟨fun name entry hlookup => ?_, step_streams hwide h m⟩
  rcases step_stashed hlookup with hold | ⟨portal, rest, -, -, hr⟩
  · exact h.stash name entry hold
  · have hsounds := processQuery_sounds hwide c.session.link portal.query (some portal.resultColumnFormat)
    rw [hr] at hsounds
    exact hsounds entry.response List.mem_cons_self

theorem run_sound (ms : List Message) : ConnSound (run (step G) .fresh ms) := by
  refine run_invariant (fun c m h => step_sound hwide h m) ⟨fun name entry h => ?_, fun n rows h => ?_⟩
  · cases h
  · cases h

end steps

/-! ## What was announced -/

/-- In the run the rows of the `n`-th statement were handed over with this schema. -/
def Announced (G : Gateway) (ms : List Message) (n : ℕ) (schema : Schema) : Prop :=
  ∃ earlier m later rows, ms = earlier ++ m :: later ∧
    .query schema (.trino rows) ∈ handed G (run (step G) .fresh earlier) m ∧ rows.number = n

theorem Announced.later {G : Gateway} {ms : List Message} {n : ℕ} {schema : Schema} (h : Announced G ms n schema)
    (m : Message) : Announced G (ms ++ [m]) n schema := by
  obtain ⟨earlier, first, later, rows, rfl, hmem, hnumber⟩ := h
  exact ⟨earlier, first, later ++ [m], rows, by simp, hmem, hnumber⟩

/-- The schema a stream encodes its rows with is the one it was announced with. -/
theorem run_announced {G : Gateway} (hwide : ∀ requests sql, Wide (G.trino.reply requests sql)) (ms : List Message) :
    ∀ n rows, (run (step G) .fresh ms).streams n = some rows → Announced G ms n rows.stream.schema := by
  induction ms using List.reverseRecOn with
  | nil =>
    intro n rows hlive
    cases hlive
  | append_singleton ms m ih =>
    intro n rows hlive
    rw [run_append, run_cons, run_nil] at hlive
    rcases step_live hlive with hold | ⟨earlier, hold, rfl⟩ | ⟨hrows, hnumber⟩
    · exact (ih n rows hold).later m
    · have hsame := (poll_takes (X := G.crates) earlier.stream).2.2
      show Announced G (ms ++ [m]) n (earlier.stream.poll G.crates).2.schema
      rw [hsame]
      exact (ih n earlier hold).later m
    · obtain ⟨response, hmem, hresponse⟩ := List.mem_filterMap.mp hrows
      have hsound := handed_sound hwide (run_sound hwide ms).stash m response hmem
      unfold Response.trinoRows? at hresponse
      split at hresponse
      · cases hresponse
        rw [hsound.1]
        exact ⟨ms, m, [], rows, rfl, hmem, hnumber⟩
      · cases hresponse

/-- Every row that is pulled from a stream is framed by the schema of the stream, which is the one that was
    announced. -/
theorem rows_framed (G : Gateway) (hwide : ∀ requests sql, Wide (G.trino.reply requests sql)) (ms : List Message)
    (n : ℕ) (rows : TrinoRows) (hlive : (run (step G) .fresh ms).streams n = some rows) (row : DataRow)
    (hpoll : (rows.stream.poll G.crates).1 = some (.ok row)) :
    Announced G ms n rows.stream.schema ∧ Framed rows.stream.schema row :=
  ⟨run_announced hwide ms n rows hlive, ((run_sound hwide ms).streams n rows hlive).poll.2 row hpoll⟩

theorem rowTrino_wide (requests : List Request) (sql : Text) :
    Wide ((splitting Cancel.rowTrino).trino.reply requests sql) := by
  intro columns hcolumns row hrow
  obtain rfl : [⟨"x".toList, "integer".toList⟩] = columns := Option.some.inj hcolumns
  have hvalues : row = [.null] := List.mem_singleton.mp hrow
  rw [hvalues]
  exact le_refl 1

def twoSelectsBatch : List Message := [.query "SELECT a;SELECT b".toList]

/-- The second statement of a batch is pulled first. -/
theorem rows_framed_second : ∃ rows row,
    (run (step (splitting Cancel.rowTrino)) .fresh twoSelectsBatch).streams 1 = some rows ∧
      (rows.stream.poll plainCrates).1 = some (.ok row) ∧
      Announced (splitting Cancel.rowTrino) twoSelectsBatch 1 rows.stream.schema ∧ Framed rows.stream.schema row := by
  have hpoll : (((run (step (splitting Cancel.rowTrino)) .fresh twoSelectsBatch).streams 1).bind fun rows =>
      (rows.stream.poll plainCrates).1) = some (.ok [.null]) := by decide +kernel
  obtain ⟨rows, hlive, hrow⟩ := Option.bind_eq_some_iff.mp hpoll
  have hframed := rows_framed (splitting Cancel.rowTrino) rowTrino_wide twoSelectsBatch 1 rows hlive [.null] hrow
  exact ⟨rows, [.null], hlive, hrow, hframed⟩

-- A row with too few values is sent with too few fields.
example : encodeRow plainCrates [.null] [⟨"x".toList, "integer".toList⟩, ⟨"y".toList, "integer".toList⟩]
    (buildPgSchema plainCrates [⟨"x".toList, "integer".toList⟩, ⟨"y".toList, "integer".toList⟩] none) =
      .ok [.null] := by
  decide +kernel

end TrinoGateway.Framing
