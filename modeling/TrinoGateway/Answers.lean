/-
  TrinoGateway.Answers — what the answers the gateway builds itself say (`src/intercept.rs`,
  `src/catalog/`, `src/startup.rs`). Their rows are strings, whatever type a column is
  announced with, and a client reads each one as a value of that type.

  Proved:
  - `answers_readable`: every cell of every such answer is text that the column's type
    takes, in any batch and whatever Trino has for the tables of `pg_class` and
    `pg_attribute`, as long as the positions of columns are in the range of `int2`;
  - `namespace_listed_iff`: of the schemas of the tables in `pg_class` only `public` is in
    `pg_namespace`, the OIDs of the others are in no row of it;
  - `show_announced`: `SHOW` and a space and the name of a parameter that was announced at
    startup, in any letter case, with blanks around the name and in front and one run of
    semicolons behind, gives the value that was announced, as `current_setting` does where it
    gives one. Other layouts do not: after a tab the name is not looked for, and a second run
    of semicolons becomes part of it.
-/

import TrinoGateway.Framing
import TrinoGateway.Oids

namespace TrinoGateway.Answers

open TrinoGateway.Lib
open TrinoGateway.Types
open TrinoGateway.Catalog
open TrinoGateway.Intercept
open TrinoGateway.Pipeline
open TrinoGateway.Connection
open TrinoGateway.Framing (Own intercepted_own forall_runs)

/-! ## Cells -/

/-- PostgreSQL's input of the type takes the text; the other types are in no answer of the gateway's own. -/
def takes : PgType → Text → Bool
  | .int2, s => (readInt s).any fun k => decide (-2 ^ 15 ≤ k ∧ k < 2 ^ 15)
  | .int4, s => (readInt s).any fun k => decide (-2 ^ 31 ≤ k ∧ k < 2 ^ 31)
  | .bool, s => ["t".toList, "f".toList, "true".toList, "false".toList].contains s
  | .varchar, _ => true
  | _, _ => false

def readable (field : FieldInfo) : Payload → Bool
  | .null => true
  | .text s => field.format == .text && takes field.datatype s
  | .bytes _ => false

/-- Every cell is text its column takes. -/
def Readable (schema : Schema) (row : DataRow) : Prop :=
  List.Forall₂ (fun field cell => readable field cell = true) schema row

/-- Every row of an answer the gateway built is readable. -/
def ReadableAnswer : Response → Prop
  | .query schema (.static rows) => ∀ row ∈ rows, Readable schema row
  | _ => True

def ReadableAnswers (result : PgWireResult (List Response)) : Prop :=
  ∀ response ∈ result.toOption.getD [], ReadableAnswer response

theorem takes_int4 {n : ℕ} (h : n < 2 ^ 31) : takes .int4 (natText n) = true := by
  have hread : readInt (natText n) = some (n : ℤ) := by rw [natText_eq_intText, readInt_intText]
  have hrange : -2 ^ 31 ≤ (n : ℤ) ∧ (n : ℤ) < 2 ^ 31 := by omega
  show (readInt (natText n)).any _ = true
  rw [hread, Option.any_some]
  exact decide_eq_true hrange

theorem takes_int2 {k : ℤ} (h : -2 ^ 15 ≤ k ∧ k < 2 ^ 15) : takes .int2 (intText k) = true := by
  show (readInt (intText k)).any _ = true
  rw [readInt_intText, Option.any_some]
  exact decide_eq_true h

theorem djb2Oid_lt (parts : List Text) {base : ℕ} (hbase : base < 2 ^ 31 - 1) : djb2Oid parts base < 2 ^ 31 := by
  have hmod := Nat.mod_lt (djb2Hash parts) (show 0 < 2 ^ 31 - 1 - base by omega)
  unfold djb2Oid
  omega

theorem le_djb2Oid (parts : List Text) (base : ℕ) : base ≤ djb2Oid parts base := Nat.le_add_right _ _

theorem tableOid_lt (schemaName tableName : Text) : tableOid schemaName tableName < 2 ^ 31 :=
  djb2Oid_lt _ (by decide)

theorem namespaceOid_lt (schemaName : Text) : namespaceOid schemaName < 2 ^ 31 := by
  unfold namespaceOid
  split_ifs
  · decide
  · exact djb2Oid_lt _ (by decide)

theorem pgTypeOid_lt (ty : PgType) : pgTypeOid ty < 2 ^ 31 := by cases ty <;> decide

/-! ## Answers -/

/-- The position of a column, as `pg_attribute` has it. -/
def attnum (values : List Value) : ℤ := (values[3]?.bind ordinalPosition).getD 0

/-- One response with a result of the gateway's own. -/
theorem readable_static {schema : Schema} {rows : List DataRow} (h : ∀ row ∈ rows, Readable schema row) :
    ReadableAnswers (.ok [.query schema (.static rows)]) := by
  intro response hresponse
  rw [List.mem_singleton.mp hresponse]
  exact h

theorem buildResponse_readable {schema : Schema} {rows : List (List (Option Text))}
    (h : ∀ cells ∈ rows, Readable schema (cells.map optionText)) : ReadableAnswers (buildResponse schema rows) := by
  refine readable_static fun row hrow => ?_
  obtain ⟨cells, hcells, rfl⟩ := List.mem_map.mp hrow
  exact h cells hcells

theorem entryToRow_readable {e : TypeEntry} (hoid : e.oid < 2 ^ 31) (helem : e.elemtypoid < 2 ^ 31) :
    Readable typeSchema ((entryToRow e).map optionText) := by
  have hord : takes .int4 e.ord.toList = true := by
    unfold TypeEntry.ord
    split <;> decide
  exact .cons rfl (.cons rfl (.cons (takes_int4 hoid) (.cons (by decide) (.cons (by decide) (.cons rfl
    (.cons (takes_int4 helem) (.cons hord .nil)))))))

theorem pgClassRow_readable (X : Crates) (values : List Value) :
    Readable [textField "oid" .int4, textField "relname" .varchar, textField "relnamespace" .int4,
      textField "relkind" .varchar] ((pgClassRow X values).map optionText) :=
  .cons (takes_int4 (tableOid_lt _ _)) (.cons rfl (.cons (takes_int4 (namespaceOid_lt _)) (.cons rfl .nil)))

theorem pgAttributeRow_readable (X : Crates) {values : List Value}
    (h : -2 ^ 15 ≤ attnum values ∧ attnum values < 2 ^ 15) :
    Readable [textField "attrelid" .int4, textField "attname" .varchar, textField "atttypid" .int4,
      textField "attnum" .int2, textField "attnotnull" .bool, textField "attisdropped" .bool]
      ((pgAttributeRow X values).map optionText) := by
  have hnotnull : takes .bool (if jsonStr values 4 "YES" = "NO".toList then "true" else "false").toList = true := by
    split_ifs <;> decide
  exact .cons (takes_int4 (tableOid_lt _ _)) (.cons rfl (.cons (takes_int4 (pgTypeOid_lt _))
    (.cons (takes_int2 h) (.cons hnotnull (.cons (by decide) .nil)))))

theorem types_oids : ∀ e ∈ baseTypeEntries ++ pseudoTypeEntries ++ arrayTypeEntries,
    e.oid < 2 ^ 31 ∧ e.elemtypoid < 2 ^ 31 := by
  decide

theorem own_readable {result : PgWireResult (List Response)} (h : Own result) : ReadableAnswers result := by
  cases h with
  | executed tag =>
    intro response hresponse
    rw [List.mem_singleton.mp hresponse]
    trivial
  | text columnName value =>
    refine readable_static fun row hrow => ?_
    rw [List.mem_singleton.mp hrow]
    exact .cons rfl .nil
  | bool columnName value =>
    refine readable_static fun row hrow => ?_
    rw [List.mem_singleton.mp hrow]
    cases value <;> exact .cons rfl .nil
  | missing query => exact readable_static fun row hrow => by cases hrow
  | compositeFields | enumLabels | ranges => exact buildResponse_readable fun cells hcells => by cases hcells
  | namespaces =>
    have hrow : ∀ oid nspname : String, takes .int4 oid.toList = true →
        Readable [textField "oid" .int4, textField "nspname" .varchar]
          ([some oid.toList, some nspname.toList].map optionText) :=
      fun oid nspname hoid => .cons hoid (.cons rfl .nil)
    refine buildResponse_readable fun cells hcells => ?_
    simp only [List.mem_cons, List.not_mem_nil, or_false] at hcells
    rcases hcells with rfl | rfl | rfl
    · exact hrow "11" "pg_catalog" (by decide)
    · exact hrow "2200" "public" (by decide)
    · exact hrow "13171" "information_schema" (by decide)
  | types =>
    refine buildResponse_readable fun cells hcells => ?_
    obtain ⟨e, he, rfl⟩ := List.mem_map.mp hcells
    exact entryToRow_readable (types_oids e he).1 (types_oids e he).2

/-- The positions of columns that Trino reports are in the range of `int2`. -/
def ShortTables (trino : Trino) : Prop :=
  ∀ requests rows, trino.getAll requests pgAttributeSql = .ok rows → ∀ values ∈ rows,
    -2 ^ 15 ≤ attnum values ∧ attnum values < 2 ^ 15

theorem respond_readable {G : Gateway} (h : ShortTables G.trino) (requests : List Request) (table : DynamicTable) :
    ReadableAnswers (table.respond G.crates (G.trino.getAll requests table.sql)) := by
  cases hdataset : G.trino.getAll requests table.sql with
  | error e =>
    cases table
    all_goals
      intro response hresponse
      cases hresponse
  | ok rows =>
    cases table with
    | pgClass =>
      refine buildResponse_readable fun cells hcells => ?_
      obtain ⟨values, -, rfl⟩ := List.mem_map.mp hcells
      exact pgClassRow_readable G.crates values
    | pgAttribute =>
      refine buildResponse_readable fun cells hcells => ?_
      obtain ⟨values, hvalues, rfl⟩ := List.mem_map.mp hcells
      exact pgAttributeRow_readable G.crates (h requests rows hdataset values hvalues)

theorem submit_readable (G : Gateway) (l : Link) (sql : Text) (resultFormat : Option Format) :
    ReadableAnswers (submit G l sql resultFormat).1 := by
  have hspec := submit_spec G l sql resultFormat
  generalize submit G l sql resultFormat = out at hspec
  cases hspec with
  | refused info slot =>
    intro response hresponse
    cases hresponse
  | executed slot =>
    intro response hresponse
    rw [List.mem_singleton.mp hresponse]
    trivial
  | forwarded hforwards =>
    intro response hresponse
    rw [List.mem_singleton.mp hresponse]
    cases hforwards
    trivial

theorem single_readable {G : Gateway} (h : ShortTables G.trino) (l : Link) (stmt : Text)
    (resultFormat : Option Format) :
    ReadableAnswers (processSingleStatement G l stmt resultFormat).1 := by
  unfold processSingleStatement
  cases hintercepted : intercepted G stmt with
  | some result => exact own_readable (intercepted_own hintercepted)
  | none =>
    cases hdynamic : dynamicTable (parse G stmt) with
    | some table => exact respond_readable h l.requests table
    | none => exact submit_readable G l _ resultFormat

/-- Every cell of every answer of the gateway's own is text that its column takes. -/
theorem answers_readable (G : Gateway) (hshort : ShortTables G.trino) (l : Link) (query : Text)
    (resultFormat : Option Format) (schema : Schema) (rows : List DataRow)
    (hmem : .query schema (.static rows) ∈ (processQuery G l query resultFormat).1.toOption.getD []) :
    ∀ row ∈ rows, Readable schema row :=
  (forall_runs fun _ => trivial).processQuery (fun l stmt => single_readable hshort l stmt resultFormat) l query _ hmem

/-- A table with one column, at position 1. -/
def oneColumnTrino : Trino where
  reply _ _ := .failed "no statements".toList
  getAll _ _ := .ok [Oids.infoRow ["sales", "users", "id", "1", "NO", "bigint"]]

theorem oneColumnTrino_short : ShortTables oneColumnTrino := by
  intro requests rows hrows values hvalues
  cases hrows
  rw [List.mem_singleton.mp hvalues]
  decide +kernel

def columnNames : Text := "SELECT attname FROM pg_attribute".toList

/-- The gateway knows one query. -/
def attributeGateway : Gateway where
  crates := plainCrates
  parser :=
    { parseSql := fun sql => if sql = columnNames then some [.query (selectFrom "attname" "pg_attribute")] else none
      toString := fun _ => columnNames }
  config := ⟨"memory".toList, "default".toList⟩
  trino := oneColumnTrino
  clientIsSecure := false

theorem attribute_readable : ∃ schema row,
    (processQuery attributeGateway ⟨none, []⟩ columnNames none).1 = .ok [.query schema (.static [row])] ∧
      Readable schema row := by
  have hanswer : (processQuery attributeGateway ⟨none, []⟩ columnNames none).1 =
      respondPgAttribute plainCrates (.ok [Oids.infoRow ["sales", "users", "id", "1", "NO", "bigint"]]) := by
    rfl
  refine ⟨_, _, hanswer, ?_⟩
  have hread := answers_readable attributeGateway oneColumnTrino_short ⟨none, []⟩ columnNames none _ _
    (by rw [hanswer]; exact List.mem_cons_self)
  exact hread _ List.mem_cons_self

/-! ## Schemas -/

/-- A table's schema is in `pg_namespace` if and only if it is `public`. -/
theorem namespace_listed_iff (X : Crates) (tables : List (List Value)) (i : ℕ) (values : List Value)
    (htable : tables[i]? = some values) :
    (∃ cell, (Oids.columnOf 2 (respondPgClass X (.ok tables)))[i]? = some cell ∧
      cell ∈ Oids.columnOf 0 respondPgNamespace) ↔ jsonStr values 0 "public" = "public".toList := by
  have hcolumn : (Oids.columnOf 2 (respondPgClass X (.ok tables)))[i]? =
      some (Oids.oidText (namespaceOid (jsonStr values 0 "public"))) := by
    show (Oids.columnOf 2 (buildResponse _ (tables.map (pgClassRow X))))[i]? = _
    rw [Oids.columnOf_buildResponse, List.getElem?_map, List.getElem?_map, htable]
    rfl
  have hlisted : Oids.columnOf 0 respondPgNamespace = [11, 2200, 13171].map Oids.oidText := by decide +kernel
  rw [hcolumn, hlisted]
  constructor
  · rintro ⟨cell, hcell, hmem⟩
    cases hcell
    obtain ⟨oid, hoid, heq⟩ := List.mem_map.mp hmem
    rw [Oids.oidText_inj] at heq
    by_contra hother
    -- The hashed OIDs begin above all of the listed ones.
    have hbase : baseNamespaceOid ≤ namespaceOid (jsonStr values 0 "public") := by
      unfold namespaceOid
      rw [if_neg hother]
      exact le_djb2Oid _ _
    have hsmall : ∀ n ∈ [11, 2200, 13171], n < baseNamespaceOid := by decide
    have := hsmall oid hoid
    omega
  · intro hpublic
    refine ⟨_, rfl, List.mem_map.mpr ⟨2200, by decide, ?_⟩⟩
    rw [hpublic]
    rfl

theorem ax_not_listed : ¬ ∃ cell, (Oids.columnOf 2 (respondPgClass plainCrates (.ok Oids.axAndC6)))[0]? = some cell ∧
    cell ∈ Oids.columnOf 0 respondPgNamespace := by
  rw [namespace_listed_iff plainCrates Oids.axAndC6 0 _ rfl]
  decide

/-! ## SHOW -/

/-- `server_parameters`: what is announced at startup. -/
def serverParameters : AList fun _ : Text => Text :=
  serverParams.foldl (fun params kv => params.insert kv.1.toList kv.2.toList) ∅

theorem serverParameters_entries :
    serverParameters.entries = serverParams.reverse.map fun kv => ⟨kv.1.toList, kv.2.toList⟩ := by decide +kernel

theorem announced_mem {key value : Text} (h : serverParameters.lookup key = some value) :
    ∃ kv ∈ serverParams, kv.1.toList = key ∧ kv.2.toList = value := by
  have hentry := AList.mem_lookup_iff.mp h
  rw [serverParameters_entries] at hentry
  obtain ⟨kv, hkv, heq⟩ := List.mem_map.mp hentry
  cases heq
  exact ⟨kv, List.mem_reverse.mp hkv, rfl, rfl⟩

/-- No two parameters differ only in case, so the search finds the one that is asked for. -/
theorem find_announced : ∀ kv ∈ serverParams,
    (serverParams.find? fun other => decide (CaseVariant other.1.toList (kv.1.toList.map Char.toLower))) = some kv := by
  decide +kernel

theorem params_ascii : ∀ kv ∈ serverParams, kv.1.toList.all isAscii = true ∧ kv.1.toList.all (!isWhitespace ·) = true ∧
    kv.1.toList.all (· != ';') = true ∧ kv.1.toList ≠ [] := by
  decide +kernel

/-- What may stand after a statement: white space, semicolons, white space. -/
def Terminates (tail : Text) : Prop :=
  ∃ w semicolons w', tail = w ++ semicolons ++ w' ∧ Blank w ∧ Blank w' ∧ ∀ c ∈ semicolons, c = ';'

theorem rdropWhile_semicolons (s : Text) {semicolons : Text} (h : ∀ c ∈ semicolons, c = ';') :
    (s ++ semicolons).rdropWhile (· == ';') = s.rdropWhile (· == ';') := by
  induction semicolons using List.reverseRecOn with
  | nil => rw [List.append_nil]
  | append_singleton init c ih =>
    have hc : c = ';' := h c (by simp)
    rw [← List.append_assoc, List.rdropWhile_concat_pos (p := (· == ';')) _ _ (by rw [hc]; rfl)]
    exact ih fun d hd => h d (List.mem_append_left _ hd)

theorem rdropWhile_end {s : Text} {last : Text} (hne : last ≠ []) (h : ∀ c ∈ last, c ≠ ';') :
    (s ++ last).rdropWhile (· == ';') = s ++ last := by
  rw [List.rdropWhile_eq_self_iff]
  intro hnil
  rw [List.getLast_append_of_ne_nil hnil hne]
  simpa using h _ (List.getLast_mem hne)

/-- A text of words loses what stands around it. -/
theorem withoutTerminator_words {lead a m b tail : Text} (hlead : Blank lead) (ha : a ≠ []) (hb : b ≠ [])
    (hwa : ∀ c ∈ a, isWhitespace c = false) (hwb : ∀ c ∈ b, isWhitespace c = false) (hsemi : ∀ c ∈ b, c ≠ ';')
    (htail : Terminates tail) : withoutTerminator (lead ++ (a ++ m ++ b) ++ tail) = a ++ m ++ b := by
  obtain ⟨w, semicolons, w', rfl, hw, hw', hsemicolons⟩ := htail
  have hsolid : Solid (a ++ m ++ b) := solid_of_ends ha hb hwa hwb
  unfold withoutTerminator
  by_cases hnone : semicolons = []
  · have hblank : Blank (w ++ w') := fun c hc => (List.mem_append.mp hc).elim (hw c) (hw' c)
    rw [hnone, List.append_nil, trim_surrounded hlead hsolid hblank, rdropWhile_end hb hsemi, trim_solid hsolid]
  · have hsemisolid : ∀ c ∈ semicolons, isWhitespace c = false := fun c hc => by rw [hsemicolons c hc]; rfl
    have houter : Solid (a ++ (m ++ b ++ w) ++ semicolons) := solid_of_ends ha hnone hwa hsemisolid
    have hregroup : lead ++ (a ++ m ++ b) ++ (w ++ semicolons ++ w') =
        lead ++ (a ++ (m ++ b ++ w) ++ semicolons) ++ w' := by
      simp only [List.append_assoc]
    rw [hregroup, trim_surrounded hlead houter hw', rdropWhile_semicolons _ hsemicolons]
    have hlast : ∀ c ∈ b ++ w, c ≠ ';' := by
      intro c hc
      rcases List.mem_append.mp hc with hc | hc
      · exact hsemi c hc
      · intro heq
        have hwhite := hw c hc
        rw [heq] at hwhite
        cases hwhite
    have hinner : a ++ (m ++ b ++ w) = a ++ m ++ (b ++ w) := by simp only [List.append_assoc]
    rw [hinner, rdropWhile_end (by simp [hb]) hlast, ← List.append_assoc (a ++ m) b w]
    have hkeep := trim_surrounded (w := []) (fun c hc => by cases hc) hsolid hw
    rwa [List.nil_append] at hkeep

theorem dropBytes_ascii {s : Text} (h : ∀ c ∈ s, isAscii c = true) (t : Text) : dropBytes s.length (s ++ t) = t := by
  induction s with
  | nil => rw [List.length_nil, List.nil_append, dropBytes]
  | cons c s ih =>
    obtain ⟨hc, hs⟩ := List.forall_mem_cons.mp h
    have hsize : ∀ c, isAscii c = true → c.utf8Size = 1 := ascii_cases (by decide)
    rw [List.length_cons, List.cons_append, dropBytes, hsize c hc, Nat.add_sub_cancel]
    exact ih hs

theorem toUppercase_word {U : UnicodeCase} {s : Text} (h : ∀ c ∈ s, isAscii c = true) (t : Text) :
    toUppercase U (s ++ t) = s.map Char.toUpper ++ toUppercase U t := by
  induction s with
  | nil => rfl
  | cons c s ih =>
    obtain ⟨hc, hs⟩ := List.forall_mem_cons.mp h
    rw [List.cons_append, toUppercase_cons, if_pos hc, ih hs]
    rfl

theorem CaseVariant.upper {s t : Text} (h : CaseVariant s t) : s.map Char.toUpper = t.map Char.toUpper := by
  have hascii : ∀ c, isAscii c = true → c.toLower.toUpper = c.toUpper := ascii_cases (by decide)
  have hupper : ∀ c : Char, c.toLower.toUpper = c.toUpper := by
    intro c
    cases hc : isAscii c with
    | true => exact hascii c hc
    | false => rw [toLower_of_not_ascii hc]
  have hmap := congrArg (List.map Char.toUpper) h
  rw [List.map_map, List.map_map] at hmap
  calc s.map Char.toUpper = s.map (Char.toUpper ∘ Char.toLower) := List.map_congr_left fun c _ => (hupper c).symm
    _ = t.map (Char.toUpper ∘ Char.toLower) := hmap
    _ = t.map Char.toUpper := List.map_congr_left fun c _ => hupper c

/-- A text that starts with the word is answered by `intercept_show`. -/
theorem sessionCommand_show {X : Crates} {trimmed rest : Text}
    (h : toUppercase X.unicode trimmed = "SHOW ".toList ++ rest) :
    sessionCommand X trimmed = some (interceptShow X trimmed) := by
  unfold sessionCommand
  simp [h]

section show_

variable {X : Crates} {key value name word gap : Text}

theorem show_ascii (hword : CaseVariant word "SHOW".toList) : ∀ c ∈ word, isAscii c = true :=
  hword.forall_mem (by decide) (List.all_eq_true.mp rfl)

theorem interceptShow_announced (hannounced : serverParameters.lookup key = some value) (hname : CaseVariant name key)
    (hword : CaseVariant word "SHOW".toList) (hgap : Blank gap) :
    interceptShow X (word ++ ' ' :: gap ++ name) = singleTextResponse (key.map Char.toLower) value := by
  obtain ⟨kv, hkv, rfl, rfl⟩ := announced_mem hannounced
  obtain ⟨hascii, hsolid, -, -⟩ := params_ascii kv hkv
  have hwordascii : ∀ c ∈ word, isAscii c = true := show_ascii hword
  have hlength : word.length = 4 := by simpa using congrArg List.length hword
  have hdrop : dropBytes 4 (word ++ ' ' :: gap ++ name) = ' ' :: gap ++ name := by
    have h := dropBytes_ascii hwordascii (' ' :: gap ++ name)
    rwa [hlength, ← List.append_assoc] at h
  have hblank : Blank (' ' :: gap) := by
    intro c hc
    rcases List.mem_cons.mp hc with rfl | hc
    · rfl
    · exact hgap c hc
  have hnamesolid : ∀ c ∈ name, isWhitespace c = false := by
    intro c hc
    simpa using hname.forall_mem (f := fun c => !isWhitespace c) (by decide) (List.all_eq_true.mp hsolid) c hc
  have htrim : trim (' ' :: gap ++ name) = name := by
    unfold trim
    rw [trimStart_blank hblank]
    exact trim_of_no_whitespace hnamesolid
  have hlower : toLowercase X.unicode name = kv.1.toList.map Char.toLower :=
    (toLowercase_lowersTo X.unicode name).variant hname hascii
  unfold interceptShow
  rw [hdrop, htrim, hlower]
  dsimp only
  rw [find_announced kv hkv]
  rfl

end show_

/-- `SHOW` of an announced parameter gives the announced value, and so does `current_setting`. -/
theorem show_announced (X : Crates) (parsedQuery : Sql.ParsedQuery) (config : Config) (clientIsSecure : Bool)
    {key value : Text} (hannounced : serverParameters.lookup key = some value) {lead word gap name tail : Text}
    (hlead : Blank lead) (hword : CaseVariant word "SHOW".toList) (hgap : Blank gap) (hname : CaseVariant name key)
    (htail : Terminates tail) :
    tryIntercept X (lead ++ (word ++ ' ' :: gap ++ name) ++ tail) parsedQuery config clientIsSecure =
        some (singleTextResponse (key.map Char.toLower) value) ∧
      ∀ setting, currentSetting key = some setting → setting.toList = value := by
  obtain ⟨kv, hkv, hkey, hvalue⟩ := announced_mem hannounced
  obtain ⟨-, hsolid, hsemi, hne⟩ := params_ascii kv hkv
  rw [hkey] at hsolid hsemi hne
  have hwordsolid : ∀ c ∈ word, isWhitespace c = false := by
    intro c hc
    simpa using hword.forall_mem (f := fun c => !isWhitespace c) (by decide) (List.all_eq_true.mp rfl) c hc
  have hnamesolid : ∀ c ∈ name, isWhitespace c = false := by
    intro c hc
    simpa using hname.forall_mem (f := fun c => !isWhitespace c) (by decide) (List.all_eq_true.mp hsolid) c hc
  have hnamesemi : ∀ c ∈ name, c ≠ ';' := by
    intro c hc
    simpa using hname.forall_mem (f := fun c => c != ';') (by decide) (List.all_eq_true.mp hsemi) c hc
  have hbody : withoutTerminator (lead ++ (word ++ ' ' :: gap ++ name) ++ tail) = word ++ ' ' :: gap ++ name :=
    withoutTerminator_words hlead (hword.ne_nil (by decide)) (hname.ne_nil hne) hwordsolid hnamesolid hnamesemi htail
  have hupper : toUppercase X.unicode (word ++ ' ' :: gap ++ name) =
      "SHOW ".toList ++ toUppercase X.unicode (gap ++ name) := by
    rw [List.append_assoc, toUppercase_word (show_ascii hword), CaseVariant.upper hword,
      List.cons_append, toUppercase_cons]
    rfl
  refine ⟨?_, fun setting hsetting => ?_⟩
  · have hnonempty : (trim (lead ++ (word ++ ' ' :: gap ++ name) ++ tail)).isEmpty = false := by
      by_contra hempty
      rw [Bool.not_eq_false, List.isEmpty_iff] at hempty
      unfold withoutTerminator at hbody
      rw [hempty] at hbody
      exact hword.ne_nil (by decide) (List.append_eq_nil_iff.mp (List.append_eq_nil_iff.mp hbody.symm).1).1
    unfold tryIntercept
    rw [hnonempty, hbody, sessionCommand_show hupper, interceptShow_announced hannounced hname hword hgap]
    rfl
  · unfold currentSetting at hsetting
    split_ifs at hsetting with hnum hversion
    · cases hsetting
      rw [hnum] at hannounced
      exact Option.some.inj (Eq.trans (by decide +kernel) hannounced)
    · cases hsetting
      rw [hversion] at hannounced
      exact Option.some.inj (Eq.trans (by decide +kernel) hannounced)

theorem show_datestyle :
    tryIntercept plainCrates " show  DATESTYLE ;".toList ⟨none⟩ ⟨"memory".toList, "default".toList⟩ false =
      some (singleTextResponse "datestyle".toList "ISO, MDY".toList) := by
  have hannounced : serverParameters.lookup "DateStyle".toList = some "ISO, MDY".toList := by decide +kernel
  have hblank : Blank [' '] := by simp [Blank, isWhitespace]
  have htail : Terminates " ;".toList := ⟨[' '], [';'], [], rfl, hblank, List.forall_mem_nil _, by simp⟩
  have hword : CaseVariant "show".toList "SHOW".toList := by decide
  have hname : CaseVariant "DATESTYLE".toList "DateStyle".toList := by decide
  exact (show_announced plainCrates ⟨none⟩ ⟨"memory".toList, "default".toList⟩ false hannounced hblank hword hblank
    hname htail).1

example : (tryIntercept plainCrates "SHOW\tDateStyle".toList ⟨none⟩ ⟨"memory".toList, "default".toList⟩ false).isNone =
    true := by
  decide +kernel

example : tryIntercept plainCrates "SHOW DateStyle; ;".toList ⟨none⟩ ⟨"memory".toList, "default".toList⟩ false =
    some (singleTextResponse "datestyle;".toList "on".toList) := by
  rfl

end TrinoGateway.Answers
