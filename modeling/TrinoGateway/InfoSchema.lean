/-
  TrinoGateway.InfoSchema — the `CASE` that `rewrite_info_schema_columns` splices into a
  query (`src/info_schema.rs`), run as Trino runs it, against the type map of
  `src/types.rs`: do `information_schema.columns` and the columns of a result agree on
  the name of a type?

  The expression is a list of tests on the lower-cased type text with the name each one
  yields (`typeMapping_eq`: printed, it is the spliced text). Trino's `lower` maps each
  character on its own; outside ASCII it is a parameter.

  Proved: `case_agrees_iff`. On a scalar the first test that holds yields the right name.
  An array, a map or a row is taken for a scalar exactly if `time` and, somewhere after it,
  `with time zone` stand in its text, whatever they belong to: `LIKE '%time%with time zone%'`
  looks at the whole text.
-/

import TrinoGateway.Intercept
import TrinoGateway.Lib.Like
import TrinoGateway.Lib.Numeral

namespace TrinoGateway.InfoSchema

open TrinoGateway.Lib
open TrinoGateway.Types
open TrinoGateway.Intercept

/-! ## The expression -/

/-- A test on `lower(data_type)`. -/
inductive Test where
  | equals (value : String)
  | like (pattern : String)
  deriving DecidableEq, Repr

structure Arm where
  test : Test
  name : String
  deriving DecidableEq, Repr

def typeArms : List Arm :=
  [⟨.equals "double", "double precision"⟩,
   ⟨.like "varchar%", "character varying"⟩,
   ⟨.like "char(%", "character"⟩,
   ⟨.like "%timestamp%with time zone%", "timestamp with time zone"⟩,
   ⟨.like "timestamp%", "timestamp without time zone"⟩,
   ⟨.like "%time%with time zone%", "time with time zone"⟩,
   ⟨.like "time%", "time without time zone"⟩,
   ⟨.like "decimal%", "numeric"⟩,
   ⟨.equals "varbinary", "bytea"⟩]

def Test.sql : Test → String
  | .equals value => "= '" ++ value ++ "'"
  | .like pattern => "LIKE '" ++ pattern ++ "'"

def Arm.sql (arm : Arm) : String := "WHEN lower(data_type) " ++ arm.test.sql ++ " THEN '" ++ arm.name ++ "' "

def caseSql (arms : List Arm) : String := "CASE " ++ arms.foldr (fun arm rest => arm.sql ++ rest) "ELSE data_type END"

theorem typeMapping_eq : typeMapping = (caseSql typeArms).toList := by
  have hfirst : "CASE WHEN lower(data_type) = 'double' THEN 'double precision' " =
      "CASE " ++ "WHEN lower(data_type) = 'double' THEN 'double precision' " := rfl
  have hlast : "WHEN lower(data_type) = 'varbinary' THEN 'bytea' ELSE data_type END" =
      "WHEN lower(data_type) = 'varbinary' THEN 'bytea' " ++ "ELSE data_type END" := rfl
  unfold typeMapping
  rw [hfirst, hlast]
  simp only [String.append_assoc]
  rfl

/-- Trino's `lower`, character by character. -/
structure SqlLower where
  lower : Char → Char
  ascii : ∀ c, isAscii c = true → lower c = c.toLower

def Test.holds : Test → Text → Bool
  | .equals value, s => s == value.toList
  | .like pattern, s => Lib.like pattern.toList s

variable (V : SqlLower)

/-- The name of the first arm whose test holds; `none` for the `ELSE` branch. -/
def evalCase (dataType : Text) : Option String :=
  (typeArms.find? fun arm => arm.test.holds (dataType.map V.lower)).map Arm.name

/-- PostgreSQL's name of a type. -/
def sqlName : PgType → String
  | .bool => "boolean"
  | .int2 => "smallint"
  | .int4 => "integer"
  | .int8 => "bigint"
  | .float4 => "real"
  | .float8 => "double precision"
  | .numeric => "numeric"
  | .varchar => "character varying"
  | .bpchar => "character"
  | .bytea => "bytea"
  | .date => "date"
  | .time => "time without time zone"
  | .timetz => "time with time zone"
  | .timestamp => "timestamp without time zone"
  | .timestamptz => "timestamp with time zone"
  | .interval => "interval"
  | .jsonb => "jsonb"
  | .uuid => "uuid"
  | .inet => "inet"
  | .text => "text"
  | .name => "name"
  | .unknown => "unknown"
  | .boolArray => "boolean[]"
  | .int2Array => "smallint[]"
  | .int4Array => "integer[]"
  | .int8Array => "bigint[]"
  | .float4Array => "real[]"
  | .float8Array => "double precision[]"
  | .numericArray => "numeric[]"
  | .varcharArray => "character varying[]"
  | .bpcharArray => "character[]"
  | .byteaArray => "bytea[]"
  | .dateArray => "date[]"
  | .timeArray => "time without time zone[]"
  | .timetzArray => "time with time zone[]"
  | .timestampArray => "timestamp without time zone[]"
  | .timestamptzArray => "timestamp with time zone[]"
  | .intervalArray => "interval[]"
  | .jsonbArray => "jsonb[]"
  | .uuidArray => "uuid[]"
  | .inetArray => "inet[]"
  | .textArray => "text[]"

/-! ## What a text must have for a test to hold -/

/-- The beginning a test asks for. -/
def Test.begins : Test → Text
  | .equals value => value.toList
  | .like pattern => stem pattern.toList

/-- The characters a test asks for. -/
def Test.chars : Test → Text
  | .equals value => value.toList
  | .like pattern => pattern.toList.filter fun c => !isWildcard c

theorem Test.begins_of_holds {t : Test} {s : Text} (h : t.holds s = true) : t.begins <+: s := by
  cases t with
  | equals value =>
    rw [Test.holds, beq_iff_eq] at h
    rw [h]
    exact List.prefix_refl _
  | like pattern => exact stem_of_like h

theorem Test.chars_of_holds {t : Test} {s : Text} (h : t.holds s = true) {c : Char} (hc : c ∈ t.chars) : c ∈ s := by
  cases t with
  | equals value =>
    rw [Test.holds, beq_iff_eq] at h
    rw [h]
    exact hc
  | like pattern =>
    obtain ⟨hmem, hlit⟩ := List.mem_filter.mp hc
    exact mem_of_like h hmem (by simpa using hlit)

/-- `time` stands in the text, and `with time zone` after it. -/
def NamesZonedTime (s : Text) : Prop := ∃ x y z, s = x ++ "time".toList ++ y ++ "with time zone".toList ++ z

/-- The text is, or begins like, that of a scalar the expression knows. -/
def BeginsAsScalar (s : Text) : Prop :=
  s = "double".toList ∨ s = "varbinary".toList ∨
  ∃ word ∈ ["varchar".toList, "char(".toList, "time".toList, "decimal".toList], word <+: s

theorem holds_zonedTime {s : Text} :
    (Test.like "%time%with time zone%").holds s = true ↔ NamesZonedTime s :=
  like_contains (a := "time".toList) (b := "with time zone".toList) rfl rfl

theorem holds_zonedTimestamp {s : Text} :
    (Test.like "%timestamp%with time zone%").holds s = true ↔
      ∃ x y z, s = x ++ "timestamp".toList ++ y ++ "with time zone".toList ++ z :=
  like_contains (a := "timestamp".toList) (b := "with time zone".toList) rfl rfl

theorem zonedTime_of_zonedTimestamp {s : Text} (h : (Test.like "%timestamp%with time zone%").holds s = true) :
    NamesZonedTime s := by
  obtain ⟨x, y, z, rfl⟩ := holds_zonedTimestamp.mp h
  refine ⟨x, "stamp".toList ++ y, z, ?_⟩
  have hword : "timestamp".toList = "time".toList ++ "stamp".toList := by decide
  simp only [hword, List.append_assoc]

/-- Some test holds exactly if the text begins like a scalar or names a time with a zone. -/
theorem holds_some_iff {s : Text} :
    (∃ arm ∈ typeArms, arm.test.holds s = true) ↔ BeginsAsScalar s ∨ NamesZonedTime s := by
  have starts : ∀ word : Text, isLiteral word = true → (Lib.like (word ++ ['%']) s = true ↔ word <+: s) :=
    fun word hword => like_starts hword
  constructor
  · rintro ⟨arm, harm, h⟩
    simp only [typeArms, List.mem_cons, List.not_mem_nil, or_false] at harm
    rcases harm with rfl | rfl | rfl | rfl | rfl | rfl | rfl | rfl | rfl
    · exact Or.inl (Or.inl (beq_iff_eq.mp h))
    · exact Or.inl (Or.inr (Or.inr ⟨_, by simp, (starts "varchar".toList rfl).mp h⟩))
    · exact Or.inl (Or.inr (Or.inr ⟨_, by simp, (starts "char(".toList rfl).mp h⟩))
    · exact Or.inr (zonedTime_of_zonedTimestamp h)
    · have htimestamp := (starts "timestamp".toList rfl).mp h
      have htime : "time".toList <+: "timestamp".toList := by decide
      exact Or.inl (Or.inr (Or.inr ⟨_, by simp, htime.trans htimestamp⟩))
    · exact Or.inr (holds_zonedTime.mp h)
    · exact Or.inl (Or.inr (Or.inr ⟨_, by simp, (starts "time".toList rfl).mp h⟩))
    · exact Or.inl (Or.inr (Or.inr ⟨_, by simp, (starts "decimal".toList rfl).mp h⟩))
    · exact Or.inl (Or.inr (Or.inl (beq_iff_eq.mp h)))
  · rintro ((rfl | rfl | ⟨word, hword, h⟩) | h)
    · exact ⟨⟨.equals "double", "double precision"⟩, by decide, by decide⟩
    · exact ⟨⟨.equals "varbinary", "bytea"⟩, by decide, by decide⟩
    · simp only [List.mem_cons, List.not_mem_nil, or_false] at hword
      rcases hword with rfl | rfl | rfl | rfl
      · exact ⟨⟨.like "varchar%", "character varying"⟩, by decide, (starts _ rfl).mpr h⟩
      · exact ⟨⟨.like "char(%", "character"⟩, by decide, (starts _ rfl).mpr h⟩
      · exact ⟨⟨.like "time%", "time without time zone"⟩, by decide, (starts _ rfl).mpr h⟩
      · exact ⟨⟨.like "decimal%", "numeric"⟩, by decide, (starts _ rfl).mpr h⟩
    · exact ⟨⟨.like "%time%with time zone%", "time with time zone"⟩, by decide, holds_zonedTime.mpr h⟩

/-! ## Scalars -/

/-- A character of a parameter list. -/
def isParam (c : Char) : Bool := c.isDigit || c == ',' || c == '(' || c == ')'

theorem isParam_of_paramsText (ps : Option (List ℕ)) : ∀ c ∈ paramsText ps, isParam c = true := by
  intro c hc
  cases ps with
  | none => cases hc
  | some ns =>
    simp only [paramsText, List.cons_append, List.mem_cons, List.mem_append, List.not_mem_nil, or_false] at hc
    rcases hc with rfl | hc | rfl
    · rfl
    · rcases mem_intercalate _ hc with rfl | ⟨t, ht, hct⟩
      · rfl
      · obtain ⟨n, -, rfl⟩ := List.mem_map.mp ht
        simp [isParam, natText_isDigit (n := n) hct]
    · rfl

theorem lower_param {c : Char} (hc : isParam c = true) : V.lower c = c := by
  have hascii : isAscii c = true := by
    simp only [isParam, Bool.or_eq_true, beq_iff_eq] at hc
    rcases hc with ((hdigit | rfl) | rfl) | rfl
    · simp only [Char.isDigit, Bool.and_eq_true, decide_eq_true_eq] at hdigit
      have : c.toNat ≤ 57 := hdigit.2
      simp only [isAscii, decide_eq_true_eq]
      omega
    · rfl
    · rfl
    · rfl
  have hlower : ∀ c, isAscii c = true → isParam c = true → c.toLower = c := ascii_cases (by decide)
  rw [V.ascii c hascii, hlower c hascii hc]

theorem lower_fixed {w : Text} (hw : w.all (fun c => isAscii c && c.toLower == c) = true) : w.map V.lower = w := by
  rw [List.all_eq_true] at hw
  conv_rhs => rw [← List.map_id w]
  apply List.map_congr_left
  intro c hc
  have h := hw c hc
  simp only [Bool.and_eq_true, beq_iff_eq] at h
  rw [V.ascii c h.1, h.2, id]

theorem lower_words (s : Scalar) :
    s.words.1.toList.map V.lower = s.words.1.toList ∧ s.words.2.toList.map V.lower = s.words.2.toList := by
  constructor
  · exact lower_fixed V (by cases s <;> rfl)
  · exact lower_fixed V (by cases s <;> rfl)

theorem scalar_text (s : Scalar) (ps : Option (List ℕ)) :
    (TypeExpr.scalar s ps).text = s.words.1.toList ++ paramsText ps ++ s.words.2.toList := rfl

/-- A scalar's text is in lower case. -/
theorem lower_scalar (s : Scalar) (ps : Option (List ℕ)) :
    (TypeExpr.scalar s ps).text.map V.lower = (TypeExpr.scalar s ps).text := by
  have hparams : (paramsText ps).map V.lower = paramsText ps := by
    conv_rhs => rw [← List.map_id (paramsText ps)]
    apply List.map_congr_left
    intro c hc
    rw [lower_param V (isParam_of_paramsText ps c hc), id]
  rw [scalar_text, List.map_append, List.map_append, hparams, (lower_words V s).1, (lower_words V s).2]

/-- What can be told from a scalar's words alone about a test that holds on its text. -/
def mayHold (s : Scalar) (t : Test) : Bool :=
  (t.chars.all fun c => s.words.1.toList.contains c || s.words.2.toList.contains c || isParam c) &&
    (t.begins.isPrefixOf s.words.1.toList || s.words.1.toList.isPrefixOf t.begins)

theorem mayHold_of_holds {s : Scalar} {ps : Option (List ℕ)} {t : Test}
    (h : t.holds (TypeExpr.scalar s ps).text = true) : mayHold s t = true := by
  rw [scalar_text] at h
  rw [mayHold, Bool.and_eq_true, List.all_eq_true, Bool.or_eq_true, List.isPrefixOf_iff_prefix, List.isPrefixOf_iff_prefix]
  constructor
  · intro c hc
    have hmem := t.chars_of_holds h hc
    simp only [List.mem_append] at hmem
    simp only [Bool.or_eq_true, List.contains_iff_mem]
    rcases hmem with (hmem | hmem) | hmem
    · exact Or.inl (Or.inl hmem)
    · exact Or.inr (isParam_of_paramsText ps c hmem)
    · exact Or.inl (Or.inr hmem)
  · have hbegins := t.begins_of_holds h
    rw [List.append_assoc] at hbegins
    exact List.prefix_or_prefix_of_prefix hbegins (List.prefix_append _ _)

/-- The arms that can be the first one to hold on a scalar. Three scalars have a later arm that holds as well. -/
def reach : Scalar → List Arm
  | .timestampWithTimeZone => typeArms.take 4
  | .timestamp => typeArms.take 5
  | .timeWithTimeZone => typeArms.take 6
  | _ => typeArms

theorem mem_take_of_find? {arms : List Arm} {p : Arm → Bool} (n : ℕ) (arm : Arm) {found : Arm} (harm : arm ∈ arms.take n)
    (hp : p arm = true) (hfound : arms.find? p = some found) : found ∈ arms.take n := by
  have hsome : ((arms.take n).find? p).isSome = true := List.find?_isSome.mpr ⟨arm, harm, hp⟩
  obtain ⟨first, hfirst⟩ := Option.isSome_iff_exists.mp hsome
  rw [← List.take_append_drop n arms, List.find?_append, hfirst, Option.some_or, Option.some.injEq] at hfound
  rw [← hfound]
  exact List.mem_of_find?_eq_some hfirst

theorem found_reach {s : Scalar} {ps : Option (List ℕ)} {found : Arm}
    (h : typeArms.find? (fun arm => arm.test.holds (TypeExpr.scalar s ps).text) = some found) : found ∈ reach s := by
  have hmem := List.mem_of_find?_eq_some h
  cases s with
  | timestampWithTimeZone =>
    refine mem_take_of_find? 4 ⟨.like "%timestamp%with time zone%", "timestamp with time zone"⟩ (by decide) ?_ h
    exact holds_zonedTimestamp.mpr ⟨[], paramsText ps ++ [' '], [], by simp [scalar_text, Scalar.words]⟩
  | timestamp =>
    refine mem_take_of_find? 5 ⟨.like "timestamp%", "timestamp without time zone"⟩ (by decide) ?_ h
    exact (like_starts (a := "timestamp".toList) rfl).mpr ⟨paramsText ps, by simp [scalar_text, Scalar.words]⟩
  | timeWithTimeZone =>
    refine mem_take_of_find? 6 ⟨.like "%time%with time zone%", "time with time zone"⟩ (by decide) ?_ h
    exact holds_zonedTime.mpr ⟨[], paramsText ps ++ [' '], [], by simp [scalar_text, Scalar.words]⟩
  | _ => exact hmem

theorem reach_named (s : Scalar) : ∀ arm ∈ reach s, mayHold s arm.test = true → arm.name = sqlName s.image := by
  cases s <;> decide +kernel

/-! ## Agreement -/

variable (U : UnicodeCase)

/-- A fixed name that the expression yields is that of the type the gateway announces. -/
def Agrees (T : TypeExpr) : Prop :=
  ∀ name, evalCase V T.text = some name → name = sqlName (trinoTypeToPg U T.text)

theorem trinoTypeToPg_text (T : TypeExpr) : trinoTypeToPg U T.text = T.image := trinoTypeToPg_variant U T rfl

theorem scalar_agrees (s : Scalar) (ps : Option (List ℕ)) : Agrees V U (.scalar s ps) := by
  intro name h
  rw [evalCase, lower_scalar, Option.map_eq_some_iff] at h
  obtain ⟨arm, hfound, rfl⟩ := h
  have hholds : arm.test.holds (TypeExpr.scalar s ps).text = true :=
    List.find?_some (p := fun arm : Arm => arm.test.holds (TypeExpr.scalar s ps).text) hfound
  rw [trinoTypeToPg_text]
  exact reach_named s arm (found_reach hfound) (mayHold_of_holds hholds)

/-- A type whose name the expression never yields agrees if no test holds. -/
theorem agrees_iff_of_not_named {T : TypeExpr} (hname : ∀ arm ∈ typeArms, arm.name ≠ sqlName T.image) :
    Agrees V U T ↔ ¬BeginsAsScalar (T.text.map V.lower) ∧ ¬NamesZonedTime (T.text.map V.lower) := by
  rw [← not_or, ← holds_some_iff]
  constructor
  · rintro h ⟨arm, harm, hholds⟩
    have hsome : (typeArms.find? fun arm => arm.test.holds (T.text.map V.lower)).isSome = true :=
      List.find?_isSome.mpr ⟨arm, harm, hholds⟩
    obtain ⟨found, hfound⟩ := Option.isSome_iff_exists.mp hsome
    have hagree := h found.name (by rw [evalCase, hfound, Option.map_some])
    rw [trinoTypeToPg_text] at hagree
    exact hname found (List.mem_of_find?_eq_some hfound) hagree
  · intro h name heval
    rw [evalCase, Option.map_eq_some_iff] at heval
    obtain ⟨arm, hfound, -⟩ := heval
    have hholds : arm.test.holds (T.text.map V.lower) = true :=
      List.find?_some (p := fun arm : Arm => arm.test.holds (T.text.map V.lower)) hfound
    exact absurd ⟨arm, List.mem_of_find?_eq_some hfound, hholds⟩ h

theorem array_not_named (ty : PgType) : ∀ arm ∈ typeArms, arm.name ≠ sqlName (scalarToArray ty) := by
  have harms : ∀ arm ∈ typeArms, arm.name.toList.getLast? ≠ some ']' := by decide +kernel
  have harray : (sqlName (scalarToArray ty)).toList.getLast? = some ']' := by cases ty <;> rfl
  intro arm harm hname
  rw [← hname] at harray
  exact harms arm harm harray

/-- The beginnings of the nested types are not those of the scalars. -/
theorem not_beginsAsScalar {word s : Text} (hword : word ∈ ["array(".toList, "map(".toList, "row(".toList])
    (h : word <+: s) : ¬BeginsAsScalar s := by
  have hwhole : ∀ w ∈ ["array(".toList, "map(".toList, "row(".toList],
      ¬ w <+: "double".toList ∧ ¬ w <+: "varbinary".toList := by decide +kernel
  have hapart : ∀ w ∈ ["array(".toList, "map(".toList, "row(".toList],
      ∀ v ∈ ["varchar".toList, "char(".toList, "time".toList, "decimal".toList], ¬ w <+: v ∧ ¬ v <+: w := by decide +kernel
  rintro (rfl | rfl | ⟨v, hv, hprefix⟩)
  · exact (hwhole word hword).1 h
  · exact (hwhole word hword).2 h
  · rcases List.prefix_or_prefix_of_prefix h hprefix with hvw | hvw
    · exact (hapart word hword v hv).1 hvw
    · exact (hapart word hword v hv).2 hvw

theorem prefix_lower {w s : Text} (hw : w.all (fun c => isAscii c && c.toLower == c) = true) (h : w <+: s) :
    w <+: s.map V.lower := by
  have hmap := h.map V.lower
  rwa [lower_fixed V hw] at hmap

/-- What the text of a type must not have, for `information_schema.columns` to report the type by its name. -/
def NotMistaken : TypeExpr → Prop
  | .scalar _ _ => True
  | .other n ps =>
    ¬BeginsAsScalar ((TypeExpr.other n ps).text.map V.lower) ∧ ¬NamesZonedTime ((TypeExpr.other n ps).text.map V.lower)
  | .generic n ts =>
    ¬BeginsAsScalar ((TypeExpr.generic n ts).text.map V.lower) ∧ ¬NamesZonedTime ((TypeExpr.generic n ts).text.map V.lower)
  | .array elem => ¬NamesZonedTime ((TypeExpr.array elem).text.map V.lower)
  | .map key value => ¬NamesZonedTime ((TypeExpr.map key value).text.map V.lower)
  | .row fields => ¬NamesZonedTime ((TypeExpr.row fields).text.map V.lower)

theorem nested_agrees_iff {T : TypeExpr} (hname : ∀ arm ∈ typeArms, arm.name ≠ sqlName T.image) (word : Text)
    (hword : word ∈ ["array(".toList, "map(".toList, "row(".toList]) (h : word <+: T.text) :
    Agrees V U T ↔ ¬NamesZonedTime (T.text.map V.lower) := by
  have hlower : ∀ w ∈ ["array(".toList, "map(".toList, "row(".toList],
      w.all (fun c => isAscii c && c.toLower == c) = true := by decide +kernel
  rw [agrees_iff_of_not_named V U hname, and_iff_right]
  exact not_beginsAsScalar hword (prefix_lower V (hlower word hword) h)

theorem case_agrees_iff (T : TypeExpr) :
    typeMapping = (caseSql typeArms).toList ∧ (Agrees V U T ↔ NotMistaken V T) := by
  have htext : ∀ arm ∈ typeArms, arm.name ≠ sqlName .text := by decide
  have hjsonb : ∀ arm ∈ typeArms, arm.name ≠ sqlName .jsonb := by decide
  refine ⟨typeMapping_eq, ?_⟩
  cases T with
  | scalar s ps => exact iff_of_true (scalar_agrees V U s ps) trivial
  | other n ps => exact agrees_iff_of_not_named V U htext
  | generic n ts => exact agrees_iff_of_not_named V U htext
  | array elem =>
    exact nested_agrees_iff V U (array_not_named elem.image) "array(".toList (by simp) ⟨elem.text ++ [')'], rfl⟩
  | map key value =>
    exact nested_agrees_iff V U hjsonb "map(".toList (by simp)
      ⟨key.text ++ ", ".toList ++ value.text ++ [')'], rfl⟩
  | row fields =>
    exact nested_agrees_iff V U hjsonb "row(".toList (by simp) ⟨textFields fields ++ [')'], rfl⟩

def asciiLower : SqlLower := ⟨Char.toLower, fun _ _ => rfl⟩

def zonedTimestamps : TypeExpr := .array (.scalar .timestampWithTimeZone (some [3]))

/-- The columns view calls an array of timestamps a timestamp. -/
theorem array_reported_as_timestamp :
    zonedTimestamps.text = "array(timestamp(3) with time zone)".toList ∧
    evalCase asciiLower zonedTimestamps.text = some "timestamp with time zone" ∧
    trinoTypeToPg asciiOnly zonedTimestamps.text = .timestamptzArray ∧
    sqlName .timestamptzArray = "timestamp with time zone[]" := by
  refine ⟨by decide +kernel, by decide +kernel, ?_, rfl⟩
  rw [trinoTypeToPg_text]
  rfl

end TrinoGateway.InfoSchema
