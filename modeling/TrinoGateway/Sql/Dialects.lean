/-
  TrinoGateway.Sql.Dialects — what PostgreSQL and Trino read in a tree.

  Both are dialects of one SQL (`Core`): its types, functions, comparisons of texts and row
  limits, and whatever else the two have in common, each with a meaning of its own that is
  arbitrary but for what the gateway relies on. Each dialect says by itself which operation of
  the core a node is, or that it does not have the node (`postgresNode`, `trinoNode`,
  `postgresLimits`, `trinoLimits`): PostgreSQL has `::`, ILIKE, TEXT, `trunc` and LIMIT beside
  OFFSET; Trino has none of them, and takes no FETCH FIRST 0 and no row count but a literal.
  None of it is told by the passes of the gateway.

  Proved: the tables of the passes lead from a name of PostgreSQL to a name Trino has for the
  same type (`trinoType_normalize`) and the same function (`trinoFunction_renamed`). Two names
  are without: arrays, for Trino does not read `t[]`, and `string_agg`, for Trino's `listagg`
  is no plain call (it wants WITHIN GROUP).
-/

import TrinoGateway.Sql.Casts
import TrinoGateway.Sql.ILike
import TrinoGateway.Sql.LimitOffset

namespace TrinoGateway.Sql

open TrinoGateway.Lib

/-! ## Types -/

/-- The types of the core. -/
inductive SqlType where
  | varchar (length : Option ℕ)
  | smallint
  | integer
  | bigint
  | real
  | double
  | boolean
  | bytes
  | array (element : SqlType)
  | named (name : Text)
  deriving DecidableEq, Repr

/-- The type a name stands for in PostgreSQL; `common` are the other types both engines have
    under one name. -/
def postgresType (common : Text → Bool) : DataType → Option SqlType
  | .text => some (.varchar none)
  | .varchar length => some (.varchar length)
  | .int2 none => some .smallint
  | .smallInt none => some .smallint
  | .int4 none => some .integer
  | .integer none => some .integer
  | .int8 none => some .bigint
  | .bigInt none => some .bigint
  | .float4 => some .real
  | .real => some .real
  | .float8 => some .double
  | .doublePrecision => some .double
  | .bool => some .boolean
  | .boolean => some .boolean
  | .bytea => some .bytes
  | .array element => (postgresType common element).map .array
  | .other name => if common name then some (.named name) else none
  | _ => none

/-- The type a name stands for in Trino, where an array is `ARRAY(t)` and not `t[]`. -/
def trinoType (common : Text → Bool) : DataType → Option SqlType
  | .varchar length => some (.varchar length)
  | .smallInt none => some .smallint
  | .integer none => some .integer
  | .bigInt none => some .bigint
  | .real => some .real
  | .doublePrecision => some .double
  | .boolean => some .boolean
  | .varbinary none => some .bytes
  | .other name => if common name then some (.named name) else none
  | _ => none

def DataType.isArray : DataType → Bool
  | .array _ => true
  | _ => false

theorem trinoType_normalize {common : Text → Bool} {t : DataType} {σ : SqlType} (h : postgresType common t = some σ)
    (harray : t.isArray = false) : trinoType common (normalizeDataType t) = some σ := by
  cases t with
  | array element => cases harray
  | int2 width | int4 width | int8 width | smallInt width | integer width | bigInt width =>
    cases width with
    | none => exact h
    | some n => cases h
  | varbinary length => cases h
  | text | float4 | float8 | bool | bytea | varchar _ | real | doublePrecision | boolean | other _ => exact h

/-- A cast that fails, and one that gives NULL. -/
inductive CastMode where
  | strict
  | orNull
  deriving DecidableEq, Repr

def postgresCast : CastKind → Option CastMode
  | .cast => some .strict
  | .doubleColon => some .strict
  | _ => none

def trinoCast : CastKind → Option CastMode
  | .cast => some .strict
  | .tryCast => some .orNull
  | _ => none

theorem trinoCast_rewritten {kind : CastKind} {mode : CastMode} (h : postgresCast kind = some mode) :
    trinoCast (if kind = .doubleColon then .cast else kind) = some mode := by
  cases kind <;> first | exact h | cases h

/-! ## Functions -/

/-- The functions of the core. -/
inductive SqlFunction where
  | stringAgg
  | log10
  | logarithm
  | truncate
  | truncateTo
  | lower
  | named (name : Text)
  deriving DecidableEq, Repr

/-- A function by its name and the number of its arguments. -/
abbrev FunctionTable := List (Text × ℕ × SqlFunction)

/-- `log` is the logarithm to base 10. -/
def postgresFunctions : FunctionTable :=
  [("string_agg".toList, 2, .stringAgg), ("log".toList, 1, .log10), ("log10".toList, 1, .log10),
    ("log".toList, 2, .logarithm), ("trunc".toList, 1, .truncate), ("trunc".toList, 2, .truncateTo),
    ("lower".toList, 1, .lower)]

/-- `log` wants its base. -/
def trinoFunctions : FunctionTable :=
  [("log10".toList, 1, .log10), ("log".toList, 2, .logarithm), ("truncate".toList, 1, .truncate),
    ("truncate".toList, 2, .truncateTo), ("lower".toList, 1, .lower)]

/-- The names that are not the same in both. -/
def ownNames : List Text :=
  ["string_agg".toList, "listagg".toList, "log".toList, "log10".toList, "trunc".toList, "truncate".toList,
    "lower".toList]

/-- ASCII without capital letters. -/
def isPlainName (name : Text) : Bool := name.all fun c => isAscii c && c.toLower == c

/-- A name of the table, or another one both engines have (`common`). -/
def lookupFunction (table : FunctionTable) (common : Text → ℕ → Bool) (name : Text) (count : ℕ) : Option SqlFunction :=
  match table.find? fun entry => entry.1 == name && entry.2.1 == count with
  | some entry => some entry.2.2
  | none => if isPlainName name && !ownNames.contains name && common name count then some (.named name) else none

/-- PostgreSQL folds a name that is not quoted. -/
def postgresName (id : Ident) : Text := if id.quoteStyle = none then id.value.map Char.toLower else id.value

def postgresFunction (common : Text → ℕ → Bool) : ObjectName → ℕ → Option SqlFunction
  | [.identifier id], count => lookupFunction postgresFunctions common (postgresName id) count
  | _, _ => none

/-- To Trino the case of a function does not matter. -/
def trinoFunction (common : Text → ℕ → Bool) : ObjectName → ℕ → Option SqlFunction
  | [.identifier id], count => lookupFunction trinoFunctions common (id.value.map Char.toLower) count
  | _, _ => none

section functions

variable {common : Text → ℕ → Bool} {name : Text} {count : ℕ} {f : SqlFunction}

/-- The two ways a name is found. -/
theorem lookupFunction_eq_some {table : FunctionTable} (h : lookupFunction table common name count = some f) :
    (name, count, f) ∈ table ∨
      isPlainName name = true ∧ name ∉ ownNames ∧ common name count = true ∧ f = .named name := by
  unfold lookupFunction at h
  split at h
  · rename_i entry hfind
    obtain ⟨name', count', f'⟩ := entry
    have hkey := List.find?_some hfind
    simp only [Bool.and_eq_true, beq_iff_eq] at hkey
    rw [← hkey.1, ← hkey.2, ← Option.some.inj h]
    exact .inl (List.mem_of_find?_eq_some hfind)
  · split_ifs at h with hnamed
    simp only [Bool.and_eq_true, Bool.not_eq_true', List.contains_eq_mem, decide_eq_false_iff_not] at hnamed
    exact .inr ⟨hnamed.1.1, hnamed.1.2, hnamed.2, (Option.some.inj h).symm⟩

theorem postgresFunctions_plain : ∀ entry ∈ postgresFunctions, isPlainName entry.1 = true := by
  decide

/-- A name found is plain, so case folding has made it what it is. -/
theorem isPlainName_of_found (h : lookupFunction postgresFunctions common name count = some f) :
    isPlainName name = true := by
  obtain hmem | ⟨hplain, -⟩ := lookupFunction_eq_some h
  · exact postgresFunctions_plain _ hmem
  · exact hplain

theorem isPlainName_lower (h : isPlainName name = true) : name.all isAscii = true ∧ name.map Char.toLower = name := by
  simp only [isPlainName, List.all_eq_true, Bool.and_eq_true, beq_iff_eq] at h
  refine ⟨List.all_eq_true.mpr fun c hc => (h c hc).1, ?_⟩
  rw [List.map_congr_left fun c hc => (h c hc).2, List.map_id']

/-- A name found is a spelling of the name in the table, so the renaming sees it. -/
theorem toLowercase_of_plain (U : UnicodeCase) (id : Ident) (h : isPlainName (postgresName id) = true) :
    toLowercase U id.value = postgresName id ∧ id.value.map Char.toLower = postgresName id := by
  obtain ⟨hascii, hlower⟩ := isPlainName_lower h
  have hvariant : id.value.map Char.toLower = postgresName id := by
    unfold postgresName at hlower ⊢
    split_ifs at hlower ⊢ with hquoted
    · rfl
    · exact hlower
  refine ⟨?_, hvariant⟩
  have hcase : CaseVariant id.value (postgresName id) := hvariant.trans hlower.symm
  rw [(toLowercase_lowersTo U id.value).variant hcase hascii, hlower]

/-- A name both engines have is not renamed. -/
theorem trinoFunctionName_common (h : name ∉ ownNames) (count : ℕ) : trinoFunctionName name count = none := by
  have hne : ∀ own ∈ ownNames, name ≠ own := fun own hmem heq => h (heq ▸ hmem)
  rw [trinoFunctionName, if_neg (hne _ (by decide)), if_neg (fun hlog => hne _ (by decide) hlog.1),
    if_neg (hne _ (by decide))]

theorem lookup_trinoFunctions : ∀ entry ∈ trinoFunctions, ∀ common,
    lookupFunction trinoFunctions common entry.1 entry.2.1 = some entry.2.2 := by
  intro entry hmem common
  have hfind : trinoFunctions.find? (fun e => e.1 == entry.1 && e.2.1 == entry.2.1) = some entry := by
    revert entry
    decide
  rw [lookupFunction, hfind]

theorem lookup_common (hplain : isPlainName name = true) (hown : name ∉ ownNames) (hcommon : common name count = true) :
    lookupFunction trinoFunctions common name count = some (.named name) := by
  have hfind : trinoFunctions.find? (fun e => e.1 == name && e.2.1 == count) = none := by
    rw [List.find?_eq_none]
    intro entry hmem hkey
    have hnames : ∀ e ∈ trinoFunctions, e.1 ∈ ownNames := by decide
    rw [Bool.and_eq_true, beq_iff_eq] at hkey
    exact hown (hkey.1 ▸ hnames entry hmem)
  have hcontains : ownNames.contains name = false := by simpa using hown
  simp only [lookupFunction, hfind, hplain, hcontains, hcommon, Bool.not_false, Bool.and_self, if_true]

/-- Trino has every function of PostgreSQL's table under the name the passes give it, but for one. -/
theorem renamed_mem : ∀ entry ∈ postgresFunctions, entry.2.2 ≠ .stringAgg →
    ((trinoFunctionName entry.1 entry.2.1).getD entry.1, entry.2.1, entry.2.2) ∈ trinoFunctions := by
  decide

theorem toLower_renamed (U : UnicodeCase) (id : Ident) (h : isPlainName (postgresName id) = true) (count : ℕ) :
    ((trinoFunctionName (toLowercase U id.value) count).getD id.value).map Char.toLower =
      (trinoFunctionName (postgresName id) count).getD (postgresName id) := by
  obtain ⟨hunicode, hlower⟩ := toLowercase_of_plain U id h
  rw [hunicode]
  cases hnew : trinoFunctionName (postgresName id) count with
  | none => exact hlower
  | some value =>
    have hnames : ∀ new ∈ ["lower", "listagg", "log10", "truncate"].map String.toList, new.map Char.toLower = new := by
      decide
    exact hnames value (trinoFunctionName_mem hnew)

theorem trinoFunction_renamed (U : UnicodeCase) {args : FunctionArguments} {name : ObjectName}
    (h : postgresFunction common name args.count = some f) (hagg : f ≠ .stringAgg) :
    trinoFunction common (renamedCall U args name) args.count = some f := by
  unfold postgresFunction at h
  split at h
  · rename_i id
    rw [renamedCall, trinoFunction, toLower_renamed U id (isPlainName_of_found h)]
    obtain hmem | ⟨hplain, hown, hcommon, rfl⟩ := lookupFunction_eq_some h
    · exact lookup_trinoFunctions _ (renamed_mem _ hmem hagg) common
    · rw [trinoFunctionName_common hown, Option.getD_none]
      exact lookup_common hplain hown hcommon
  · cases h

def isStringAgg : ObjectName → Bool
  | [.identifier id] => postgresName id = "string_agg".toList
  | _ => false

theorem isStringAgg_of_found {name : ObjectName} (h : postgresFunction common name count = some .stringAgg) :
    isStringAgg name = true := by
  unfold postgresFunction at h
  split at h
  · obtain hmem | ⟨-, -, -, hnamed⟩ := lookupFunction_eq_some h
    · have htable : ∀ entry ∈ postgresFunctions, entry.2.2 = .stringAgg → entry.1 = "string_agg".toList := by decide
      exact decide_eq_true (htable _ hmem rfl)
    · cases hnamed
  · cases h

end functions

/-! ## The SQL both have -/

/-- Case matters. -/
def noFold : CaseFold := ⟨id, fun _ => rfl, fun _ _ _ => Iff.rfl⟩

/-- The truth value of a comparison of two texts, where there are two. -/
def compareTexts (predicate : Text → Text → Option Bool) (x p : Option Text) : Option (Option Bool) :=
  x.bind fun x => p.map fun p => predicate x p

structure Core (M Env Row : Type) extends RowSemantics M Env Row where
  /-- The constructs both engines have and spell alike; casts, calls and patterns are not among them. -/
  shared : Shape → Bool
  /-- The other types, and the other functions, both have under one name. -/
  types : Text → Bool
  functions : Text → ℕ → Bool
  caseFold : CaseFold
  unfinished : UnfinishedPattern
  cast : CastMode → SqlType → M → M
  call : SqlFunction → M → List M → M
  /-- The text an expression gives; none for NULL. -/
  text : M → Env → Option Text
  /-- A predicate by its truth value: none where an operand is NULL, and in it none for an error. -/
  predicate : (Env → Option (Option Bool)) → M
  /-- The number of arguments. -/
  arity : M → ℕ
  shared_list : shared .argumentList = true
  shared_unnamed : shared .unnamedArg = true
  text_literal : ∀ s env, text (node (.value (.singleQuotedString s)) []) env = some s
  text_lower : ∀ m env, text (call .lower (node .argumentList [[node .unnamedArg [[m]]]]) []) env =
    (text m env).map (List.map caseFold.fold)
  arity_list : ∀ ms, arity (node .argumentList [ms]) = ms.length
  arity_none : arity (node .noArguments []) = 0
  arity_subquery : ∀ m, arity (node .subqueryArgument [[m]]) = 0

/-- What is spelled or read differently: casts, calls and patterns. -/
def Shape.differs : Shape → Bool
  | .cast _ _ => true
  | .function _ => true
  | .like _ _ _ => true
  | .ilike _ _ _ => true
  | _ => false

def Fetch.written : Fetch → Bool
  | .absent => true
  | .rows withTies percent quantity => quantity.all Expr.isNatural && !(Fetch.rows withTies percent quantity).isZero

/-- The row counts of the query are literals, and FETCH FIRST has no zero. -/
def Query.countsWritten (q : Query) : Bool := q.limitClause.literal && q.fetch.written

/-! ## Reading a tree -/

section reading

variable {M : Type}

def readAll : List (Option M) → Option (List M)
  | [] => some []
  | o :: os => o.bind fun m => (readAll os).map (m :: ·)

def readParts : List (List (Option M)) → Option (List (List M))
  | [] => some []
  | os :: parts => (readAll os).bind fun ms => (readParts parts).map (ms :: ·)

/-- A clause that may be absent. -/
def readOptional : Option (Option M) → Option (Option M)
  | none => some none
  | some o => o.map some

def Limits.read : Limits (Option M) → Option (Limits M)
  | .absent => some .absent
  | .limitOffset limit offset limitBy =>
    (readOptional limit).bind fun limit => (readOptional offset).bind fun offset =>
      (readAll limitBy).map fun limitBy => .limitOffset limit offset limitBy
  | .offsetCommaLimit offset limit => offset.bind fun offset => limit.map fun limit => .offsetCommaLimit offset limit

def Fetched.read : Fetched (Option M) → Option (Fetched M)
  | .absent => some .absent
  | .rows withTies percent quantity => (readOptional quantity).map fun quantity => .rows withTies percent quantity

/-- The clauses of a query, by what they are worth. -/
structure Clauses (M : Type) where
  ctes : List M
  body : M
  orderBy : List M
  limits : Limits M
  fetch : Fetched M
  others : List M

def Clauses.read (c : Clauses (Option M)) : Option (Clauses M) :=
  (readAll c.ctes).bind fun ctes => c.body.bind fun body => (readAll c.orderBy).bind fun orderBy =>
    c.limits.read.bind fun limits => c.fetch.read.bind fun fetch =>
      (readAll c.others).map fun others => ⟨ctes, body, orderBy, limits, fetch, others⟩

def Query.clauses (A : Algebra M) : Query → Clauses M
  | .mk ctes body orderBy limitClause fetch others =>
    ⟨foldQueries A ctes, body.fold A, foldExprs A orderBy, limitClause.fold A, fetch.fold A, foldClauses A others⟩

end reading

/-- What an engine reads in a node and in a query; none is what it does not have. -/
structure Dialect (M Env Row : Type) where
  node : Shape → List (List M) → Option M
  rows : Query → Clauses M → Option (Env → List Row)

namespace Dialect

variable {M Env Row : Type} (E : Dialect M Env Row) (query : (Env → List Row) → M)

/-- A tree has a meaning if the engine has all its nodes; `query` is the meaning of a query as a part of a node. -/
def algebra : Algebra (Option M) where
  node shape parts := (readParts parts).bind (E.node shape)
  query q ctes body orderBy limits fetch others :=
    ((Clauses.mk ctes body orderBy limits fetch others).read.bind (E.rows q)).map query

def denote (q : Query) : Option (Env → List Row) := (q.clauses (E.algebra query)).read.bind (E.rows q)

theorem query_fold (q : Query) : q.fold (E.algebra query) = (E.denote query q).map query := by
  cases q
  rfl

end Dialect

/-! ## The two engines -/

namespace Core

variable {M Env Row : Type} (C : Core M Env Row)

def compare (predicate : Text → Text → Option Bool) (x p : M) : M :=
  C.predicate fun env => compareTexts predicate (C.text x env) (C.text p env)

def sharedNode (shape : Shape) (parts : List (List M)) : Option M :=
  if shape.differs = false ∧ C.shared shape = true then some (C.node shape parts) else none

/-! ### PostgreSQL -/

def postgresNode : Shape → List (List M) → Option M
  | .cast kind t, [[m]] => (postgresCast kind).bind fun mode => (postgresType C.types t).map fun σ => C.cast mode σ m
  | .function name, [[args], rest] =>
    (postgresFunction C.functions name (C.arity args)).map fun f => C.call f args rest
  -- The pattern is read as that of ILIKE is.
  | .like negated false escape, [[x], [p]] =>
    some (C.compare (postgresPredicate noFold C.unfinished (.ilike negated false escape)) x p)
  | .ilike negated false escape, [[x], [p]] =>
    some (C.compare (postgresPredicate C.caseFold C.unfinished (.ilike negated false escape)) x p)
  | shape, parts => C.sharedNode shape parts

/-- LIMIT and OFFSET in any combination, or OFFSET and FETCH FIRST; the offset is taken first. -/
def postgresLimits (orderBy : List M) : Limits M → Fetched M → Option (Env → List Row → List Row)
  | .absent, .absent => some fun _ rows => rows
  | .limitOffset limit offset [], .absent => some fun env rows => C.capped limit env (C.skipped offset env rows)
  | .absent, .rows withTies false n => some fun env rows => C.fetched orderBy env rows (.rows withTies false n)
  | .limitOffset none offset [], .rows withTies false n =>
    some fun env rows => C.fetched orderBy env (C.skipped offset env rows) (.rows withTies false n)
  | _, _ => none

/-! ### Trino -/

def trinoNode : Shape → List (List M) → Option M
  | .cast kind t, [[m]] => (trinoCast kind).bind fun mode => (trinoType C.types t).map fun σ => C.cast mode σ m
  | .function name, [[args], rest] =>
    (trinoFunction C.functions name (C.arity args)).map fun f => C.call f args rest
  | .like negated false escape, [[x], [p]] => some (C.compare (trinoPredicate (.like negated false escape)) x p)
  | shape, parts => C.sharedNode shape parts

/-- The grammar has OFFSET in front of LIMIT, and a tree is printed the other way round, so of the
    two there is one. -/
def trinoLimits (orderBy : List M) : Limits M → Fetched M → Option (Env → List Row → List Row)
  | .absent, .absent => some fun _ rows => rows
  | .limitOffset limit none [], .absent => some fun env rows => C.capped limit env rows
  | .limitOffset none offset [], .absent => some fun env rows => C.skipped offset env rows
  | .absent, .rows withTies false n => some fun env rows => C.fetched orderBy env rows (.rows withTies false n)
  | .limitOffset none offset [], .rows withTies false n =>
    some fun env rows => C.fetched orderBy env (C.skipped offset env rows) (.rows withTies false n)
  | _, _ => none

/-! ### Whole trees -/

/-- The rows of a query, given what its limits do. -/
def limitedRows (c : Clauses M) (limit : Env → List Row → List Row) (env : Env) : List Row :=
  C.after c.others env (limit env (C.rows c.ctes c.body c.orderBy c.others env))

def postgres : Dialect M Env Row where
  node := C.postgresNode
  rows _ c := (C.postgresLimits c.orderBy c.limits c.fetch).map (C.limitedRows c)

def trino : Dialect M Env Row where
  node := C.trinoNode
  rows q c := if q.countsWritten then (C.trinoLimits c.orderBy c.limits c.fetch).map (C.limitedRows c) else none

def postgresMeaning : Algebra (Option M) := C.postgres.algebra C.query

def trinoMeaning : Algebra (Option M) := C.trino.algebra C.query

def postgresRows (q : Query) : Option (Env → List Row) := C.postgres.denote C.query q

def trinoRows (q : Query) : Option (Env → List Row) := C.trino.denote C.query q

end Core

end TrinoGateway.Sql
