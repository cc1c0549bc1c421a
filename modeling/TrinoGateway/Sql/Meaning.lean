/-
  TrinoGateway.Sql.Meaning — does a statement mean to Trino what it meant to PostgreSQL, after
  `rewrite_sql` (`src/rewrite/`)?

  The meanings are those the two engines give to a tree on their own (`Core.postgresMeaning`,
  `Core.trinoMeaning`); a tree with a node an engine does not have has none.

  Proved: `rewrite_preserves_meaning`. If a statement has a meaning to PostgreSQL and is within
  what is translated (`Statement.translatable`, decided by its tree), then the rewritten one has a
  meaning to Trino, and it is the same, with every subquery, at any depth. Not translated are
  casts to an array, `string_agg`, patterns that are no literals or on which the two readings of
  an escape differ, and row counts that are no literals (or a FETCH FIRST 0 in the statement).
  The passes are one visit (`rewriteStatement_eq_accept`), so one lemma per kind of node is enough.
-/

import TrinoGateway.Sql.Dialects

namespace TrinoGateway.Sql

open TrinoGateway.Lib

/-! ## Two folds at once -/

section hom

variable {M N : Type}

def Limits.map (f : M → N) : Limits M → Limits N
  | .absent => .absent
  | .limitOffset limit offset limitBy => .limitOffset (limit.map f) (offset.map f) (limitBy.map f)
  | .offsetCommaLimit offset limit => .offsetCommaLimit (f offset) (f limit)

def Fetched.map (f : M → N) : Fetched M → Fetched N
  | .absent => .absent
  | .rows withTies percent quantity => .rows withTies percent (quantity.map f)

/-- What one algebra makes of a node is told by what the other makes of it. -/
structure IsHom (f : M → N) (A : Algebra M) (B : Algebra N) : Prop where
  node : ∀ shape parts, f (A.node shape parts) = B.node shape (parts.map (List.map f))
  query : ∀ q ctes body orderBy limits fetch others,
    f (A.query q ctes body orderBy limits fetch others) =
      B.query q (ctes.map f) (f body) (orderBy.map f) (limits.map f) (fetch.map f) (others.map f)

variable {f : M → N} {A : Algebra M} {B : Algebra N}

mutual

theorem Expr.fold_hom (h : IsHom f A B) : ∀ e : Expr, f (e.fold A) = e.fold B
  | .identifier id => h.node _ _
  | .compoundIdentifier ids => h.node _ _
  | .value l => h.node _ _
  | .function name args rest => by
    simp only [Expr.fold, h.node, List.map_cons, List.map_nil, args.fold_hom h, foldExprs_hom h rest]
  | .cast kind expr dataType => by simp only [Expr.fold, h.node, List.map_cons, List.map_nil, expr.fold_hom h]
  | .like negated any expr pattern escapeChar => by
    simp only [Expr.fold, h.node, List.map_cons, List.map_nil, expr.fold_hom h, pattern.fold_hom h]
  | .ilike negated any expr pattern escapeChar => by
    simp only [Expr.fold, h.node, List.map_cons, List.map_nil, expr.fold_hom h, pattern.fold_hom h]
  | .other label exprs queries => by
    simp only [Expr.fold, h.node, List.map_cons, List.map_nil, foldExprs_hom h exprs, foldQueries_hom h queries]

theorem FunctionArguments.fold_hom (h : IsHom f A B) : ∀ args : FunctionArguments, f (args.fold A) = args.fold B
  | .none => h.node _ _
  | .subquery query => by simp only [FunctionArguments.fold, h.node, List.map_cons, List.map_nil, query.fold_hom h]
  | .list args => by simp only [FunctionArguments.fold, h.node, List.map_cons, List.map_nil, foldArgs_hom h args]

theorem FunctionArg.fold_hom (h : IsHom f A B) : ∀ arg : FunctionArg, f (arg.fold A) = arg.fold B
  | .unnamed arg => by simp only [FunctionArg.fold, h.node, List.map_cons, List.map_nil, arg.fold_hom h]
  | .named name arg => by simp only [FunctionArg.fold, h.node, List.map_cons, List.map_nil, arg.fold_hom h]
  | .exprNamed name arg => by
    simp only [FunctionArg.fold, h.node, List.map_cons, List.map_nil, name.fold_hom h, arg.fold_hom h]
  | .wildcard => h.node _ _

theorem Query.fold_hom (h : IsHom f A B) : ∀ q : Query, f (q.fold A) = q.fold B
  | .mk ctes body orderBy limitClause fetch others => by
    simp only [Query.fold, h.query, foldQueries_hom h ctes, body.fold_hom h, foldExprs_hom h orderBy,
      limitClause.fold_hom h, fetch.fold_hom h, foldClauses_hom h others]

theorem LimitClause.fold_hom (h : IsHom f A B) : ∀ c : LimitClause, (c.fold A).map f = c.fold B
  | .absent => rfl
  | .limitOffset limit offset limitBy => by
    simp only [LimitClause.fold, Limits.map, foldOption_hom h limit, foldOption_hom h offset, foldExprs_hom h limitBy]
  | .offsetCommaLimit offset limit => by simp only [LimitClause.fold, Limits.map, offset.fold_hom h, limit.fold_hom h]

theorem Fetch.fold_hom (h : IsHom f A B) : ∀ c : Fetch, (c.fold A).map f = c.fold B
  | .absent => rfl
  | .rows withTies percent quantity => by simp only [Fetch.fold, Fetched.map, foldOption_hom h quantity]

theorem SetExpr.fold_hom (h : IsHom f A B) : ∀ s : SetExpr, f (s.fold A) = s.fold B
  | .select select => by simp only [SetExpr.fold, h.node, List.map_cons, List.map_nil, select.fold_hom h]
  | .query query => by simp only [SetExpr.fold, h.node, List.map_cons, List.map_nil, query.fold_hom h]
  | .setOperation op left right => by
    simp only [SetExpr.fold, h.node, List.map_cons, List.map_nil, left.fold_hom h, right.fold_hom h]
  | .values cells => by simp only [SetExpr.fold, h.node, List.map_cons, List.map_nil, foldExprs_hom h cells]
  | .statement statement => by simp only [SetExpr.fold, h.node, List.map_cons, List.map_nil, statement.fold_hom h]
  | .table name => h.node _ _

theorem Select.fold_hom (h : IsHom f A B) : ∀ s : Select, f (s.fold A) = s.fold B
  | .mk modifiers projection tables selection groupBy having clusterBy distributeBy sortBy qualify others => by
    simp only [Select.fold, h.node, List.map_cons, List.map_nil, foldClauses_hom h modifiers,
      foldItems_hom h projection, foldTables_hom h tables, ← Option.toList_map, foldOption_hom h selection,
      foldExprs_hom h groupBy, foldOption_hom h having, foldExprs_hom h clusterBy, foldExprs_hom h distributeBy,
      foldExprs_hom h sortBy, foldOption_hom h qualify, foldClauses_hom h others]

theorem Clause.fold_hom (h : IsHom f A B) : ∀ c : Clause, f (c.fold A) = c.fold B
  | .mk label writes relations exprs queries => by
    simp only [Clause.fold, h.node, List.map_cons, List.map_nil, foldExprs_hom h exprs, foldQueries_hom h queries]

theorem SelectItem.fold_hom (h : IsHom f A B) : ∀ i : SelectItem, f (i.fold A) = i.fold B
  | .unnamedExpr expr => by simp only [SelectItem.fold, h.node, List.map_cons, List.map_nil, expr.fold_hom h]
  | .exprWithAlias expr name => by simp only [SelectItem.fold, h.node, List.map_cons, List.map_nil, expr.fold_hom h]
  | .qualifiedWildcard qualifier => h.node _ _
  | .wildcard => h.node _ _

theorem TableFactor.fold_hom (h : IsHom f A B) : ∀ t : TableFactor, f (t.fold A) = t.fold B
  | .table name args => by simp only [TableFactor.fold, h.node, List.map_cons, List.map_nil, foldExprs_hom h args]
  | .derived query => by simp only [TableFactor.fold, h.node, List.map_cons, List.map_nil, query.fold_hom h]
  | .joined tables conditions => by
    simp only [TableFactor.fold, h.node, List.map_cons, List.map_nil, foldTables_hom h tables,
      foldExprs_hom h conditions]
  | .other label exprs => by simp only [TableFactor.fold, h.node, List.map_cons, List.map_nil, foldExprs_hom h exprs]

theorem Statement.fold_hom (h : IsHom f A B) : ∀ s : Statement, f (s.fold A) = s.fold B
  | .query query => by simp only [Statement.fold, h.node, List.map_cons, List.map_nil, query.fold_hom h]
  | .write kind targets tables queries exprs => by
    simp only [Statement.fold, h.node, List.map_cons, List.map_nil, foldTables_hom h tables, foldQueries_hom h queries,
      foldExprs_hom h exprs]
  | .other label relations queries exprs => by
    simp only [Statement.fold, h.node, List.map_cons, List.map_nil, foldQueries_hom h queries, foldExprs_hom h exprs]

theorem foldExprs_hom (h : IsHom f A B) : ∀ es : List Expr, (foldExprs A es).map f = foldExprs B es
  | [] => rfl
  | e :: es => by rw [foldExprs, List.map_cons, e.fold_hom h, foldExprs_hom h es, foldExprs]

theorem foldOption_hom (h : IsHom f A B) : ∀ o : Option Expr, (foldOption A o).map f = foldOption B o
  | none => rfl
  | some e => by rw [foldOption, Option.map_some, e.fold_hom h, foldOption]

theorem foldArgs_hom (h : IsHom f A B) : ∀ as : List FunctionArg, (foldArgs A as).map f = foldArgs B as
  | [] => rfl
  | a :: as => by rw [foldArgs, List.map_cons, a.fold_hom h, foldArgs_hom h as, foldArgs]

theorem foldQueries_hom (h : IsHom f A B) : ∀ qs : List Query, (foldQueries A qs).map f = foldQueries B qs
  | [] => rfl
  | q :: qs => by rw [foldQueries, List.map_cons, q.fold_hom h, foldQueries_hom h qs, foldQueries]

theorem foldItems_hom (h : IsHom f A B) : ∀ is : List SelectItem, (foldItems A is).map f = foldItems B is
  | [] => rfl
  | i :: is => by rw [foldItems, List.map_cons, i.fold_hom h, foldItems_hom h is, foldItems]

theorem foldTables_hom (h : IsHom f A B) : ∀ ts : List TableFactor, (foldTables A ts).map f = foldTables B ts
  | [] => rfl
  | t :: ts => by rw [foldTables, List.map_cons, t.fold_hom h, foldTables_hom h ts, foldTables]

theorem foldClauses_hom (h : IsHom f A B) : ∀ cs : List Clause, (foldClauses A cs).map f = foldClauses B cs
  | [] => rfl
  | c :: cs => by rw [foldClauses, List.map_cons, c.fold_hom h, foldClauses_hom h cs, foldClauses]

end

/-- Two folds in one. -/
def Algebra.prod (A : Algebra M) (C : Algebra N) : Algebra (M × N) where
  node shape parts := (A.node shape (parts.map (List.map Prod.fst)), C.node shape (parts.map (List.map Prod.snd)))
  query q ctes body orderBy limits fetch others :=
    (A.query q (ctes.map Prod.fst) body.1 (orderBy.map Prod.fst) (limits.map Prod.fst) (fetch.map Prod.fst)
        (others.map Prod.fst),
      C.query q (ctes.map Prod.snd) body.2 (orderBy.map Prod.snd) (limits.map Prod.snd) (fetch.map Prod.snd)
        (others.map Prod.snd))

theorem prod_fst (A : Algebra M) (C : Algebra N) : IsHom Prod.fst (A.prod C) A :=
  ⟨fun _ _ => rfl, fun _ _ _ _ _ _ _ => rfl⟩

theorem prod_snd (A : Algebra M) (C : Algebra N) : IsHom Prod.snd (A.prod C) C :=
  ⟨fun _ _ => rfl, fun _ _ _ _ _ _ _ => rfl⟩

end hom

/-! ## The passes are one visit -/

section visit

variable {v w u : VisitorMut} (U : UnicodeCase)

theorem Natural.andThen (hv : Natural v u) (hw : Natural w u) : Natural (v.andThen w) u where
  expr e := by
    show (w.postVisitExpr (v.postVisitExpr e)).descend u = w.postVisitExpr (v.postVisitExpr (e.descend u))
    rw [hw.expr, hv.expr]
  query q := by
    show (w.postVisitQuery (v.postVisitQuery q)).descend u = w.postVisitQuery (v.postVisitQuery (q.descend u))
    rw [hw.query, hv.query]

/-- The four passes, node by node. -/
def rewriter : VisitorMut :=
  ((castRewriter.andThen ilikeRewriter).andThen (functionRenamer U)).andThen limitOffsetRewriter

theorem rewriteStatement_eq_accept (s : Statement) : rewriteStatement U s = s.accept (rewriter U) := by
  have hcast := (castRewriter_natural ilikeRewriter).fuses
  have hcalls : Natural (castRewriter.andThen ilikeRewriter) (functionRenamer U) :=
    (castRewriter_natural _).andThen (ilikeRewriter_natural (functionRenamer_tame U))
  have hlimits : Natural ((castRewriter.andThen ilikeRewriter).andThen (functionRenamer U)) limitOffsetRewriter :=
    ((castRewriter_natural _).andThen (ilikeRewriter_natural limitOffsetRewriter_tame)).andThen
      (functionRenamer_natural U _)
  rw [rewriteStatement, s.accept_accept hcast, s.accept_accept hcalls.fuses, s.accept_accept hlimits.fuses]
  rfl

theorem rewriter_function (name : ObjectName) (args : FunctionArguments) (rest : List Expr) :
    (rewriter U).postVisitExpr (.function name args rest) = .function (renamedCall U args name) args rest :=
  functionRenamer_function U name args rest

end visit

/-! ## What is translated -/

/-- The two readings of an escape agree on the pattern. -/
def keepsEscape (F : CaseFold) (p : Text) (escape : Option Literal) : Bool := (escapeOf escape).all (keepsPattern F p)

/-- The pattern is a literal, and one that is kept. -/
def keepsLiteral (F : CaseFold) (escape : Option Literal) : Option Text → Bool
  | some p => keepsEscape F p escape
  | none => false

/-- What a node of this shape asks of its parts, which are given by the literals among them. -/
def Shape.kept (F : CaseFold) : Shape → List (List (Option Text)) → Bool
  | .cast _ dataType, _ => !dataType.isArray
  | .function name, _ => !isStringAgg name
  | .like _ _ escape, [[_], [p]] => keepsLiteral noFold escape p
  | .ilike _ _ escape, [[_], [p]] => keepsLiteral F escape p
  | _, _ => true

def Shape.literal : Shape → Option Text
  | .value (.singleQuotedString s) => some s
  | _ => none

/-- The literal a node is, and whether everything in it is translated. -/
def translation (F : CaseFold) : Algebra (Option Text × Bool) where
  node shape parts := (shape.literal, shape.kept F (parts.map (List.map Prod.fst)) && parts.all (·.all (·.2)))
  query q ctes body orderBy limits fetch others :=
    (none, q.countsWritten && ctes.all (·.2) && body.2 && orderBy.all (·.2) && limits.parts.all (·.2) &&
      fetch.parts.all (·.2) && others.all (·.2))

def Statement.translatable (F : CaseFold) (s : Statement) : Bool := (s.fold (translation F)).2

/-! ## Parts -/

namespace Core

variable {M Env Row : Type} (C : Core M Env Row)

/-- The meaning to PostgreSQL, with the check beside it. -/
def checked : Algebra (Option M × Option Text × Bool) := C.postgresMeaning.prod (translation C.caseFold)

/-- What is translated and has a meaning means the same, and a literal is its text. -/
def Agrees (t : Option M) (n : Option M × Option Text × Bool) : Prop :=
  n.2.2 = true → ∀ m, n.1 = some m → t = some m ∧ ∀ s, n.2.1 = some s → ∀ env, C.text m env = some s

variable {C}

theorem readAll_agree {ts : List (Option M)} {ns : List (Option M × Option Text × Bool)} {ms : List M}
    (h : List.Forall₂ C.Agrees ts ns) (hall : (ns.map Prod.snd).all (·.2) = true)
    (hread : readAll (ns.map Prod.fst) = some ms) : readAll ts = some ms := by
  induction h generalizing ms with
  | nil => exact hread
  | cons hhead _ ih =>
    rw [List.map_cons, List.all_cons, Bool.and_eq_true] at hall
    rw [List.map_cons, readAll, Option.bind_eq_some_iff] at hread
    obtain ⟨m, hm, hrest⟩ := hread
    obtain ⟨ms', hms, rfl⟩ := Option.map_eq_some_iff.mp hrest
    rw [readAll, (hhead hall.1 m hm).1, Option.bind_some, ih hall.2 hms, Option.map_some]

theorem readParts_agree {parts : List (List (Option M))} {parts' : List (List (Option M × Option Text × Bool))}
    {ms : List (List M)} (h : List.Forall₂ (List.Forall₂ C.Agrees) parts parts')
    (hall : (parts'.map (List.map Prod.snd)).all (·.all (·.2)) = true)
    (hread : readParts (parts'.map (List.map Prod.fst)) = some ms) : readParts parts = some ms := by
  induction h generalizing ms with
  | nil => exact hread
  | cons hhead _ ih =>
    rw [List.map_cons, List.all_cons, Bool.and_eq_true] at hall
    rw [List.map_cons, readParts, Option.bind_eq_some_iff] at hread
    obtain ⟨m, hm, hrest⟩ := hread
    obtain ⟨ms', hms, rfl⟩ := Option.map_eq_some_iff.mp hrest
    rw [readParts, readAll_agree hhead hall.1 hm, Option.bind_some, ih hall.2 hms, Option.map_some]

theorem readOptional_agree {o : Option (Option M)} {o' : Option (Option M × Option Text × Bool)} {m : Option M}
    (h : Option.Rel C.Agrees o o') (hall : (o'.map Prod.snd).toList.all (·.2) = true)
    (hread : readOptional (o'.map Prod.fst) = some m) : readOptional o = some m := by
  cases h with
  | none => exact hread
  | some h =>
    have hok := List.all_eq_true.mp hall _ (List.mem_singleton_self _)
    obtain ⟨m', hm, rfl⟩ := Option.map_eq_some_iff.mp hread
    rw [readOptional, (h hok m' hm).1, Option.map_some]

theorem limits_agree {l : Limits (Option M)} {l' : Limits (Option M × Option Text × Bool)} {ms : Limits M}
    (h : Limits.Rel C.Agrees l l') (hall : (l'.map Prod.snd).parts.all (·.2) = true)
    (hread : (l'.map Prod.fst).read = some ms) : l.read = some ms := by
  cases h with
  | absent => exact hread
  | limitOffset hlimit hoffset hby =>
    simp only [Limits.map, Limits.parts, List.all_append, Bool.and_eq_true] at hall
    simp only [Limits.map, Limits.read, Option.bind_eq_some_iff] at hread
    obtain ⟨limit, hl, offset, ho, hrest⟩ := hread
    obtain ⟨limitBy, hb, rfl⟩ := Option.map_eq_some_iff.mp hrest
    simp only [Limits.read, readOptional_agree hlimit hall.1.1 hl, readOptional_agree hoffset hall.1.2 ho,
      readAll_agree hby hall.2 hb, Option.bind_some, Option.map_some]
  | offsetCommaLimit hoffset hlimit =>
    simp only [Limits.map, Limits.parts, List.all_cons, List.all_nil, Bool.and_true, Bool.and_eq_true] at hall
    simp only [Limits.map, Limits.read, Option.bind_eq_some_iff] at hread
    obtain ⟨offset, ho, hrest⟩ := hread
    obtain ⟨limit, hl, rfl⟩ := Option.map_eq_some_iff.mp hrest
    simp only [Limits.read, (hoffset hall.1 _ ho).1, (hlimit hall.2 _ hl).1, Option.bind_some, Option.map_some]

theorem fetched_agree {f : Fetched (Option M)} {f' : Fetched (Option M × Option Text × Bool)} {ms : Fetched M}
    (h : Fetched.Rel C.Agrees f f') (hall : (f'.map Prod.snd).parts.all (·.2) = true)
    (hread : (f'.map Prod.fst).read = some ms) : f.read = some ms := by
  cases h with
  | absent => exact hread
  | rows withTies percent hquantity =>
    obtain ⟨quantity, hq, rfl⟩ := Option.map_eq_some_iff.mp hread
    simp only [Fetched.read, readOptional_agree hquantity hall hq, Option.map_some]

theorem clauses_read_iff {o : Clauses (Option M)} {c : Clauses M} :
    o.read = some c ↔ readAll o.ctes = some c.ctes ∧ o.body = some c.body ∧ readAll o.orderBy = some c.orderBy ∧
      o.limits.read = some c.limits ∧ o.fetch.read = some c.fetch ∧ readAll o.others = some c.others := by
  constructor
  · intro h
    simp only [Clauses.read, Option.bind_eq_some_iff] at h
    obtain ⟨ctes, h₁, body, h₂, orderBy, h₃, limits, h₄, fetch, h₅, hrest⟩ := h
    obtain ⟨others, h₆, rfl⟩ := Option.map_eq_some_iff.mp hrest
    exact ⟨h₁, h₂, h₃, h₄, h₅, h₆⟩
  · rintro ⟨h₁, h₂, h₃, h₄, h₅, h₆⟩
    simp only [Clauses.read, h₁, h₂, h₃, h₄, h₅, h₆, Option.bind_some, Option.map_some]

/-- The clauses a query has in PostgreSQL are those it has in Trino. -/
theorem clauses_agree {q' q : Query} {c : Clauses M} (h : ClausesRel C.Agrees C.trinoMeaning C.checked q' q)
    (hok : (q.fold C.checked).2.2 = true) (hread : (q.clauses C.postgresMeaning).read = some c) :
    (q'.clauses C.trinoMeaning).read = some c := by
  cases h with
  | @mk ctes ctes' body body' orderBy orderBy' limitClause limitClause' fetch fetch' others others' hctes hbody horder
      hlimits hfetch hothers =>
    have hfst := prod_fst C.postgresMeaning (translation C.caseFold)
    have hand : ((Query.mk ctes' body' orderBy' limitClause' fetch' others').countsWritten &&
      ((foldQueries C.checked ctes').map Prod.snd).all (·.2) && (body'.fold C.checked).2.2 &&
      ((foldExprs C.checked orderBy').map Prod.snd).all (·.2) &&
      ((limitClause'.fold C.checked).map Prod.snd).parts.all (·.2) &&
      ((fetch'.fold C.checked).map Prod.snd).parts.all (·.2) &&
      ((foldClauses C.checked others').map Prod.snd).all (·.2)) = true := hok
    simp only [Bool.and_eq_true, and_assoc] at hand
    obtain ⟨-, okCtes, okBody, okOrder, okLimits, okFetch, okOthers⟩ := hand
    simp only [clauses_read_iff, Query.clauses, ← foldQueries_hom hfst, ← SetExpr.fold_hom hfst, ← foldExprs_hom hfst,
      ← LimitClause.fold_hom hfst, ← Fetch.fold_hom hfst, ← foldClauses_hom hfst] at hread
    obtain ⟨h₁, h₂, h₃, h₄, h₅, h₆⟩ := hread
    exact clauses_read_iff.mpr ⟨readAll_agree hctes okCtes h₁, (hbody okBody _ h₂).1, readAll_agree horder okOrder h₃,
      limits_agree hlimits okLimits h₄, fetched_agree hfetch okFetch h₅, readAll_agree hothers okOthers h₆⟩

/-! ## Nodes -/

theorem node_checked {shape : Shape} {parts : List (List (Option M × Option Text × Bool))}
    (h : (C.checked.node shape parts).2.2 = true) :
    shape.kept C.caseFold ((parts.map (List.map Prod.snd)).map (List.map Prod.fst)) = true ∧
      (parts.map (List.map Prod.snd)).all (·.all (·.2)) = true :=
  Bool.and_eq_true_iff.mp h

variable {parts : List (List (Option M))} {parts' : List (List (Option M × Option Text × Bool))}

/-- A node whose parts agree: it is enough to look at the values the parts are read as. -/
theorem agrees_node {shape shape' : Shape} (hliteral : shape.literal = none)
    (h : List.Forall₂ (List.Forall₂ C.Agrees) parts parts')
    (hnode : shape.kept C.caseFold ((parts'.map (List.map Prod.snd)).map (List.map Prod.fst)) = true →
      ∀ ms m, readParts parts = some ms → C.postgresNode shape ms = some m → C.trinoNode shape' ms = some m) :
    C.Agrees (C.trinoMeaning.node shape' parts) (C.checked.node shape parts') := by
  intro hok m hm
  obtain ⟨hkept, hall⟩ := node_checked hok
  obtain ⟨ms, hread, hpostgres⟩ := Option.bind_eq_some_iff.mp hm
  have hread' := readParts_agree h hall hread
  refine ⟨?_, fun s hs => ?_⟩
  · show (readParts parts).bind (C.trinoNode shape') = some m
    rw [hread', Option.bind_some]
    exact hnode hkept ms m hread' hpostgres
  · have hs : shape.literal = some s := hs
    rw [hliteral] at hs
    cases hs

theorem postgresNode_same {shape : Shape} (h : shape.differs = false) (ms : List (List M)) :
    C.postgresNode shape ms = C.sharedNode shape ms ∧ C.trinoNode shape ms = C.sharedNode shape ms := by
  cases shape <;> first | exact ⟨rfl, rfl⟩ | cases h

theorem agrees_same {shape : Shape} (hsame : shape.differs = false) (hliteral : shape.literal = none)
    (h : List.Forall₂ (List.Forall₂ C.Agrees) parts parts') :
    C.Agrees (C.trinoMeaning.node shape parts) (C.checked.node shape parts') := by
  refine agrees_node hliteral h ?_
  intro _ ms m _ hm
  obtain ⟨hpostgres, htrino⟩ := postgresNode_same (C := C) hsame ms
  rw [htrino, ← hpostgres, hm]

theorem sharedNode_eq {shape : Shape} {ms : List (List M)} {m : M} (h : C.sharedNode shape ms = some m) :
    m = C.node shape ms :=
  (Option.some.inj (Option.ite_none_right_eq_some.mp h).2).symm

theorem agrees_value (l : Literal) : C.Agrees (C.trinoMeaning.node (.value l) []) (C.checked.node (.value l) []) := by
  intro _ m hm
  have hm : C.sharedNode (.value l) [] = some m := hm
  refine ⟨hm, ?_⟩
  intro s hs env
  rw [sharedNode_eq hm]
  match l, hs with
  | .singleQuotedString _, rfl => exact C.text_literal s env

theorem agrees_cast (kind : CastKind) (dataType : DataType) (h : List.Forall₂ (List.Forall₂ C.Agrees) parts parts') :
    C.Agrees (C.trinoMeaning.node (.cast (if kind = .doubleColon then .cast else kind) (normalizeDataType dataType)) parts)
      (C.checked.node (.cast kind dataType) parts') := by
  refine agrees_node rfl h ?_
  intro hkept ms m _ hm
  have harray : dataType.isArray = false := by simpa [Shape.kept] using hkept
  match ms with
  | [[m₀]] =>
    obtain ⟨mode, hmode, hcast⟩ := Option.bind_eq_some_iff.mp hm
    obtain ⟨σ, hσ, rfl⟩ := Option.map_eq_some_iff.mp hcast
    simp only [trinoNode, trinoCast_rewritten hmode, trinoType_normalize hσ harray, Option.bind_some, Option.map_some]
  | [] | [[]] | (_ :: _ :: _) :: _ | [_] :: _ :: _ | [] :: _ :: _ => cases hm

/-! ### Calls -/

theorem readAll_length : ∀ {os : List (Option M)} {ms : List M}, readAll os = some ms → ms.length = os.length
  | [], ms, h => by
    cases h
    rfl
  | o :: os, ms, h => by
    obtain ⟨m, -, hrest⟩ := Option.bind_eq_some_iff.mp h
    obtain ⟨ms', hms, rfl⟩ := Option.map_eq_some_iff.mp hrest
    rw [List.length_cons, List.length_cons, readAll_length hms]

theorem readParts_one {os : List (Option M)} {ms : List (List M)} (h : readParts [os] = some ms) :
    ∃ m, readAll os = some m ∧ ms = [m] := by
  obtain ⟨m, hm, hrest⟩ := Option.bind_eq_some_iff.mp h
  obtain ⟨ms', hms, rfl⟩ := Option.map_eq_some_iff.mp hrest
  cases hms
  exact ⟨m, hm, rfl⟩

theorem readAll_one {o : Option M} {ms : List M} (h : readAll [o] = some ms) : ∃ m, o = some m ∧ ms = [m] := by
  obtain ⟨m, hm, hrest⟩ := Option.bind_eq_some_iff.mp h
  obtain ⟨ms', hms, rfl⟩ := Option.map_eq_some_iff.mp hrest
  cases hms
  exact ⟨m, hm, rfl⟩

theorem foldArgs_length (A : Algebra (Option M)) (args : List FunctionArg) : (foldArgs A args).length = args.length := by
  induction args with
  | nil => rfl
  | cons arg args ih => rw [foldArgs, List.length_cons, ih, List.length_cons]

theorem arity_fold {args : FunctionArguments} {a : M} (h : args.fold C.trinoMeaning = some a) :
    C.arity a = args.count := by
  cases args with
  | none =>
    rw [sharedNode_eq (show C.sharedNode .noArguments [] = some a from h)]
    exact C.arity_none
  | subquery query =>
    obtain ⟨ms, hms, ha⟩ := Option.bind_eq_some_iff.mp h
    obtain ⟨_, hone, rfl⟩ := readParts_one hms
    obtain ⟨m, -, rfl⟩ := readAll_one hone
    rw [sharedNode_eq (show C.sharedNode .subqueryArgument [[m]] = some a from ha)]
    exact C.arity_subquery m
  | list args =>
    obtain ⟨ms, hms, ha⟩ := Option.bind_eq_some_iff.mp h
    obtain ⟨ms, hargs, rfl⟩ := readParts_one hms
    rw [sharedNode_eq (show C.sharedNode .argumentList [ms] = some a from ha), C.arity_list, readAll_length hargs]
    exact foldArgs_length _ args

theorem agrees_call (U : UnicodeCase) (name : ObjectName) (args : FunctionArguments) {rest : List (Option M)}
    (h : List.Forall₂ (List.Forall₂ C.Agrees) [[args.fold C.trinoMeaning], rest] parts') :
    C.Agrees (C.trinoMeaning.node (.function (renamedCall U args name)) [[args.fold C.trinoMeaning], rest])
      (C.checked.node (.function name) parts') := by
  refine agrees_node rfl h ?_
  intro hkept ms m hread hm
  obtain ⟨as, has, hrest⟩ := Option.bind_eq_some_iff.mp hread
  obtain ⟨_, hms, rfl⟩ := Option.map_eq_some_iff.mp hrest
  obtain ⟨rest', -, rfl⟩ := readParts_one hms
  obtain ⟨a, ha, rfl⟩ := readAll_one has
  obtain ⟨f, hf, rfl⟩ := Option.map_eq_some_iff.mp hm
  rw [arity_fold ha] at hf
  have hagg : f ≠ .stringAgg := by
    rintro rfl
    simp [Shape.kept, isStringAgg_of_found hf] at hkept
  show (trinoFunction C.functions (renamedCall U args name) (C.arity a)).map _ = _
  rw [arity_fold ha, trinoFunction_renamed U hf hagg, Option.map_some]

/-! ### Patterns -/

theorem predicate_agrees {F : CaseFold} {p : Text} {escape : Option Literal} (h : keepsEscape F p escape = true)
    (unfinished : UnfinishedPattern) (negated : Bool) (x : Text) :
    trinoPredicate (.like negated false escape) (x.map F.fold) (p.map F.fold) =
      postgresPredicate F unfinished (.ilike negated false escape) x p := by
  rw [trinoPredicate, postgresPredicate]
  cases hescape : escapeOf escape with
  | none => rfl
  | some e =>
    have hpattern : keepsPattern F p e = true := by simpa [keepsEscape, hescape] using h
    rw [Option.bind_some, Option.bind_some, (text_agrees_iff F unfinished p e).mpr hpattern x]

/-- The two engines agree on a comparison with a literal the check lets through. -/
theorem compare_agrees {F : CaseFold} {p : Text} {escape : Option Literal} (h : keepsEscape F p escape = true)
    (unfinished : UnfinishedPattern) (negated : Bool) (x : Option Text) :
    compareTexts (trinoPredicate (.like negated false escape)) (x.map (List.map F.fold)) (some (p.map F.fold)) =
      compareTexts (postgresPredicate F unfinished (.ilike negated false escape)) x (some p) := by
  cases x with
  | none => rfl
  | some x => exact congrArg some (predicate_agrees h unfinished negated x)

variable {x p : Option M} {x' p' : Option M × Option Text × Bool}

/-- The parts of a comparison with a literal. -/
theorem pattern_read {ms : List (List M)} {t : Text} (h : List.Forall₂ (List.Forall₂ C.Agrees) [[x], [p]] [[x'], [p']])
    (hall : ([[x'], [p']].map (List.map Prod.snd)).all (·.all (·.2)) = true)
    (hread : readParts ([[x'], [p']].map (List.map Prod.fst)) = some ms) (ht : p'.2.1 = some t) :
    ∃ mx mp, ms = [[mx], [mp]] ∧ x = some mx ∧ p = some mp ∧ ∀ env, C.text mp env = some t := by
  simp only [List.map_cons, List.map_nil, List.all_cons, List.all_nil, Bool.and_true, Bool.and_eq_true] at hall
  obtain ⟨_, hx, hrest⟩ := Option.bind_eq_some_iff.mp hread
  obtain ⟨_, hms, rfl⟩ := Option.map_eq_some_iff.mp hrest
  obtain ⟨_, hp, rfl⟩ := readParts_one hms
  obtain ⟨mx, hmx, rfl⟩ := readAll_one hx
  obtain ⟨mp, hmp, rfl⟩ := readAll_one hp
  simp only [List.forall₂_cons, List.Forall₂.nil, and_true] at h
  exact ⟨mx, mp, rfl, (h.1 hall.1 mx hmx).1, (h.2 hall.2 mp hmp).1, (h.2 hall.2 mp hmp).2 t ht⟩

/-- A comparison of PostgreSQL that folds with `F`, and one of Trino with both sides folded. -/
theorem agrees_pattern {shape : Shape} {F : CaseFold} {negated : Bool} {escape : Option Literal} {t : Option M}
    (h : List.Forall₂ (List.Forall₂ C.Agrees) [[x], [p]] [[x'], [p']]) (hliteral : shape.literal = none)
    (hkept : shape.kept C.caseFold [[x'.2.1], [p'.2.1]] = keepsLiteral F escape p'.2.1)
    (hpostgres : ∀ mx mp m, C.postgresNode shape [[mx], [mp]] = some m →
      m = C.compare (postgresPredicate F C.unfinished (.ilike negated false escape)) mx mp)
    (htrino : ∀ mx mp, x = some mx → p = some mp → ∃ lx lp,
      t = some (C.compare (trinoPredicate (.like negated false escape)) lx lp) ∧
      (∀ env, C.text lx env = (C.text mx env).map (List.map F.fold)) ∧
      ∀ env, C.text lp env = (C.text mp env).map (List.map F.fold)) :
    C.Agrees t (C.checked.node shape [[x'], [p']]) := by
  intro hok m hm
  obtain ⟨hkeeps, hall⟩ := node_checked hok
  obtain ⟨ms, hread, hm⟩ := Option.bind_eq_some_iff.mp hm
  have hkeeps : keepsLiteral F escape p'.2.1 = true := hkept.symm.trans hkeeps
  cases hpattern : p'.2.1 with
  | none =>
    rw [hpattern] at hkeeps
    cases hkeeps
  | some s =>
    rw [hpattern] at hkeeps
    obtain ⟨mx, mp, rfl, hx, hp, htext⟩ := pattern_read h hall hread hpattern
    obtain ⟨lx, lp, rfl, hlx, hlp⟩ := htrino mx mp hx hp
    refine ⟨?_, fun s hs => ?_⟩
    · rw [hpostgres mx mp m hm, compare, compare]
      congr 2
      funext env
      rw [hlx, hlp, htext, Option.map_some, compare_agrees hkeeps C.unfinished]
    · have hs : shape.literal = some s := hs
      rw [hliteral] at hs
      cases hs

theorem agrees_like (negated any : Bool) (escape : Option Literal)
    (h : List.Forall₂ (List.Forall₂ C.Agrees) [[x], [p]] [[x'], [p']]) :
    C.Agrees (C.trinoMeaning.node (.like negated any escape) [[x], [p]])
      (C.checked.node (.like negated any escape) [[x'], [p']]) := by
  cases any with
  | true =>
    -- Neither engine has LIKE ANY here.
    refine agrees_node rfl h ?_
    intro _ ms m _ hm
    cases hm
  | false =>
    refine agrees_pattern (F := noFold) h rfl rfl (fun mx mp m hm => (Option.some.inj hm).symm) ?_
    rintro mx mp rfl rfl
    refine ⟨mx, mp, rfl, fun env => ?_, fun env => ?_⟩ <;> simp [noFold]

/-- `lower(m)`, as Trino reads it. -/
theorem lowerCall_fold {e : Expr} {m : M} (h : e.fold C.trinoMeaning = some m) :
    (makeLowerCall e).fold C.trinoMeaning = some (C.call .lower (C.node .argumentList [[C.node .unnamedArg [[m]]]]) []) := by
  have hunnamed : (FunctionArg.unnamed e).fold C.trinoMeaning = some (C.node .unnamedArg [[m]]) := by
    rw [FunctionArg.fold, h]
    exact if_pos ⟨rfl, C.shared_unnamed⟩
  have hlist : (FunctionArguments.list [.unnamed e]).fold C.trinoMeaning =
      some (C.node .argumentList [[C.node .unnamedArg [[m]]]]) := by
    rw [FunctionArguments.fold, foldArgs, foldArgs, hunnamed]
    exact if_pos ⟨rfl, C.shared_list⟩
  rw [makeLowerCall, Expr.fold, hlist]
  show (trinoFunction C.functions _ (C.arity (C.node .argumentList [[C.node .unnamedArg [[m]]]]))).map _ = _
  rw [C.arity_list]
  rfl

theorem agrees_ilike (negated any : Bool) (escape : Option Literal) {e₁ e₂ : Expr}
    (h : List.Forall₂ (List.Forall₂ C.Agrees) [[e₁.fold C.trinoMeaning], [e₂.fold C.trinoMeaning]] [[x'], [p']]) :
    C.Agrees ((Expr.like negated false (makeLowerCall e₁) (makeLowerCall e₂) escape).fold C.trinoMeaning)
      (C.checked.node (.ilike negated any escape) [[x'], [p']]) := by
  cases any with
  | true =>
    intro _ m hm
    obtain ⟨ms, -, hm⟩ := Option.bind_eq_some_iff.mp hm
    cases hm
  | false =>
    refine agrees_pattern (F := C.caseFold) h rfl rfl (fun mx mp m hm => (Option.some.inj hm).symm) ?_
    intro mx mp hx hp
    refine ⟨_, _, ?_, C.text_lower mx, C.text_lower mp⟩
    rw [Expr.fold, lowerCall_fold hx, lowerCall_fold hp]
    rfl

theorem carries_expr (U : UnicodeCase) (e : Expr)
    (h : List.Forall₂ (List.Forall₂ C.Agrees) ((e.descend (rewriter U)).parts C.trinoMeaning) (e.parts C.checked)) :
    C.Agrees (((rewriter U).postVisitExpr (e.descend (rewriter U))).fold C.trinoMeaning) (e.fold C.checked) := by
  cases e with
  | identifier id => exact agrees_same rfl rfl h
  | compoundIdentifier ids => exact agrees_same rfl rfl h
  | value l => exact agrees_value l
  | function name args rest =>
    rw [Expr.descend, rewriter_function]
    exact agrees_call U name (args.accept (rewriter U)) h
  | cast kind expr dataType => exact agrees_cast kind dataType h
  | like negated any expr pattern escapeChar => exact agrees_like negated any escapeChar h
  | ilike negated any expr pattern escapeChar => exact agrees_ilike negated any escapeChar h
  | other label exprs queries => exact agrees_same rfl rfl h

/-! ## Queries -/

theorem accept_natural (U : UnicodeCase) {e : Expr} (h : e.isNatural = true) : e.accept (rewriter U) = e := by
  cases e with
  | value l => rfl
  | _ => cases h

theorem acceptOption_natural (U : UnicodeCase) {o : Option Expr} (h : o.all Expr.isNatural = true) :
    acceptOption (rewriter U) o = o := by
  cases o with
  | none => rfl
  | some e => exact congrArg some (accept_natural U h)

/-- The row counts are left as they are. -/
theorem countsWritten_descend (U : UnicodeCase) {q : Query} (h : q.countsWritten = true) :
    (q.descend (rewriter U)).countsWritten = true := by
  obtain ⟨ctes, body, orderBy, limitClause, fetch, others⟩ := q
  rw [Query.countsWritten, Bool.and_eq_true] at h ⊢
  refine ⟨?_, ?_⟩
  · match limitClause, h.1 with
    | .absent, _ => rfl
    | .limitOffset limit offset limitBy, hliteral =>
      obtain ⟨hlimit, hoffset⟩ := Bool.and_eq_true_iff.mp hliteral
      show ((acceptOption (rewriter U) limit).all Expr.isNatural && (acceptOption (rewriter U) offset).all Expr.isNatural) = true
      rw [acceptOption_natural U hlimit, acceptOption_natural U hoffset, hlimit, hoffset]
      rfl
    | .offsetCommaLimit offset limit, hliteral =>
      obtain ⟨hoffset, hlimit⟩ := Bool.and_eq_true_iff.mp hliteral
      show ((offset.accept (rewriter U)).isNatural && (limit.accept (rewriter U)).isNatural) = true
      rw [accept_natural U hoffset, accept_natural U hlimit, hoffset, hlimit]
      rfl
  · match fetch, h.2 with
    | .absent, _ => rfl
    | .rows withTies percent quantity, hwritten =>
      show (Fetch.rows withTies percent (acceptOption (rewriter U) quantity)).written = true
      rw [acceptOption_natural U (Bool.and_eq_true_iff.mp hwritten).1]
      exact hwritten

/-- Moving the limit makes no FETCH FIRST 0. -/
theorem countsWritten_moved {q : Query} (h : q.countsWritten = true) :
    (limitOffsetRewriter.postVisitQuery q).countsWritten = true := by
  obtain ⟨hsame, -⟩ | ⟨ctes, body, orderBy, limit, offset, others, rfl, hq⟩ := postVisitQuery_cases q
  · rw [hsame]
    exact h
  · obtain ⟨hliteral, -⟩ := Bool.and_eq_true_iff.mp h
    obtain ⟨hlimit, hoffset⟩ := Bool.and_eq_true_iff.mp hliteral
    obtain ⟨-, hq⟩ | ⟨hzero, hq⟩ := hq
    · rw [hq]
      simpa [Query.countsWritten, Query.limitClause, Query.fetch, LimitClause.literal, Fetch.written] using hlimit
    · have hpositive : (Fetch.rows false false (some limit)).isZero = false :=
        Bool.eq_false_of_not_eq_true fun h => Bool.false_ne_true (hzero.symm.trans (isZeroLiteral_of_isZero h))
      have hlimit : limit.isNatural = true := hlimit
      have hoffset : offset.isNatural = true := hoffset
      rw [hq]
      simp [Query.countsWritten, Query.limitClause, Query.fetch, LimitClause.literal, Fetch.written, hlimit, hoffset,
        hpositive]

/-- What PostgreSQL does with the limits of a query Trino does as well, but for LIMIT beside OFFSET. -/
theorem trinoLimits_of_postgres {orderBy : List M} {limits : Limits M} {fetch : Fetched M}
    {f : Env → List Row → List Row} (h : C.postgresLimits orderBy limits fetch = some f) :
    C.trinoLimits orderBy limits fetch = some f ∨
      fetch = .absent ∧ ∃ limit offset, limits = .limitOffset (some limit) (some offset) [] := by
  unfold postgresLimits at h
  split at h
  · exact .inl h
  · rename_i limit offset
    match limit, offset with
    | none, none => exact .inl h
    | none, some _ => exact .inl h
    | some _, none => exact .inl h
    | some limit, some offset => exact .inr ⟨rfl, limit, offset, rfl⟩
  · exact .inl h
  · rename_i offset _ _
    cases offset with
    | none => exact .inl h
    | some _ => exact .inl h
  · cases h

theorem fetch_read_absent {A : Algebra (Option M)} {fetch : Fetch} (h : (fetch.fold A).read = some .absent) :
    fetch = .absent := by
  cases fetch with
  | absent => rfl
  | rows withTies percent quantity =>
    obtain ⟨_, -, h⟩ := Option.map_eq_some_iff.mp h
    cases h

theorem limits_read_both {A : Algebra (Option M)} {c : LimitClause} {limit offset : M}
    (h : (c.fold A).read = some (.limitOffset (some limit) (some offset) [])) :
    c.limitBy = [] ∧ c.isComma = false ∧ c.hasLimit = true ∧ c.hasOffset = true := by
  cases c with
  | absent => cases h
  | offsetCommaLimit offset limit =>
    obtain ⟨_, -, hrest⟩ := Option.bind_eq_some_iff.mp h
    obtain ⟨_, -, hrest⟩ := Option.map_eq_some_iff.mp hrest
    cases hrest
  | limitOffset limit' offset' limitBy =>
    obtain ⟨_, hlimit, hrest⟩ := Option.bind_eq_some_iff.mp h
    obtain ⟨_, hoffset, hrest⟩ := Option.bind_eq_some_iff.mp hrest
    obtain ⟨_, hby, hrest⟩ := Option.map_eq_some_iff.mp hrest
    cases hrest
    match limit', offset', limitBy with
    | some _, some _, [] => exact ⟨rfl, rfl, rfl, rfl⟩
    | none, _, _ => cases hlimit
    | some _, none, _ => cases hoffset
    | some _, some _, _ :: _ =>
      have := readAll_length hby
      cases this

theorem limits_read_of_both {A : Algebra (Option M)} {limit offset : Expr} {limits : Limits M}
    (h : ((LimitClause.limitOffset (some limit) (some offset) []).fold A).read = some limits) :
    ∃ l o, limit.fold A = some l ∧ offset.fold A = some o ∧ limits = .limitOffset (some l) (some o) [] := by
  obtain ⟨_, hlimit, hrest⟩ := Option.bind_eq_some_iff.mp h
  obtain ⟨_, hoffset, hrest⟩ := Option.bind_eq_some_iff.mp hrest
  obtain ⟨_, hby, rfl⟩ := Option.map_eq_some_iff.mp hrest
  obtain ⟨l, hl, rfl⟩ := Option.map_eq_some_iff.mp hlimit
  obtain ⟨o, ho, rfl⟩ := Option.map_eq_some_iff.mp hoffset
  cases hby
  exact ⟨l, o, hl, ho, rfl⟩

/-- A LIMIT that is zero asks for no rows. -/
theorem count_zero_fold {limit : Expr} {l : M} (h : isZeroLiteral limit = true) (hl : limit.fold C.trinoMeaning = some l)
    (env : Env) : C.count l env = 0 := by
  obtain ⟨digits, long, v, rfl, -⟩ := isZeroLiteral_small h
  rw [sharedNode_eq (show C.sharedNode (.value (.number digits long)) [] = some l from hl)]
  exact count_zero C.toRowSemantics h env

theorem trinoRows_of {q : Query} {c : Clauses M} {f : Env → List Row → List Row}
    (hclauses : (q.clauses C.trinoMeaning).read = some c) (hcounts : q.countsWritten = true)
    (hlimits : C.trinoLimits c.orderBy c.limits c.fetch = some f) : C.trinoRows q = some (C.limitedRows c f) := by
  show (q.clauses C.trinoMeaning).read.bind (C.trino.rows q) = _
  rw [hclauses, Option.bind_some]
  show (if q.countsWritten = true then _ else _) = _
  rw [if_pos hcounts, hlimits, Option.map_some]

/-- Where the pass moves nothing, Trino has the limits as they are. -/
theorem rows_kept {q : Query} {c : Clauses M} {f : Env → List Row → List Row}
    (hclauses : (q.clauses C.trinoMeaning).read = some c) (hcounts : q.countsWritten = true)
    (hapart : q.fetch = .absent → q.limitClause.limitBy = [] → q.limitClause.isComma = false →
      ¬ (q.limitClause.hasLimit = true ∧ q.limitClause.hasOffset = true))
    (hf : C.postgresLimits c.orderBy c.limits c.fetch = some f) : C.trinoRows q = some (C.limitedRows c f) := by
  obtain htrino | ⟨habsent, limit, offset, hboth⟩ := trinoLimits_of_postgres hf
  · exact trinoRows_of hclauses hcounts htrino
  · -- The pass would have moved the limit.
    obtain ⟨ctes, body, orderBy, limitClause, fetch, others⟩ := q
    obtain ⟨-, -, -, hlimits, hfetch, -⟩ := clauses_read_iff.mp hclauses
    rw [habsent] at hfetch
    rw [hboth] at hlimits
    obtain ⟨hby, hcomma, hpair⟩ := limits_read_both hlimits
    exact absurd hpair (hapart (fetch_read_absent hfetch) hby hcomma)

/-- The limits of a query may be moved: if the clauses mean to Trino what they mean to PostgreSQL, it has the same rows. -/
theorem rows_moved {q' q : Query} {c : Clauses M} {rows : Env → List Row}
    (hclauses : (q'.clauses C.trinoMeaning).read = some c) (hcounts : q'.countsWritten = true)
    (hrows : C.postgres.rows q c = some rows) :
    C.trinoRows (limitOffsetRewriter.postVisitQuery q') = some rows := by
  obtain ⟨f, hf, rfl⟩ := Option.map_eq_some_iff.mp hrows
  have hmoved := countsWritten_moved hcounts
  obtain ⟨hsame, hapart⟩ | ⟨ctes, body, orderBy, limit, offset, others, rfl, hq⟩ := postVisitQuery_cases q'
  · rw [hsame]
    exact rows_kept hclauses hcounts hapart hf
  · obtain ⟨hctes, hbody, horder, hlimits, hfetch, hothers⟩ := clauses_read_iff.mp hclauses
    obtain ⟨l, o, hl, ho, hboth⟩ := limits_read_of_both hlimits
    have habsent : c.fetch = .absent := (Option.some.inj hfetch).symm
    have hf : (some fun env rows => C.capped (some l) env (C.skipped (some o) env rows)) = some f := by
      rw [← hf, hboth, habsent]
      rfl
    obtain ⟨hzero, hq⟩ | ⟨-, hq⟩ := hq
    · rw [hq] at hmoved ⊢
      have hread : ((Query.mk ctes body orderBy (.limitOffset (some limit) none []) .absent others).clauses
          C.trinoMeaning).read = some { c with limits := .limitOffset (some l) none [], fetch := .absent } := by
        refine clauses_read_iff.mpr ⟨hctes, hbody, horder, ?_, rfl, hothers⟩
        simp only [Query.clauses, LimitClause.fold, foldOption, foldExprs, hl]
        rfl
      rw [trinoRows_of hread hmoved rfl, ← Option.some.inj hf]
      congr 1
      funext env
      -- Both are empty.
      simp only [limitedRows, RowSemantics.capped, count_zero_fold hzero hl, List.take_zero]
    · rw [hq] at hmoved ⊢
      have hread : ((Query.mk ctes body orderBy (.limitOffset none (some offset) []) (.rows false false (some limit))
          others).clauses C.trinoMeaning).read =
          some { c with limits := .limitOffset none (some o) [], fetch := .rows false false (some l) } := by
        refine clauses_read_iff.mpr ⟨hctes, hbody, horder, ?_, ?_, hothers⟩
        · simp only [Query.clauses, LimitClause.fold, foldOption, foldExprs, ho]
          rfl
        · simp only [Query.clauses, Fetch.fold, foldOption, hl]
          rfl
      rw [trinoRows_of hread hmoved rfl, ← Option.some.inj hf]
      rfl

/-- The rows a query has to PostgreSQL, Trino gives for the query the visit has left. -/
theorem rows_agree (U : UnicodeCase) {q : Query} {rows : Env → List Row}
    (h : ClausesRel C.Agrees C.trinoMeaning C.checked (q.descend (rewriter U)) q) (hok : (q.fold C.checked).2.2 = true)
    (hrows : C.postgresRows q = some rows) :
    C.trinoRows ((rewriter U).postVisitQuery (q.descend (rewriter U))) = some rows := by
  obtain ⟨c, hread, hrows⟩ := Option.bind_eq_some_iff.mp hrows
  have hcounts : q.countsWritten = true := by
    obtain ⟨ctes, body, orderBy, limitClause, fetch, others⟩ := q
    have hand := hok
    simp only [Query.fold, checked, Algebra.prod, translation, Bool.and_eq_true, and_assoc] at hand
    exact hand.1
  exact rows_moved (clauses_agree h hok hread) (countsWritten_descend U hcounts) hrows

theorem carries_query (U : UnicodeCase) (q : Query)
    (h : ClausesRel C.Agrees C.trinoMeaning C.checked (q.descend (rewriter U)) q) :
    C.Agrees (((rewriter U).postVisitQuery (q.descend (rewriter U))).fold C.trinoMeaning) (q.fold C.checked) := by
  intro hok m hm
  have hm : q.fold C.postgresMeaning = some m := by
    rw [← q.fold_hom (prod_fst C.postgresMeaning (translation C.caseFold))]
    exact hm
  obtain ⟨rows, hrows, rfl⟩ := Option.map_eq_some_iff.mp ((C.postgres.query_fold C.query q).symm.trans hm)
  refine ⟨?_, fun s hs => by cases q; cases hs⟩
  have htrino := rows_agree U h hok hrows
  exact (C.trino.query_fold C.query _).trans (congrArg (Option.map C.query) htrino)

/-! ## The whole statement -/

theorem Shape.not_differs {shape : Shape} (h : shape.isExpr = false) :
    shape.differs = false ∧ shape.literal = none := by
  cases shape <;> first | exact ⟨rfl, rfl⟩ | cases h

variable (C) in
theorem carries (U : UnicodeCase) : Carries C.Agrees (rewriter U) C.trinoMeaning C.checked where
  node _ hshape _ _ h := agrees_same (Shape.not_differs hshape).1 (Shape.not_differs hshape).2 h
  expr := carries_expr U
  query := carries_query U

end Core

section statement

variable {M Env Row : Type} (C : Core M Env Row) (U : UnicodeCase)

theorem rows_rewritten {q : Query} {rows : Env → List Row} (h : (Statement.query q).translatable C.caseFold = true)
    (hrows : C.postgresRows q = some rows) : C.trinoRows (q.accept (rewriter U)) = some rows := by
  have hcheck : (q.fold C.checked).2.2 = true := by
    have hnode := (Statement.query q).fold_hom (prod_snd C.postgresMeaning (translation C.caseFold))
    have hquery : ((Statement.query q).fold C.checked).2.2 = true := (congrArg Prod.snd hnode).trans h
    simpa using (Core.node_checked hquery).2
  rw [Query.accept_eq]
  exact Core.rows_agree U (q.clauses_accept (C.carries U)) hcheck hrows

end statement

/-! ## A table of prices -/

/-- A row of the table. -/
structure Item where
  name : Text
  price : Text

def items : List Item := [⟨"Anna".toList, "2.7".toList⟩, ⟨"Bea".toList, "1.2".toList⟩, ⟨"ANTON".toList, "3.9".toList⟩]

/-- Where a query is no part of another. -/
def noItem : Item := ⟨[], []⟩

inductive Cell where
  | null
  | number (q : ℚ)
  | text (t : Text)
  /-- Without a value it is an error. -/
  | truth (b : Option Bool)
  deriving DecidableEq

namespace Cell

def asText : Cell → Option Text
  | text t => some t
  | _ => none

def asCount : Cell → ℕ
  | number q => ⌊q + 1 / 2⌋₊
  | _ => 0

def convert : SqlType → Cell → Cell
  | .double, text t => ((readDecimal t).map number).getD null
  | .double, number q => number q
  | .varchar none, text t => text t
  | _, _ => null

def lower : Cell → Cell
  | text t => text (t.map Char.toLower)
  | _ => null

/-- Towards zero. -/
def truncate : Cell → Cell
  | number q => number (if 0 ≤ q then ⌊q⌋ else ⌈q⌉)
  | _ => null

end Cell

/-- What a node is worth: a cell for each item, or rows of one column. -/
structure Worth where
  cell : Item → Cell
  arity : ℕ
  rows : List Cell

def Worth.ofCell (cell : Item → Cell) : Worth := ⟨cell, 0, []⟩

def Worth.ofRows (rows : List Cell) : Worth := ⟨fun _ => .null, 0, rows⟩

/-- One table, a SELECT of one expression with or without WHERE, and VALUES with rows of one cell. -/
def itemNode : Shape → List (List Worth) → Worth
  | .identifier id, _ => .ofCell fun item =>
    if id.value = "name".toList then .text item.name
    else if id.value = "price".toList then .text item.price
    else .null
  | .value (.number digits _), _ => .ofCell fun _ => .number ((readDecimal digits).getD 0)
  | .value (.singleQuotedString s), _ => .ofCell fun _ => .text s
  | .argumentList, [args] => { args.headD (.ofRows []) with arity := args.length }
  | .unnamedArg, [[m]] => m
  | .unnamedItem, [[m]] => m
  | .selectBody, [[m]] => m
  | .query, [[m]] => m
  | .values, [cells] => .ofRows (cells.map fun m => m.cell noItem)
  | .select, [[], [column], [_], conditions, [], [], [], [], [], [], []] =>
    .ofRows ((items.filter fun item => conditions.all fun m => m.cell item = .truth (some true)).map column.cell)
  | _, _ => .ofRows []

def itemShared : Shape → Bool
  | .identifier _ => true
  | .value _ => true
  | .argumentList => true
  | .unnamedArg => true
  | .unnamedItem => true
  | .selectBody => true
  | .query => true
  | .values => true
  | .select => true
  | .table _ => true
  | _ => false

def itemCall : SqlFunction → Worth → List Worth → Worth
  | .lower, args, _ => .ofCell fun item => (args.cell item).lower
  | .truncate, args, _ => .ofCell fun item => (args.cell item).truncate
  | _, _, _ => .ofRows []

def itemCore : Core Worth Item Cell where
  node := itemNode
  rows _ body _ _ _ := body.rows
  after _ _ rows := rows
  query rows := .ofRows (rows noItem)
  count m item := (m.cell item).asCount
  limitBy _ _ _ _ rows := rows
  fetchOther _ _ _ _ _ rows := rows
  count_number digits long v _ h hv := by
    show |(⌊(readDecimal digits).getD 0 + 1 / 2⌋₊ : ℚ) - v| ≤ 1 / 2
    rw [h, Option.getD_some]
    exact abs_floor_add_half_sub_le hv
  shared := itemShared
  types _ := false
  functions _ _ := false
  caseFold := asciiFold
  unfinished := endsInError
  cast _ σ m := .ofCell fun item => (m.cell item).convert σ
  call := itemCall
  text m item := (m.cell item).asText
  predicate truth := .ofCell fun item => ((truth item).map Cell.truth).getD .null
  arity := Worth.arity
  shared_list := rfl
  shared_unnamed := rfl
  text_literal _ _ := rfl
  text_lower m item := by
    show ((m.cell item).lower).asText = _
    cases m.cell item <;> rfl
  arity_list _ := rfl
  arity_none := rfl
  arity_subquery _ := rfl

/-- `SELECT trunc(price::float8) FROM items WHERE name ILIKE 'a%' LIMIT 1 OFFSET 1` -/
def wholePrices : Query :=
  let name (value : String) : Ident := ⟨value.toList, none⟩
  let number (digits : String) : Expr := .value (.number digits.toList false)
  let column : Expr := .function [.identifier (name "trunc")]
    (.list [.unnamed (.cast .doubleColon (.identifier (name "price")) .float8)]) []
  let condition : Expr := .ilike false false (.identifier (name "name")) (.value (.singleQuotedString "a%".toList)) none
  .mk [] (.select (.mk [] [.unnamedExpr column] [.table [.identifier (name "items")] []] (some condition) [] none
    [] [] [] none [])) [] (.limitOffset (some (number "1")) (some (number "1")) []) .absent []

end TrinoGateway.Sql
