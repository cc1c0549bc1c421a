/-
  TrinoGateway.Sql.Passes — the four passes of the rewriter on one tree.

  Each pass changes a node after its children, so two passes in a row visit the nodes the
  first one makes. `Fuses` says that this is one visit: what the second pass does to a
  changed node, its new children included, is a change of the node whose old children the
  second pass has visited (`Statement.accept_accept`). It holds for every pair of the four
  passes, because no pass makes a node another one looks for: the calls of `lower` are
  left alone by all, and no pass makes or changes a literal (`Tame`).

  Proved: `rewrite_idempotent_any_order`, for every statement: the passes give the same tree
  in any order, and rewriting a rewritten tree changes nothing.
-/

import TrinoGateway.Lib.Run
import TrinoGateway.Sql.Rewrite
import TrinoGateway.Types.TypeMap

namespace TrinoGateway.Sql

open TrinoGateway.Lib

/-! ## Two visits are one -/

/-- The children visited, the node itself not. -/
def Expr.descend (v : VisitorMut) : Expr → Expr
  | .function name args rest => .function name (args.accept v) (acceptExprs v rest)
  | .cast kind expr dataType => .cast kind (expr.accept v) dataType
  | .like negated any expr pattern escapeChar => .like negated any (expr.accept v) (pattern.accept v) escapeChar
  | .ilike negated any expr pattern escapeChar => .ilike negated any (expr.accept v) (pattern.accept v) escapeChar
  | .other label exprs queries => .other label (acceptExprs v exprs) (acceptQueries v queries)
  | expr => expr

def Query.descend (v : VisitorMut) : Query → Query
  | .mk ctes body orderBy limitClause fetch others =>
    .mk (acceptQueries v ctes) (body.accept v) (acceptExprs v orderBy) (limitClause.accept v) (fetch.accept v)
      (acceptClauses v others)

variable {v w u : VisitorMut}

theorem Expr.accept_eq (v : VisitorMut) (e : Expr) : e.accept v = v.postVisitExpr (e.descend v) := by
  cases e <;> rfl

theorem Query.accept_eq (v : VisitorMut) (q : Query) : q.accept v = v.postVisitQuery (q.descend v) := by
  cases q
  rfl

/-- Visiting with `v` and then with `w` is visiting with `u`. -/
structure Fuses (v w u : VisitorMut) : Prop where
  expr : ∀ e : Expr, (v.postVisitExpr e).accept w = u.postVisitExpr (e.descend w)
  query : ∀ q : Query, (v.postVisitQuery q).accept w = u.postVisitQuery (q.descend w)

mutual

theorem Expr.accept_accept (h : Fuses v w u) : ∀ e : Expr, (e.accept v).accept w = e.accept u
  | .identifier id => h.expr _
  | .compoundIdentifier ids => h.expr _
  | .value l => h.expr _
  | .function name args rest => by
    rw [Expr.accept, h.expr, Expr.descend, args.accept_accept h, acceptExprs_accept h rest, Expr.accept]
  | .cast kind expr dataType => by
    rw [Expr.accept, h.expr, Expr.descend, expr.accept_accept h, Expr.accept]
  | .like negated any expr pattern escapeChar => by
    rw [Expr.accept, h.expr, Expr.descend, expr.accept_accept h, pattern.accept_accept h, Expr.accept]
  | .ilike negated any expr pattern escapeChar => by
    rw [Expr.accept, h.expr, Expr.descend, expr.accept_accept h, pattern.accept_accept h, Expr.accept]
  | .other label exprs queries => by
    rw [Expr.accept, h.expr, Expr.descend, acceptExprs_accept h exprs, acceptQueries_accept h queries, Expr.accept]

theorem FunctionArguments.accept_accept (h : Fuses v w u) :
    ∀ args : FunctionArguments, (args.accept v).accept w = args.accept u
  | .none => rfl
  | .subquery query => by
    rw [FunctionArguments.accept, FunctionArguments.accept, query.accept_accept h, FunctionArguments.accept]
  | .list args => by
    rw [FunctionArguments.accept, FunctionArguments.accept, acceptArgs_accept h args, FunctionArguments.accept]

theorem FunctionArg.accept_accept (h : Fuses v w u) : ∀ arg : FunctionArg, (arg.accept v).accept w = arg.accept u
  | .unnamed arg => by rw [FunctionArg.accept, FunctionArg.accept, arg.accept_accept h, FunctionArg.accept]
  | .named name arg => by rw [FunctionArg.accept, FunctionArg.accept, arg.accept_accept h, FunctionArg.accept]
  | .exprNamed name arg => by
    rw [FunctionArg.accept, FunctionArg.accept, name.accept_accept h, arg.accept_accept h, FunctionArg.accept]
  | .wildcard => rfl

theorem Query.accept_accept (h : Fuses v w u) : ∀ q : Query, (q.accept v).accept w = q.accept u
  | .mk ctes body orderBy limitClause fetch others => by
    rw [Query.accept, h.query, Query.descend, acceptQueries_accept h ctes, body.accept_accept h,
      acceptExprs_accept h orderBy, limitClause.accept_accept h, fetch.accept_accept h, acceptClauses_accept h others,
      Query.accept]

theorem LimitClause.accept_accept (h : Fuses v w u) : ∀ c : LimitClause, (c.accept v).accept w = c.accept u
  | .absent => rfl
  | .limitOffset limit offset limitBy => by
    rw [LimitClause.accept, LimitClause.accept, acceptOption_accept h limit, acceptOption_accept h offset,
      acceptExprs_accept h limitBy, LimitClause.accept]
  | .offsetCommaLimit offset limit => by
    rw [LimitClause.accept, LimitClause.accept, offset.accept_accept h, limit.accept_accept h, LimitClause.accept]

theorem Fetch.accept_accept (h : Fuses v w u) : ∀ f : Fetch, (f.accept v).accept w = f.accept u
  | .absent => rfl
  | .rows withTies percent quantity => by rw [Fetch.accept, Fetch.accept, acceptOption_accept h quantity, Fetch.accept]

theorem SetExpr.accept_accept (h : Fuses v w u) : ∀ s : SetExpr, (s.accept v).accept w = s.accept u
  | .select select => by rw [SetExpr.accept, SetExpr.accept, select.accept_accept h, SetExpr.accept]
  | .query query => by rw [SetExpr.accept, SetExpr.accept, query.accept_accept h, SetExpr.accept]
  | .setOperation op left right => by
    rw [SetExpr.accept, SetExpr.accept, left.accept_accept h, right.accept_accept h, SetExpr.accept]
  | .values cells => by rw [SetExpr.accept, SetExpr.accept, acceptExprs_accept h cells, SetExpr.accept]
  | .statement statement => by rw [SetExpr.accept, SetExpr.accept, statement.accept_accept h, SetExpr.accept]
  | .table name => rfl

theorem Select.accept_accept (h : Fuses v w u) : ∀ s : Select, (s.accept v).accept w = s.accept u
  | .mk modifiers projection tables selection groupBy having clusterBy distributeBy sortBy qualify others => by
    rw [Select.accept, Select.accept, acceptClauses_accept h modifiers, acceptItems_accept h projection,
      acceptTables_accept h tables, acceptOption_accept h selection, acceptExprs_accept h groupBy,
      acceptOption_accept h having, acceptExprs_accept h clusterBy, acceptExprs_accept h distributeBy,
      acceptExprs_accept h sortBy, acceptOption_accept h qualify, acceptClauses_accept h others, Select.accept]

theorem Clause.accept_accept (h : Fuses v w u) : ∀ c : Clause, (c.accept v).accept w = c.accept u
  | .mk label writes relations exprs queries => by
    rw [Clause.accept, Clause.accept, acceptExprs_accept h exprs, acceptQueries_accept h queries, Clause.accept]

theorem SelectItem.accept_accept (h : Fuses v w u) : ∀ i : SelectItem, (i.accept v).accept w = i.accept u
  | .unnamedExpr expr => by rw [SelectItem.accept, SelectItem.accept, expr.accept_accept h, SelectItem.accept]
  | .exprWithAlias expr name => by rw [SelectItem.accept, SelectItem.accept, expr.accept_accept h, SelectItem.accept]
  | .qualifiedWildcard qualifier => rfl
  | .wildcard => rfl

theorem TableFactor.accept_accept (h : Fuses v w u) : ∀ t : TableFactor, (t.accept v).accept w = t.accept u
  | .table name args => by rw [TableFactor.accept, TableFactor.accept, acceptExprs_accept h args, TableFactor.accept]
  | .derived query => by rw [TableFactor.accept, TableFactor.accept, query.accept_accept h, TableFactor.accept]
  | .joined tables conditions => by
    rw [TableFactor.accept, TableFactor.accept, acceptTables_accept h tables, acceptExprs_accept h conditions,
      TableFactor.accept]
  | .other label exprs => by rw [TableFactor.accept, TableFactor.accept, acceptExprs_accept h exprs, TableFactor.accept]

theorem Statement.accept_accept (h : Fuses v w u) : ∀ s : Statement, (s.accept v).accept w = s.accept u
  | .query query => by rw [Statement.accept, Statement.accept, query.accept_accept h, Statement.accept]
  | .write kind targets tables queries exprs => by
    rw [Statement.accept, Statement.accept, acceptTables_accept h tables, acceptQueries_accept h queries,
      acceptExprs_accept h exprs, Statement.accept]
  | .other label relations queries exprs => by
    rw [Statement.accept, Statement.accept, acceptQueries_accept h queries, acceptExprs_accept h exprs, Statement.accept]

theorem acceptExprs_accept (h : Fuses v w u) : ∀ es : List Expr, acceptExprs w (acceptExprs v es) = acceptExprs u es
  | [] => rfl
  | e :: es => by rw [acceptExprs, acceptExprs, e.accept_accept h, acceptExprs_accept h es, acceptExprs]

theorem acceptOption_accept (h : Fuses v w u) :
    ∀ o : Option Expr, acceptOption w (acceptOption v o) = acceptOption u o
  | none => rfl
  | some e => by rw [acceptOption, acceptOption, e.accept_accept h, acceptOption]

theorem acceptArgs_accept (h : Fuses v w u) : ∀ as : List FunctionArg, acceptArgs w (acceptArgs v as) = acceptArgs u as
  | [] => rfl
  | a :: as => by rw [acceptArgs, acceptArgs, a.accept_accept h, acceptArgs_accept h as, acceptArgs]

theorem acceptQueries_accept (h : Fuses v w u) :
    ∀ qs : List Query, acceptQueries w (acceptQueries v qs) = acceptQueries u qs
  | [] => rfl
  | q :: qs => by rw [acceptQueries, acceptQueries, q.accept_accept h, acceptQueries_accept h qs, acceptQueries]

theorem acceptItems_accept (h : Fuses v w u) : ∀ is : List SelectItem, acceptItems w (acceptItems v is) = acceptItems u is
  | [] => rfl
  | i :: is => by rw [acceptItems, acceptItems, i.accept_accept h, acceptItems_accept h is, acceptItems]

theorem acceptTables_accept (h : Fuses v w u) :
    ∀ ts : List TableFactor, acceptTables w (acceptTables v ts) = acceptTables u ts
  | [] => rfl
  | t :: ts => by rw [acceptTables, acceptTables, t.accept_accept h, acceptTables_accept h ts, acceptTables]

theorem acceptClauses_accept (h : Fuses v w u) :
    ∀ cs : List Clause, acceptClauses w (acceptClauses v cs) = acceptClauses u cs
  | [] => rfl
  | c :: cs => by rw [acceptClauses, acceptClauses, c.accept_accept h, acceptClauses_accept h cs, acceptClauses]

end

/-! ## No pass makes work for another -/

/-- The pass leaves alone the calls `ILikeRewriter` makes, and the zero `LimitOffsetRewriter` looks for. -/
structure Tame (w : VisitorMut) : Prop where
  lower : ∀ e : Expr, w.postVisitExpr (makeLowerCall e) = makeLowerCall e
  zero : ∀ e : Expr, isZeroLiteral (w.postVisitExpr e) = isZeroLiteral e

/-- The pass changes a node in the same way before and after `w` has visited the node's children. -/
structure Natural (v w : VisitorMut) : Prop where
  expr : ∀ e : Expr, (v.postVisitExpr e).descend w = v.postVisitExpr (e.descend w)
  query : ∀ q : Query, (v.postVisitQuery q).descend w = v.postVisitQuery (q.descend w)

def VisitorMut.andThen (v w : VisitorMut) : VisitorMut where
  postVisitExpr e := w.postVisitExpr (v.postVisitExpr e)
  postVisitQuery q := w.postVisitQuery (v.postVisitQuery q)

theorem Natural.fuses (h : Natural v w) : Fuses v w (v.andThen w) where
  expr e := by
    rw [Expr.accept_eq, h.expr]
    rfl
  query q := by
    rw [Query.accept_eq, h.query]
    rfl

theorem Tame.accept_lower (h : Tame w) (e : Expr) : (makeLowerCall e).accept w = makeLowerCall (e.accept w) :=
  h.lower (e.accept w)

theorem isZeroLiteral_descend (w : VisitorMut) (e : Expr) : isZeroLiteral (e.descend w) = isZeroLiteral e := by
  cases e <;> rfl

theorem Tame.accept_zero (h : Tame w) (e : Expr) : isZeroLiteral (e.accept w) = isZeroLiteral e := by
  rw [Expr.accept_eq, h.zero, isZeroLiteral_descend]

theorem acceptArgs_length (w : VisitorMut) (args : List FunctionArg) : (acceptArgs w args).length = args.length := by
  induction args with
  | nil => rfl
  | cons a args ih => rw [acceptArgs, List.length_cons, ih, List.length_cons]

theorem FunctionArguments.count_accept (w : VisitorMut) (args : FunctionArguments) :
    (args.accept w).count = args.count := by
  cases args with
  | none => rfl
  | subquery query => rfl
  | list args => exact acceptArgs_length w args

section passes

variable (U : UnicodeCase)

theorem castRewriter_natural (w : VisitorMut) : Natural castRewriter w where
  expr e := by cases e <;> rfl
  query _ := rfl

theorem ilikeRewriter_natural (h : Tame w) : Natural ilikeRewriter w where
  expr e := by
    cases e with
    | ilike negated any expr pattern escapeChar =>
      show Expr.like negated false ((makeLowerCall expr).accept w) ((makeLowerCall pattern).accept w) escapeChar = _
      rw [h.accept_lower, h.accept_lower]
      rfl
    | _ => rfl
  query _ := rfl

/-- The name a call gets. -/
def renamedCall (args : FunctionArguments) : ObjectName → ObjectName
  | [.identifier id] =>
    [.identifier { id with value := (trinoFunctionName (toLowercase U id.value) args.count).getD id.value }]
  | name => name

theorem functionRenamer_function (name : ObjectName) (args : FunctionArguments) (rest : List Expr) :
    (functionRenamer U).postVisitExpr (.function name args rest) = .function (renamedCall U args name) args rest := by
  unfold functionRenamer renamedCall
  split <;> grind

theorem renamedCall_count {args args' : FunctionArguments} (h : args'.count = args.count) (name : ObjectName) :
    renamedCall U args' name = renamedCall U args name := by
  unfold renamedCall
  rw [h]

theorem functionRenamer_natural (w : VisitorMut) : Natural (functionRenamer U) w where
  expr e := by
    cases e with
    | function name args rest =>
      rw [functionRenamer_function, Expr.descend, Expr.descend, functionRenamer_function,
        renamedCall_count U (args.count_accept w)]
    | _ => rfl
  query _ := rfl

theorem limitOffsetRewriter_natural (h : Tame w) : Natural limitOffsetRewriter w where
  expr _ := rfl
  query q := by
    obtain ⟨ctes, body, orderBy, limitClause, fetch, others⟩ := q
    match limitClause, fetch with
    | .limitOffset (some limit) (some offset) [], .absent =>
      simp only [limitOffsetRewriter, Query.descend, LimitClause.accept, acceptOption, acceptExprs, Fetch.accept,
        h.accept_zero]
      by_cases hzero : isZeroLiteral limit = true
      · rw [if_pos hzero, if_pos hzero]
        rfl
      · rw [if_neg hzero, if_neg hzero]
        rfl
    | .absent, _ => rfl
    | .offsetCommaLimit _ _, _ => rfl
    | .limitOffset none _ _, _ => rfl
    | .limitOffset (some _) none _, _ => rfl
    | .limitOffset (some _) (some _) (_ :: _), _ => rfl
    | .limitOffset (some _) (some _) [], .rows _ _ _ => rfl

theorem trinoFunctionName_fixed {name : Text} (hname : name ∈ ["lower", "listagg", "log10", "truncate"].map String.toList)
    (argCount : ℕ) : trinoFunctionName (toLowercase U name) argCount = none := by
  have hascii : name.all isAscii = true ∧ trinoFunctionName (name.map Char.toLower) argCount = none := by
    simp only [List.map_cons, List.map_nil, List.mem_cons, List.not_mem_nil, or_false] at hname
    obtain rfl | rfl | rfl | rfl := hname <;> exact ⟨by decide, rfl⟩
  rw [toLowercase_ascii U hascii.1, hascii.2]

theorem castRewriter_tame : Tame castRewriter where
  lower _ := rfl
  zero e := by cases e <;> rfl

theorem ilikeRewriter_tame : Tame ilikeRewriter where
  lower _ := rfl
  zero e := by cases e <;> rfl

theorem functionRenamer_tame : Tame (functionRenamer U) where
  lower e := by
    rw [makeLowerCall, functionRenamer_function, renamedCall, trinoFunctionName_fixed U (by decide), Option.getD_none]
  zero e := by
    cases e with
    | function name args rest =>
      rw [functionRenamer_function]
      rfl
    | _ => rfl

theorem limitOffsetRewriter_tame : Tame limitOffsetRewriter where
  lower _ := rfl
  zero _ := rfl

/-! ## The passes commute -/

/-- The order of `rewrite_sql`. -/
def rewritePasses : List VisitorMut := [castRewriter, ilikeRewriter, functionRenamer U, limitOffsetRewriter]

theorem rewriteStatement_eq (stmt : Statement) :
    rewriteStatement U stmt = run (fun s v => s.accept v) stmt (rewritePasses U) := rfl

theorem rewritePasses_tame : ∀ w ∈ rewritePasses U, Tame w := by
  simp only [rewritePasses, List.forall_mem_cons, List.not_mem_nil, false_implies, implies_true, and_true]
  exact ⟨castRewriter_tame, ilikeRewriter_tame, functionRenamer_tame U, limitOffsetRewriter_tame⟩

theorem rewritePasses_natural (h : Tame w) : ∀ v ∈ rewritePasses U, Natural v w := by
  simp only [rewritePasses, List.forall_mem_cons, List.not_mem_nil, false_implies, implies_true, and_true]
  exact ⟨castRewriter_natural w, ilikeRewriter_natural h, functionRenamer_natural U w, limitOffsetRewriter_natural h⟩

theorem andThen_limit (hv : v.postVisitQuery = id) :
    v.andThen limitOffsetRewriter = limitOffsetRewriter.andThen v := by
  ext q
  · rfl
  · simp only [VisitorMut.andThen, hv, id]

theorem castRewriter_andThen_ilike : castRewriter.andThen ilikeRewriter = ilikeRewriter.andThen castRewriter := by
  ext e
  · cases e <;> rfl
  · rfl

theorem castRewriter_andThen_function :
    castRewriter.andThen (functionRenamer U) = (functionRenamer U).andThen castRewriter := by
  ext e
  · cases e with
    | function name args rest =>
      show (functionRenamer U).postVisitExpr (.function name args rest) = castRewriter.postVisitExpr _
      rw [functionRenamer_function]
      rfl
    | _ => rfl
  · rfl

theorem ilikeRewriter_andThen_function :
    ilikeRewriter.andThen (functionRenamer U) = (functionRenamer U).andThen ilikeRewriter := by
  ext e
  · cases e with
    | function name args rest =>
      show (functionRenamer U).postVisitExpr (.function name args rest) = ilikeRewriter.postVisitExpr _
      rw [functionRenamer_function]
      rfl
    | _ => rfl
  · rfl

theorem castRewriter_andThen_self : castRewriter.andThen castRewriter = castRewriter := by
  have hkind : ∀ kind : CastKind, (if (if kind = .doubleColon then .cast else kind) = .doubleColon then .cast
      else if kind = .doubleColon then .cast else kind) = if kind = .doubleColon then CastKind.cast else kind := by
    intro kind
    cases kind <;> rfl
  have htype : ∀ t : DataType, normalizeDataType (normalizeDataType t) = normalizeDataType t := by
    intro t
    cases t <;> rfl
  ext e
  · cases e with
    | cast kind expr dataType => simp only [VisitorMut.andThen, castRewriter, hkind, htype]
    | _ => rfl
  · rfl

theorem ilikeRewriter_andThen_self : ilikeRewriter.andThen ilikeRewriter = ilikeRewriter := by
  ext e
  · cases e <;> rfl
  · rfl

theorem trinoFunctionName_mem {lower value : Text} {argCount : ℕ} (h : trinoFunctionName lower argCount = some value) :
    value ∈ ["lower", "listagg", "log10", "truncate"].map String.toList := by
  unfold trinoFunctionName at h
  split_ifs at h <;> cases h <;> decide

theorem renamedCall_renamedCall (args : FunctionArguments) (name : ObjectName) :
    renamedCall U args (renamedCall U args name) = renamedCall U args name := by
  match name with
  | [.identifier id] =>
    rw [renamedCall]
    cases hnew : trinoFunctionName (toLowercase U id.value) args.count with
    | none => simp only [Option.getD_none, renamedCall, hnew]
    | some value =>
      simp only [Option.getD_some, renamedCall, trinoFunctionName_fixed U (trinoFunctionName_mem hnew), Option.getD_none]
  | [] => rfl
  | [.function _] => rfl
  | .identifier _ :: _ :: _ => rfl
  | .function _ :: _ :: _ => rfl

theorem functionRenamer_andThen_self : (functionRenamer U).andThen (functionRenamer U) = functionRenamer U := by
  ext e
  · cases e with
    | function name args rest =>
      show (functionRenamer U).postVisitExpr ((functionRenamer U).postVisitExpr (.function name args rest)) = _
      rw [functionRenamer_function, functionRenamer_function, renamedCall_renamedCall]
    | _ => rfl
  · rfl

theorem limitOffsetRewriter_andThen_self : limitOffsetRewriter.andThen limitOffsetRewriter = limitOffsetRewriter := by
  ext q
  · rfl
  · -- A query the pass has changed lost its limit or its offset.
    show limitOffsetRewriter.postVisitQuery (limitOffsetRewriter.postVisitQuery q) = _
    unfold limitOffsetRewriter
    grind

theorem rewritePasses_andThen_self : ∀ v ∈ rewritePasses U, v.andThen v = v := by
  simp only [rewritePasses, List.forall_mem_cons, List.not_mem_nil, false_implies, implies_true, and_true]
  exact ⟨castRewriter_andThen_self, ilikeRewriter_andThen_self, functionRenamer_andThen_self U,
    limitOffsetRewriter_andThen_self⟩

theorem rewritePasses_andThen_comm :
    ∀ v ∈ rewritePasses U, ∀ w ∈ rewritePasses U, v.andThen w = w.andThen v := by
  have hpairs : (rewritePasses U).Pairwise fun v w => v.andThen w = w.andThen v := by
    simp only [rewritePasses, List.pairwise_cons, List.forall_mem_cons, List.not_mem_nil, false_implies, implies_true,
      and_true, List.Pairwise.nil]
    exact ⟨⟨castRewriter_andThen_ilike, castRewriter_andThen_function U, andThen_limit rfl⟩,
      ⟨ilikeRewriter_andThen_function U, andThen_limit rfl⟩, andThen_limit rfl⟩
  intro v hv w hw
  by_cases heq : v = w
  · rw [heq]
  · have : Std.Symm fun v w : VisitorMut => v.andThen w = w.andThen v := ⟨fun _ _ h => h.symm⟩
    exact hpairs.forall hv hw heq

theorem accept_rewritePasses (hv : v ∈ rewritePasses U) (hw : w ∈ rewritePasses U) (stmt : Statement) :
    (stmt.accept v).accept w = stmt.accept (v.andThen w) :=
  stmt.accept_accept (rewritePasses_natural U (rewritePasses_tame U w hw) v hv).fuses

theorem accept_comm : ∀ v ∈ rewritePasses U, ∀ w ∈ rewritePasses U, ∀ stmt : Statement,
    (stmt.accept v).accept w = (stmt.accept w).accept v := by
  intro v hv w hw stmt
  rw [accept_rewritePasses U hv hw, accept_rewritePasses U hw hv, rewritePasses_andThen_comm U v hv w hw]

theorem accept_self : ∀ v ∈ rewritePasses U, ∀ stmt : Statement, (stmt.accept v).accept v = stmt.accept v := by
  intro v hv stmt
  rw [accept_rewritePasses U hv hv, rewritePasses_andThen_self U v hv]

/-- Rewriting a rewritten statement changes nothing, and the passes may run in any order. -/
theorem rewrite_idempotent_any_order (stmt : Statement) :
    rewriteStatement U (rewriteStatement U stmt) = rewriteStatement U stmt ∧
      ∀ passes : List VisitorMut, passes.Perm [castRewriter, ilikeRewriter, functionRenamer U, limitOffsetRewriter] →
        passes.foldl (fun s v => s.accept v) stmt = rewriteStatement U stmt := by
  constructor
  · rw [rewriteStatement_eq, rewriteStatement_eq, run_run (accept_comm U) (accept_self U)]
  · intro passes hperm
    rw [rewriteStatement_eq]
    exact (run_perm (accept_comm U) hperm.symm).symm

end passes

/-- `SELECT trunc(a)::int4 FROM t WHERE b::text ILIKE string_agg(c) LIMIT d::int8 OFFSET 2` -/
def everyPass : Statement :=
  let column (name : String) : Expr := .identifier ⟨name.toList, none⟩
  let call (name : String) (arg : Expr) : Expr := .function [.identifier ⟨name.toList, none⟩] (.list [.unnamed arg]) []
  .query (.mk []
    (.select (.mk [] [.unnamedExpr (.cast .doubleColon (call "trunc" (column "a")) (.int4 none))]
      [.table [.identifier ⟨"t".toList, none⟩] []]
      (some (.ilike false false (.cast .doubleColon (column "b") .text) (call "string_agg" (column "c")) none))
      [] none [] [] [] none []))
    []
    (.limitOffset (some (.cast .doubleColon (column "d") (.int8 none))) (some (.value (.number "2".toList false))) [])
    .absent [])

theorem everyPass_reversed :
    [limitOffsetRewriter, functionRenamer Types.asciiOnly, ilikeRewriter, castRewriter].foldl (fun s v => s.accept v)
      everyPass = rewriteStatement Types.asciiOnly everyPass :=
  (rewrite_idempotent_any_order Types.asciiOnly everyPass).2 _ (List.reverse_perm
    [castRewriter, ilikeRewriter, functionRenamer Types.asciiOnly, limitOffsetRewriter])

end TrinoGateway.Sql
