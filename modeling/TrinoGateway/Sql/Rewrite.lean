/-
  TrinoGateway.Sql.Rewrite — the rewriting of a statement for Trino (`src/rewrite/`): four
  passes over the tree (`CastRewriter`, `ILikeRewriter`, `FunctionRenamer`,
  `LimitOffsetRewriter`), each a function of one expression or one query applied at every
  node after the node's children (`VisitorMut` with `post_visit_expr`, `post_visit_query`).
-/

import TrinoGateway.Sql.Ast
import TrinoGateway.Types.Encode

namespace TrinoGateway.Sql

open TrinoGateway.Lib
open TrinoGateway.Types (parseF64)

/-- `sqlparser` with the dialect of PostgreSQL: the parser and the printer. -/
structure Parser where
  parseSql : Text → Option (List Statement)
  toString : Statement → Text

/-! ## The visitor that rewrites -/

/-- What a pass does with a node whose children it has visited. -/
@[ext] structure VisitorMut where
  postVisitExpr : Expr → Expr
  postVisitQuery : Query → Query

mutual

def Expr.accept (v : VisitorMut) : Expr → Expr
  | .identifier id => v.postVisitExpr (.identifier id)
  | .compoundIdentifier ids => v.postVisitExpr (.compoundIdentifier ids)
  | .value l => v.postVisitExpr (.value l)
  | .function name args rest => v.postVisitExpr (.function name (args.accept v) (acceptExprs v rest))
  | .cast kind expr dataType => v.postVisitExpr (.cast kind (expr.accept v) dataType)
  | .like negated any expr pattern escapeChar =>
    v.postVisitExpr (.like negated any (expr.accept v) (pattern.accept v) escapeChar)
  | .ilike negated any expr pattern escapeChar =>
    v.postVisitExpr (.ilike negated any (expr.accept v) (pattern.accept v) escapeChar)
  | .other label exprs queries => v.postVisitExpr (.other label (acceptExprs v exprs) (acceptQueries v queries))

def FunctionArguments.accept (v : VisitorMut) : FunctionArguments → FunctionArguments
  | .none => .none
  | .subquery query => .subquery (query.accept v)
  | .list args => .list (acceptArgs v args)

def FunctionArg.accept (v : VisitorMut) : FunctionArg → FunctionArg
  | .unnamed arg => .unnamed (arg.accept v)
  | .named name arg => .named name (arg.accept v)
  | .exprNamed name arg => .exprNamed (name.accept v) (arg.accept v)
  | .wildcard => .wildcard

def Query.accept (v : VisitorMut) : Query → Query
  | .mk ctes body orderBy limitClause fetch others => v.postVisitQuery
    (.mk (acceptQueries v ctes) (body.accept v) (acceptExprs v orderBy) (limitClause.accept v) (fetch.accept v)
      (acceptClauses v others))

def LimitClause.accept (v : VisitorMut) : LimitClause → LimitClause
  | .absent => .absent
  | .limitOffset limit offset limitBy =>
    .limitOffset (acceptOption v limit) (acceptOption v offset) (acceptExprs v limitBy)
  | .offsetCommaLimit offset limit => .offsetCommaLimit (offset.accept v) (limit.accept v)

def Fetch.accept (v : VisitorMut) : Fetch → Fetch
  | .absent => .absent
  | .rows withTies percent quantity => .rows withTies percent (acceptOption v quantity)

def SetExpr.accept (v : VisitorMut) : SetExpr → SetExpr
  | .select select => .select (select.accept v)
  | .query query => .query (query.accept v)
  | .setOperation op left right => .setOperation op (left.accept v) (right.accept v)
  | .values cells => .values (acceptExprs v cells)
  | .statement statement => .statement (statement.accept v)
  | .table name => .table name

def Select.accept (v : VisitorMut) : Select → Select
  | .mk modifiers projection tables selection groupBy having clusterBy distributeBy sortBy qualify others =>
    .mk (acceptClauses v modifiers) (acceptItems v projection) (acceptTables v tables) (acceptOption v selection)
      (acceptExprs v groupBy) (acceptOption v having) (acceptExprs v clusterBy) (acceptExprs v distributeBy)
      (acceptExprs v sortBy) (acceptOption v qualify) (acceptClauses v others)

def Clause.accept (v : VisitorMut) : Clause → Clause
  | .mk label writes relations exprs queries =>
    .mk label writes relations (acceptExprs v exprs) (acceptQueries v queries)

def SelectItem.accept (v : VisitorMut) : SelectItem → SelectItem
  | .unnamedExpr expr => .unnamedExpr (expr.accept v)
  | .exprWithAlias expr name => .exprWithAlias (expr.accept v) name
  | .qualifiedWildcard qualifier => .qualifiedWildcard qualifier
  | .wildcard => .wildcard

def TableFactor.accept (v : VisitorMut) : TableFactor → TableFactor
  | .table name args => .table name (acceptExprs v args)
  | .derived query => .derived (query.accept v)
  | .joined tables conditions => .joined (acceptTables v tables) (acceptExprs v conditions)
  | .other label exprs => .other label (acceptExprs v exprs)

def Statement.accept (v : VisitorMut) : Statement → Statement
  | .query query => .query (query.accept v)
  | .write kind targets tables queries exprs =>
    .write kind targets (acceptTables v tables) (acceptQueries v queries) (acceptExprs v exprs)
  | .other label relations queries exprs => .other label relations (acceptQueries v queries) (acceptExprs v exprs)

def acceptExprs (v : VisitorMut) : List Expr → List Expr
  | [] => []
  | e :: es => e.accept v :: acceptExprs v es

def acceptOption (v : VisitorMut) : Option Expr → Option Expr
  | none => none
  | some e => some (e.accept v)

def acceptArgs (v : VisitorMut) : List FunctionArg → List FunctionArg
  | [] => []
  | a :: as => a.accept v :: acceptArgs v as

def acceptQueries (v : VisitorMut) : List Query → List Query
  | [] => []
  | q :: qs => q.accept v :: acceptQueries v qs

def acceptItems (v : VisitorMut) : List SelectItem → List SelectItem
  | [] => []
  | i :: is => i.accept v :: acceptItems v is

def acceptTables (v : VisitorMut) : List TableFactor → List TableFactor
  | [] => []
  | t :: ts => t.accept v :: acceptTables v ts

def acceptClauses (v : VisitorMut) : List Clause → List Clause
  | [] => []
  | c :: cs => c.accept v :: acceptClauses v cs

end

/-! ## The four passes -/

def normalizeDataType : DataType → DataType
  | .text => .varchar none
  | .int2 _ => .smallInt none
  | .int4 _ => .integer none
  | .int8 _ => .bigInt none
  | .float4 => .real
  | .float8 => .doublePrecision
  | .bool => .boolean
  | .bytea => .varbinary none
  | dataType => dataType

def castRewriter : VisitorMut where
  postVisitExpr
    | .cast kind expr dataType =>
      .cast (if kind = .doubleColon then .cast else kind) expr (normalizeDataType dataType)
    | expr => expr
  postVisitQuery := id

/-- `lower(inner)` -/
def makeLowerCall (inner : Expr) : Expr :=
  .function [.identifier ⟨"lower".toList, none⟩] (.list [.unnamed inner]) []

def ilikeRewriter : VisitorMut where
  postVisitExpr
    | .ilike negated _ expr pattern escapeChar =>
      .like negated false (makeLowerCall expr) (makeLowerCall pattern) escapeChar
    | expr => expr
  postVisitQuery := id

def FunctionArguments.count : FunctionArguments → ℕ
  | .list args => args.length
  | _ => 0

/-- The name Trino has for a function of PostgreSQL. -/
def trinoFunctionName (lower : Text) (argCount : ℕ) : Option Text :=
  if lower = "string_agg".toList then some "listagg".toList
  -- With two arguments `log` has a base, in both languages.
  else if lower = "log".toList ∧ argCount = 1 then some "log10".toList
  else if lower = "trunc".toList then some "truncate".toList
  else none

def functionRenamer (U : UnicodeCase) : VisitorMut where
  postVisitExpr
    | .function [.identifier id] args rest =>
      let value := (trinoFunctionName (toLowercase U id.value) args.count).getD id.value
      .function [.identifier { id with value }] args rest
    | expr => expr
  postVisitQuery := id

def isZeroLiteral : Expr → Bool
  | .value (.number digits _) =>
    match parseF64 digits with
    | some (.finite x) => x.val = 0
    | _ => false
  | _ => false

/-- `LIMIT n OFFSET m` becomes `OFFSET m FETCH FIRST n ROWS ONLY`, or `LIMIT 0` if `n` is zero. -/
def limitOffsetRewriter : VisitorMut where
  postVisitExpr := id
  postVisitQuery
    | .mk ctes body orderBy (.limitOffset (some limit) (some offset) []) .absent others =>
      if isZeroLiteral limit then .mk ctes body orderBy (.limitOffset (some limit) none []) .absent others
      else .mk ctes body orderBy (.limitOffset none (some offset) []) (.rows false false (some limit)) others
    | query => query

/-- The statement after the four passes. -/
def rewriteStatement (U : UnicodeCase) (stmt : Statement) : Statement :=
  (((stmt.accept castRewriter).accept ilikeRewriter).accept (functionRenamer U)).accept limitOffsetRewriter

def rewriteSql (P : Parser) (U : UnicodeCase) (sql : Text) : Text :=
  match P.parseSql sql with
  | some [stmt] => P.toString (rewriteStatement U stmt)
  | _ => sql

end TrinoGateway.Sql
