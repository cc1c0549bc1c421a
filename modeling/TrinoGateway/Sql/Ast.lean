/-
  TrinoGateway.Sql.Ast — the part of `sqlparser`'s syntax tree the gateway looks at, and the
  visitor that walks it.

  What the gateway inspects or rewrites has its own constructor; every other expression,
  table or statement is an `other` node, and every other clause a `Clause`, with its label and
  its children, so that nothing below it is lost. A clause that is absent is an empty list, or `absent` where a rewrite
  moves it. `Visited` lists the relation names and the expressions of a statement in the
  order the visitor reaches them, at any depth.
-/

import TrinoGateway.Lib.Text

namespace TrinoGateway.Sql

open TrinoGateway.Lib

structure Ident where
  value : Text
  quoteStyle : Option Char
  deriving DecidableEq, Repr

inductive ObjectNamePart where
  | identifier (id : Ident)
  | function (id : Ident)
  deriving DecidableEq, Repr

def ObjectNamePart.asIdent : ObjectNamePart → Option Ident
  | .identifier id => some id
  | .function _ => none

/-- `catalog.schema.table`, part by part. -/
abbrev ObjectName := List ObjectNamePart

/-- A literal. -/
inductive Literal where
  | number (digits : Text) (long : Bool)
  | singleQuotedString (s : Text)
  | null
  | other (text : Text)
  deriving DecidableEq, Repr

inductive CastKind where
  | cast
  | tryCast
  | safeCast
  | doubleColon
  deriving DecidableEq, Repr

inductive DataType where
  | text
  | int2 (width : Option ℕ)
  | int4 (width : Option ℕ)
  | int8 (width : Option ℕ)
  | float4
  | float8
  | bool
  | bytea
  | varchar (length : Option ℕ)
  | smallInt (width : Option ℕ)
  | integer (width : Option ℕ)
  | bigInt (width : Option ℕ)
  | real
  | doublePrecision
  | boolean
  | varbinary (length : Option ℕ)
  | array (element : DataType)
  | other (text : Text)
  deriving DecidableEq, Repr

/-- The statements that change data or schema. -/
inductive WriteKind where
  | insert | update | delete | merge | create | drop | alter | truncate
  deriving DecidableEq, Repr

mutual

inductive Expr where
  | identifier (id : Ident)
  | compoundIdentifier (ids : List Ident)
  | value (v : Literal)
  /-- A call; `rest` are the expressions of its filter, window and ordering. -/
  | function (name : ObjectName) (args : FunctionArguments) (rest : List Expr)
  | cast (kind : CastKind) (expr : Expr) (dataType : DataType)
  | like (negated any : Bool) (expr pattern : Expr) (escapeChar : Option Literal)
  | ilike (negated any : Bool) (expr pattern : Expr) (escapeChar : Option Literal)
  | other (label : Text) (exprs : List Expr) (queries : List Query)

inductive FunctionArguments where
  | none
  | subquery (query : Query)
  | list (args : List FunctionArg)

inductive FunctionArg where
  | unnamed (arg : Expr)
  | named (name : Ident) (arg : Expr)
  | exprNamed (name arg : Expr)
  | wildcard

inductive Query where
  | mk (ctes : List Query) (body : SetExpr) (orderBy : List Expr) (limitClause : LimitClause) (fetch : Fetch)
      (others : List Clause)

inductive LimitClause where
  | absent
  | limitOffset (limit offset : Option Expr) (limitBy : List Expr)
  | offsetCommaLimit (offset limit : Expr)

inductive Fetch where
  | absent
  | rows (withTies percent : Bool) (quantity : Option Expr)

inductive SetExpr where
  | select (select : Select)
  | query (query : Query)
  | setOperation (op : Text) (left right : SetExpr)
  | values (cells : List Expr)
  /-- A statement that returns rows, such as an `INSERT` in a CTE. -/
  | statement (statement : Statement)
  | table (name : Text)

inductive Select where
  /-- `modifiers` stand before the projection: DISTINCT and TOP. -/
  | mk (modifiers : List Clause) (projection : List SelectItem) (tables : List TableFactor) (selection : Option Expr)
      (groupBy : List Expr) (having : Option Expr) (clusterBy distributeBy sortBy : List Expr) (qualify : Option Expr)
      (others : List Clause)

inductive Clause where
  /-- A clause of which the gateway knows nothing, such as DISTINCT ON, WINDOW or FOR UPDATE; `writes` is set for INTO. -/
  | mk (label : Text) (writes : Bool) (relations : List ObjectName) (exprs : List Expr) (queries : List Query)

inductive SelectItem where
  | unnamedExpr (expr : Expr)
  | exprWithAlias (expr : Expr) (name : Ident)
  /-- The qualifier is as it is printed, with its `.*`. -/
  | qualifiedWildcard (qualifier : Text)
  | wildcard

inductive TableFactor where
  | table (name : ObjectName) (args : List Expr)
  | derived (query : Query)
  /-- Tables joined, with the expressions of their join conditions. -/
  | joined (tables : List TableFactor) (conditions : List Expr)
  | other (label : Text) (exprs : List Expr)

inductive Statement where
  | query (query : Query)
  | write (kind : WriteKind) (targets : List ObjectName) (tables : List TableFactor) (queries : List Query)
      (exprs : List Expr)
  | other (label : Text) (relations : List ObjectName) (queries : List Query) (exprs : List Expr)

end

/-! ## The visitor -/

/-- What the visitor calls back on. -/
inductive Visited where
  | relation (name : ObjectName)
  | expression (expr : Expr)

mutual

def Expr.visit : Expr → List Visited
  | .identifier id => [.expression (.identifier id)]
  | .compoundIdentifier ids => [.expression (.compoundIdentifier ids)]
  | .value v => [.expression (.value v)]
  | .function name args rest => .expression (.function name args rest) :: (args.visit ++ visitExprs rest)
  | .cast kind expr dataType => .expression (.cast kind expr dataType) :: expr.visit
  | .like negated any expr pattern escapeChar =>
    .expression (.like negated any expr pattern escapeChar) :: (expr.visit ++ pattern.visit)
  | .ilike negated any expr pattern escapeChar =>
    .expression (.ilike negated any expr pattern escapeChar) :: (expr.visit ++ pattern.visit)
  | .other label exprs queries => .expression (.other label exprs queries) :: (visitExprs exprs ++ visitQueries queries)

def FunctionArguments.visit : FunctionArguments → List Visited
  | .none => []
  | .subquery query => query.visit
  | .list args => visitArgs args

def FunctionArg.visit : FunctionArg → List Visited
  | .unnamed arg => arg.visit
  | .named _ arg => arg.visit
  | .exprNamed name arg => name.visit ++ arg.visit
  | .wildcard => []

def Query.visit : Query → List Visited
  | .mk ctes body orderBy limitClause fetch others =>
    visitQueries ctes ++ body.visit ++ visitExprs orderBy ++ limitClause.visit ++ fetch.visit ++ visitClauses others

def LimitClause.visit : LimitClause → List Visited
  | .absent => []
  | .limitOffset limit offset limitBy => visitOption limit ++ visitOption offset ++ visitExprs limitBy
  | .offsetCommaLimit offset limit => offset.visit ++ limit.visit

def Fetch.visit : Fetch → List Visited
  | .absent => []
  | .rows _ _ quantity => visitOption quantity

def SetExpr.visit : SetExpr → List Visited
  | .select select => select.visit
  | .query query => query.visit
  | .setOperation _ left right => left.visit ++ right.visit
  | .values cells => visitExprs cells
  | .statement statement => statement.visit
  | .table _ => []

def Select.visit : Select → List Visited
  | .mk modifiers projection tables selection groupBy having clusterBy distributeBy sortBy qualify others =>
    visitClauses modifiers ++ visitItems projection ++ visitTables tables ++ visitOption selection ++
      visitExprs groupBy ++ visitExprs clusterBy ++ visitExprs distributeBy ++ visitExprs sortBy ++
      visitOption having ++ visitOption qualify ++ visitClauses others

def Clause.visit : Clause → List Visited
  | .mk _ _ relations exprs queries => relations.map .relation ++ visitExprs exprs ++ visitQueries queries

def SelectItem.visit : SelectItem → List Visited
  | .unnamedExpr expr => expr.visit
  | .exprWithAlias expr _ => expr.visit
  | .qualifiedWildcard _ => []
  | .wildcard => []

def TableFactor.visit : TableFactor → List Visited
  | .table name args => .relation name :: visitExprs args
  | .derived query => query.visit
  | .joined tables conditions => visitTables tables ++ visitExprs conditions
  | .other _ exprs => visitExprs exprs

def Statement.visit : Statement → List Visited
  | .query query => query.visit
  | .write _ targets tables queries exprs =>
    targets.map .relation ++ visitTables tables ++ visitQueries queries ++ visitExprs exprs
  | .other _ relations queries exprs => relations.map .relation ++ visitQueries queries ++ visitExprs exprs

def visitExprs : List Expr → List Visited
  | [] => []
  | e :: es => e.visit ++ visitExprs es

def visitOption : Option Expr → List Visited
  | none => []
  | some e => e.visit

def visitArgs : List FunctionArg → List Visited
  | [] => []
  | a :: as => a.visit ++ visitArgs as

def visitQueries : List Query → List Visited
  | [] => []
  | q :: qs => q.visit ++ visitQueries qs

def visitItems : List SelectItem → List Visited
  | [] => []
  | i :: is => i.visit ++ visitItems is

def visitTables : List TableFactor → List Visited
  | [] => []
  | t :: ts => t.visit ++ visitTables ts

def visitClauses : List Clause → List Visited
  | [] => []
  | c :: cs => c.visit ++ visitClauses cs

end

def Visited.relation? : Visited → Option ObjectName
  | .relation name => some name
  | .expression _ => none

def Visited.expression? : Visited → Option Expr
  | .relation _ => none
  | .expression expr => some expr

/-- The relation names of a statement, in the order of `visit_relations`; also those of DROP, CREATE VIEW and
    SELECT INTO, which it passes over. -/
def Statement.relations (s : Statement) : List ObjectName := s.visit.filterMap Visited.relation?

/-- The expressions of a statement, in the order of `visit_expressions`. -/
def Statement.expressions (s : Statement) : List Expr := s.visit.filterMap Visited.expression?

end TrinoGateway.Sql
