/-
  TrinoGateway.Sql.Inspection — what the gateway asks of a parsed query before it routes it
  (`src/query_inspection.rs`): the relations it names, the functions it calls, whether it is
  a bare `SELECT` of one expression. A text that does not parse has none of these.
-/

import TrinoGateway.Sql.Ast

namespace TrinoGateway.Sql

open TrinoGateway.Lib

structure ParsedQuery where
  parsed : Option (List Statement)

/-- The trailing identifier of a name equals `want`, but for ASCII letter case. -/
def lastIdentEq (parts : ObjectName) (want : Text) : Bool :=
  match parts.getLast?.bind ObjectNamePart.asIdent with
  | some id => decide (CaseVariant id.value want)
  | none => false

namespace ParsedQuery

variable (q : ParsedQuery)

def relations : List ObjectName := (q.parsed.getD []).flatMap Statement.relations

def expressions : List Expr := (q.parsed.getD []).flatMap Statement.expressions

def referencesTable (name : Text) : Bool := q.relations.any (lastIdentEq · name)

/-- The name is unqualified or qualified with `schema`. -/
def qualifiedOk (parts : ObjectName) (schema : Text) : Bool :=
  match parts.length with
  | 0 => false
  | 1 => true
  | n + 2 =>
    match parts[n]?.bind ObjectNamePart.asIdent with
    | some id => decide (CaseVariant id.value schema)
    | none => false

def referencesTableInSchema (schema name : Text) : Bool :=
  q.relations.any fun parts => lastIdentEq parts name && qualifiedOk parts schema

def callsFunction (name : Text) : Bool :=
  q.expressions.any fun
    | .function parts _ _ => lastIdentEq parts name
    | _ => false

def callsFunctionOrKeyword (name : Text) : Bool :=
  q.callsFunction name || q.expressions.any fun
    | .identifier id => decide (CaseVariant id.value name)
    | _ => false

def firstStringLiteralArg : FunctionArguments → Option Text
  | .list (.unnamed (.value (.singleQuotedString s)) :: _)
  | .list (.named _ (.value (.singleQuotedString s)) :: _)
  | .list (.exprNamed _ (.value (.singleQuotedString s)) :: _) => some s
  | _ => none

def functionStringArg (name : Text) : Option Text :=
  q.expressions.findSome? fun
    | .function parts args _ => if lastIdentEq parts name then firstStringLiteralArg args else none
    | _ => none

def returnsRows : Bool :=
  match q.parsed.bind List.head? with
  | some (.query _) => true
  | _ => false

/-- `SELECT` of one item, without the clauses that are looked for. -/
def bareSelect : Option Select :=
  match q.parsed with
  | some [.query (.mk [] (.select (.mk modifiers [item] [] none [] none [] [] [] none others)) [] .absent .absent _)] =>
    some (.mk modifiers [item] [] none [] none [] [] [] none others)
  | _ => none

def isBareScalarSelect : Bool := q.bareSelect.isSome

/-- The name PostgreSQL gives to an expression without an alias. -/
def unnamedSelectName : Expr → Text
  | .identifier id => id.value
  | .compoundIdentifier parts => (parts.getLast?.map Ident.value).getD "?column?".toList
  | .function name _ _ => ((name.getLast?.bind ObjectNamePart.asIdent).map Ident.value).getD "?column?".toList
  | _ => "?column?".toList

def itemName : SelectItem → Text
  | .unnamedExpr expr => unnamedSelectName expr
  | .exprWithAlias _ name => name.value
  | .wildcard => "*".toList
  | .qualifiedWildcard qualifier => qualifier ++ ".*".toList

def selectColumnNames : List Text :=
  match q.parsed.bind List.head? with
  | some (.query (.mk _ (.select (.mk _ projection _ _ _ _ _ _ _ _ _)) _ _ _ _)) => projection.map itemName
  | _ => []

end ParsedQuery

end TrinoGateway.Sql
