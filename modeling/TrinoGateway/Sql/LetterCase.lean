/-
  TrinoGateway.Sql.LetterCase — statements up to letter case. A keyword that is used as a name
  keeps the case it was written in, so two texts with the same tokens may parse to trees
  that differ there. `recase` writes everything but string literals in lower case.

  Proved: what the gateway asks of a parsed query does not change under `recase`
  (`referencesTable_recase` and its siblings), because every comparison of names ignores
  the case of ASCII letters.
-/

import TrinoGateway.Sql.Inspection

namespace TrinoGateway.Sql

open TrinoGateway.Lib

/-! ## Lower case everywhere but in literals -/

def lowered (s : Text) : Text := s.map Char.toLower

def Ident.recase (id : Ident) : Ident := { id with value := lowered id.value }

def ObjectNamePart.recase : ObjectNamePart → ObjectNamePart
  | .identifier id => .identifier id.recase
  | .function id => .function id.recase

def ObjectName.recase (name : ObjectName) : ObjectName := name.map ObjectNamePart.recase

def Literal.recase : Literal → Literal
  | .number digits long => .number (lowered digits) long
  | .other text => .other (lowered text)
  | l => l

def DataType.recase : DataType → DataType
  | .array element => .array element.recase
  | .other name => .other (lowered name)
  | dataType => dataType

mutual

def Expr.recase : Expr → Expr
  | .identifier id => .identifier id.recase
  | .compoundIdentifier ids => .compoundIdentifier (ids.map Ident.recase)
  | .value v => .value v.recase
  | .function name args rest => .function (ObjectName.recase name) args.recase (recaseExprs rest)
  | .cast kind expr dataType => .cast kind expr.recase dataType.recase
  | .like negated any expr pattern escapeChar => .like negated any expr.recase pattern.recase escapeChar
  | .ilike negated any expr pattern escapeChar => .ilike negated any expr.recase pattern.recase escapeChar
  | .other label exprs queries => .other (lowered label) (recaseExprs exprs) (recaseQueries queries)

def FunctionArguments.recase : FunctionArguments → FunctionArguments
  | .none => .none
  | .subquery query => .subquery query.recase
  | .list args => .list (recaseArgs args)

def FunctionArg.recase : FunctionArg → FunctionArg
  | .unnamed arg => .unnamed arg.recase
  | .named name arg => .named name.recase arg.recase
  | .exprNamed name arg => .exprNamed name.recase arg.recase
  | .wildcard => .wildcard

def Query.recase : Query → Query
  | .mk ctes body orderBy limitClause fetch others =>
    .mk (recaseQueries ctes) body.recase (recaseExprs orderBy) limitClause.recase fetch.recase (recaseClauses others)

def LimitClause.recase : LimitClause → LimitClause
  | .absent => .absent
  | .limitOffset limit offset limitBy => .limitOffset (recaseOption limit) (recaseOption offset) (recaseExprs limitBy)
  | .offsetCommaLimit offset limit => .offsetCommaLimit offset.recase limit.recase

def Fetch.recase : Fetch → Fetch
  | .absent => .absent
  | .rows withTies percent quantity => .rows withTies percent (recaseOption quantity)

def SetExpr.recase : SetExpr → SetExpr
  | .select select => .select select.recase
  | .query query => .query query.recase
  | .setOperation op left right => .setOperation (lowered op) left.recase right.recase
  | .values cells => .values (recaseExprs cells)
  | .statement statement => .statement statement.recase
  | .table name => .table (lowered name)

def Select.recase : Select → Select
  | .mk modifiers projection tables selection groupBy having clusterBy distributeBy sortBy qualify others =>
    .mk (recaseClauses modifiers) (recaseItems projection) (recaseTables tables) (recaseOption selection)
      (recaseExprs groupBy) (recaseOption having) (recaseExprs clusterBy) (recaseExprs distributeBy) (recaseExprs sortBy)
      (recaseOption qualify) (recaseClauses others)

def Clause.recase : Clause → Clause
  | .mk label writes relations exprs queries =>
    .mk (lowered label) writes (relations.map ObjectName.recase) (recaseExprs exprs) (recaseQueries queries)

def SelectItem.recase : SelectItem → SelectItem
  | .unnamedExpr expr => .unnamedExpr expr.recase
  | .exprWithAlias expr name => .exprWithAlias expr.recase name.recase
  | .qualifiedWildcard qualifier => .qualifiedWildcard (lowered qualifier)
  | .wildcard => .wildcard

def TableFactor.recase : TableFactor → TableFactor
  | .table name args => .table (ObjectName.recase name) (recaseExprs args)
  | .derived query => .derived query.recase
  | .joined tables conditions => .joined (recaseTables tables) (recaseExprs conditions)
  | .other label exprs => .other (lowered label) (recaseExprs exprs)

def Statement.recase : Statement → Statement
  | .query query => .query query.recase
  | .write kind targets tables queries exprs =>
    .write kind (targets.map ObjectName.recase) (recaseTables tables) (recaseQueries queries) (recaseExprs exprs)
  | .other label relations queries exprs =>
    .other (lowered label) (relations.map ObjectName.recase) (recaseQueries queries) (recaseExprs exprs)

def recaseExprs : List Expr → List Expr
  | [] => []
  | e :: es => e.recase :: recaseExprs es

def recaseOption : Option Expr → Option Expr
  | none => none
  | some e => some e.recase

def recaseArgs : List FunctionArg → List FunctionArg
  | [] => []
  | a :: as => a.recase :: recaseArgs as

def recaseQueries : List Query → List Query
  | [] => []
  | q :: qs => q.recase :: recaseQueries qs

def recaseItems : List SelectItem → List SelectItem
  | [] => []
  | i :: is => i.recase :: recaseItems is

def recaseTables : List TableFactor → List TableFactor
  | [] => []
  | t :: ts => t.recase :: recaseTables ts

def recaseClauses : List Clause → List Clause
  | [] => []
  | c :: cs => c.recase :: recaseClauses cs

end

/-! ## The visitor sees the same nodes -/

def Visited.recase : Visited → Visited
  | .relation name => .relation (ObjectName.recase name)
  | .expression expr => .expression expr.recase

theorem map_relation_recase (names : List ObjectName) :
    (names.map Visited.relation).map Visited.recase = (names.map ObjectName.recase).map Visited.relation := by
  rw [List.map_map, List.map_map]
  rfl

mutual

theorem Expr.visit_recase : ∀ e : Expr, e.recase.visit = e.visit.map Visited.recase
  | .identifier id => rfl
  | .compoundIdentifier ids => rfl
  | .value v => rfl
  | .function name args rest => by
    simp only [Expr.recase, Expr.visit, args.visit_recase, visitExprs_recase rest, List.map_cons, List.map_append,
      Visited.recase]
  | .cast kind expr dataType => by
    simp only [Expr.recase, Expr.visit, expr.visit_recase, List.map_cons, Visited.recase]
  | .like negated any expr pattern escapeChar => by
    simp only [Expr.recase, Expr.visit, expr.visit_recase, pattern.visit_recase, List.map_cons, List.map_append,
      Visited.recase]
  | .ilike negated any expr pattern escapeChar => by
    simp only [Expr.recase, Expr.visit, expr.visit_recase, pattern.visit_recase, List.map_cons, List.map_append,
      Visited.recase]
  | .other label exprs queries => by
    simp only [Expr.recase, Expr.visit, visitExprs_recase exprs, visitQueries_recase queries, List.map_cons,
      List.map_append, Visited.recase]

theorem FunctionArguments.visit_recase : ∀ args : FunctionArguments, args.recase.visit = args.visit.map Visited.recase
  | .none => rfl
  | .subquery query => query.visit_recase
  | .list args => visitArgs_recase args

theorem FunctionArg.visit_recase : ∀ arg : FunctionArg, arg.recase.visit = arg.visit.map Visited.recase
  | .unnamed arg => arg.visit_recase
  | .named name arg => arg.visit_recase
  | .exprNamed name arg => by
    simp only [FunctionArg.recase, FunctionArg.visit, name.visit_recase, arg.visit_recase, List.map_append]
  | .wildcard => rfl

theorem Query.visit_recase : ∀ q : Query, q.recase.visit = q.visit.map Visited.recase
  | .mk ctes body orderBy limitClause fetch others => by
    simp only [Query.recase, Query.visit, visitQueries_recase ctes, body.visit_recase, visitExprs_recase orderBy,
      limitClause.visit_recase, fetch.visit_recase, visitClauses_recase others, List.map_append]

theorem LimitClause.visit_recase : ∀ c : LimitClause, c.recase.visit = c.visit.map Visited.recase
  | .absent => rfl
  | .limitOffset limit offset limitBy => by
    simp only [LimitClause.recase, LimitClause.visit, visitOption_recase limit, visitOption_recase offset,
      visitExprs_recase limitBy, List.map_append]
  | .offsetCommaLimit offset limit => by
    simp only [LimitClause.recase, LimitClause.visit, offset.visit_recase, limit.visit_recase, List.map_append]

theorem Fetch.visit_recase : ∀ f : Fetch, f.recase.visit = f.visit.map Visited.recase
  | .absent => rfl
  | .rows _ _ quantity => visitOption_recase quantity

theorem SetExpr.visit_recase : ∀ s : SetExpr, s.recase.visit = s.visit.map Visited.recase
  | .select select => select.visit_recase
  | .query query => query.visit_recase
  | .setOperation op left right => by
    simp only [SetExpr.recase, SetExpr.visit, left.visit_recase, right.visit_recase, List.map_append]
  | .values cells => visitExprs_recase cells
  | .statement statement => statement.visit_recase
  | .table name => rfl

theorem Select.visit_recase : ∀ s : Select, s.recase.visit = s.visit.map Visited.recase
  | .mk modifiers projection tables selection groupBy having clusterBy distributeBy sortBy qualify others => by
    simp only [Select.recase, Select.visit, visitClauses_recase modifiers, visitItems_recase projection,
      visitTables_recase tables, visitOption_recase selection, visitExprs_recase groupBy, visitOption_recase having,
      visitExprs_recase clusterBy, visitExprs_recase distributeBy, visitExprs_recase sortBy, visitOption_recase qualify,
      visitClauses_recase others, List.map_append]

theorem Clause.visit_recase : ∀ c : Clause, c.recase.visit = c.visit.map Visited.recase
  | .mk label writes relations exprs queries => by
    simp only [Clause.recase, Clause.visit, visitExprs_recase exprs, visitQueries_recase queries, List.map_append,
      map_relation_recase]

theorem SelectItem.visit_recase : ∀ i : SelectItem, i.recase.visit = i.visit.map Visited.recase
  | .unnamedExpr expr => expr.visit_recase
  | .exprWithAlias expr _ => expr.visit_recase
  | .qualifiedWildcard _ => rfl
  | .wildcard => rfl

theorem TableFactor.visit_recase : ∀ t : TableFactor, t.recase.visit = t.visit.map Visited.recase
  | .table name args => by
    simp only [TableFactor.recase, TableFactor.visit, visitExprs_recase args, List.map_cons, Visited.recase]
  | .derived query => query.visit_recase
  | .joined tables conditions => by
    simp only [TableFactor.recase, TableFactor.visit, visitTables_recase tables, visitExprs_recase conditions,
      List.map_append]
  | .other label exprs => visitExprs_recase exprs

theorem Statement.visit_recase : ∀ s : Statement, s.recase.visit = s.visit.map Visited.recase
  | .query query => query.visit_recase
  | .write kind targets tables queries exprs => by
    simp only [Statement.recase, Statement.visit, visitTables_recase tables, visitQueries_recase queries,
      visitExprs_recase exprs, List.map_append, map_relation_recase]
  | .other label relations queries exprs => by
    simp only [Statement.recase, Statement.visit, visitQueries_recase queries, visitExprs_recase exprs, List.map_append,
      map_relation_recase]

theorem visitExprs_recase : ∀ es : List Expr, visitExprs (recaseExprs es) = (visitExprs es).map Visited.recase
  | [] => rfl
  | e :: es => by rw [recaseExprs, visitExprs, visitExprs, e.visit_recase, visitExprs_recase es, List.map_append]

theorem visitOption_recase : ∀ o : Option Expr, visitOption (recaseOption o) = (visitOption o).map Visited.recase
  | none => rfl
  | some e => e.visit_recase

theorem visitArgs_recase : ∀ as : List FunctionArg, visitArgs (recaseArgs as) = (visitArgs as).map Visited.recase
  | [] => rfl
  | a :: as => by rw [recaseArgs, visitArgs, visitArgs, a.visit_recase, visitArgs_recase as, List.map_append]

theorem visitQueries_recase : ∀ qs : List Query, visitQueries (recaseQueries qs) = (visitQueries qs).map Visited.recase
  | [] => rfl
  | q :: qs => by rw [recaseQueries, visitQueries, visitQueries, q.visit_recase, visitQueries_recase qs, List.map_append]

theorem visitItems_recase : ∀ is : List SelectItem, visitItems (recaseItems is) = (visitItems is).map Visited.recase
  | [] => rfl
  | i :: is => by rw [recaseItems, visitItems, visitItems, i.visit_recase, visitItems_recase is, List.map_append]

theorem visitTables_recase : ∀ ts : List TableFactor, visitTables (recaseTables ts) = (visitTables ts).map Visited.recase
  | [] => rfl
  | t :: ts => by rw [recaseTables, visitTables, visitTables, t.visit_recase, visitTables_recase ts, List.map_append]

theorem visitClauses_recase :
    ∀ cs : List Clause, visitClauses (recaseClauses cs) = (visitClauses cs).map Visited.recase
  | [] => rfl
  | c :: cs => by rw [recaseClauses, visitClauses, visitClauses, c.visit_recase, visitClauses_recase cs, List.map_append]

end

/-! ## What is asked of a query -/

theorem lowered_lowered (s : Text) : lowered (lowered s) = lowered s := by
  rw [lowered, lowered, List.map_map]
  congr 1
  funext c
  exact Char.toLower_toLower_eq_toLower c

theorem caseVariant_lowered (s t : Text) : CaseVariant (lowered s) t ↔ CaseVariant s t := by
  rw [CaseVariant, CaseVariant, ← lowered, lowered_lowered, lowered]

/-- The part is an identifier that equals `want`, but for letter case. -/
def partIs (want : Text) (part : Option ObjectNamePart) : Bool :=
  match part.bind ObjectNamePart.asIdent with
  | some id => decide (CaseVariant id.value want)
  | none => false

theorem partIs_recase (want : Text) (part : Option ObjectNamePart) :
    partIs want (part.map ObjectNamePart.recase) = partIs want part := by
  cases part with
  | none => rfl
  | some part =>
    cases part with
    | identifier id => exact decide_eq_decide.mpr (caseVariant_lowered id.value want)
    | function id => rfl

theorem lastIdentEq_recase (name : ObjectName) (want : Text) :
    lastIdentEq (ObjectName.recase name) want = lastIdentEq name want := by
  show partIs want (name.map ObjectNamePart.recase).getLast? = partIs want name.getLast?
  rw [List.getLast?_map, partIs_recase]

namespace ParsedQuery

def recase (q : ParsedQuery) : ParsedQuery := ⟨q.parsed.map (·.map Statement.recase)⟩

variable (q : ParsedQuery)

theorem relations_recase : q.recase.relations = q.relations.map ObjectName.recase := by
  cases q with
  | mk parsed =>
    cases parsed with
    | none => rfl
    | some stmts =>
      show (stmts.map Statement.recase).flatMap Statement.relations = (stmts.flatMap Statement.relations).map _
      rw [List.flatMap_map, List.map_flatMap]
      congr 1
      funext stmt
      rw [Statement.relations, Statement.relations, stmt.visit_recase, List.filterMap_map, List.map_filterMap]
      congr 1
      funext v
      cases v <;> rfl

theorem expressions_recase : q.recase.expressions = q.expressions.map Expr.recase := by
  cases q with
  | mk parsed =>
    cases parsed with
    | none => rfl
    | some stmts =>
      show (stmts.map Statement.recase).flatMap Statement.expressions = (stmts.flatMap Statement.expressions).map _
      rw [List.flatMap_map, List.map_flatMap]
      congr 1
      funext stmt
      rw [Statement.expressions, Statement.expressions, stmt.visit_recase, List.filterMap_map, List.map_filterMap]
      congr 1
      funext v
      cases v <;> rfl

theorem referencesTable_recase (name : Text) : q.recase.referencesTable name = q.referencesTable name := by
  rw [referencesTable, referencesTable, relations_recase, List.any_map]
  congr 1
  funext parts
  exact lastIdentEq_recase parts name

theorem qualifiedOk_recase (parts : ObjectName) (schema : Text) :
    qualifiedOk (ObjectName.recase parts) schema = qualifiedOk parts schema := by
  unfold qualifiedOk ObjectName.recase
  rw [List.length_map]
  match parts.length with
  | 0 => rfl
  | 1 => rfl
  | n + 2 =>
    show partIs schema (parts.map ObjectNamePart.recase)[n]? = partIs schema parts[n]?
    rw [List.getElem?_map, partIs_recase]

theorem referencesTableInSchema_recase (schema name : Text) :
    q.recase.referencesTableInSchema schema name = q.referencesTableInSchema schema name := by
  rw [referencesTableInSchema, referencesTableInSchema, relations_recase, List.any_map]
  congr 1
  funext parts
  show (lastIdentEq (ObjectName.recase parts) name && qualifiedOk (ObjectName.recase parts) schema) = _
  rw [lastIdentEq_recase, qualifiedOk_recase]

theorem callsFunction_recase (name : Text) : q.recase.callsFunction name = q.callsFunction name := by
  rw [callsFunction, callsFunction, expressions_recase, List.any_map]
  congr 1
  funext e
  cases e with
  | function parts args rest => exact lastIdentEq_recase parts name
  | _ => rfl

theorem callsFunctionOrKeyword_recase (name : Text) :
    q.recase.callsFunctionOrKeyword name = q.callsFunctionOrKeyword name := by
  rw [callsFunctionOrKeyword, callsFunctionOrKeyword, callsFunction_recase, expressions_recase, List.any_map]
  congr 2
  funext e
  cases e with
  | identifier id => exact decide_eq_decide.mpr (caseVariant_lowered id.value name)
  | _ => rfl

theorem firstStringLiteralArg_recase (args : FunctionArguments) :
    firstStringLiteralArg args.recase = firstStringLiteralArg args := by
  cases args with
  | none => rfl
  | subquery query => rfl
  | list args =>
    cases args with
    | nil => rfl
    | cons a args =>
      cases a with
      | wildcard => rfl
      | unnamed arg =>
        cases arg with
        | value v => cases v <;> rfl
        | _ => rfl
      | named name arg =>
        cases arg with
        | value v => cases v <;> rfl
        | _ => rfl
      | exprNamed name arg =>
        cases arg with
        | value v => cases v <;> rfl
        | _ => rfl

theorem functionStringArg_recase (name : Text) : q.recase.functionStringArg name = q.functionStringArg name := by
  rw [functionStringArg, functionStringArg, expressions_recase, List.findSome?_map]
  congr 1
  funext e
  cases e with
  | function parts args rest =>
    show (if lastIdentEq (ObjectName.recase parts) name then firstStringLiteralArg args.recase else none) = _
    rw [lastIdentEq_recase, firstStringLiteralArg_recase]
  | _ => rfl

/-- `SELECT item`, with the clauses nobody looks for. -/
def bare (modifiers : List Clause) (item : SelectItem) (others trailing : List Clause) : Statement :=
  .query (.mk [] (.select (.mk modifiers [item] [] none [] none [] [] [] none others)) [] .absent .absent trailing)

theorem isBareScalarSelect_iff :
    q.isBareScalarSelect = true ↔ ∃ modifiers item others trailing, q.parsed = some [bare modifiers item others trailing] := by
  unfold isBareScalarSelect bareSelect
  constructor
  · intro h
    split at h
    · next modifiers item others trailing hparsed => exact ⟨modifiers, item, others, trailing, hparsed⟩
    · cases h
  · intro ⟨modifiers, item, others, trailing, hparsed⟩
    rw [hparsed]
    rfl

theorem recaseExprs_eq_nil {es : List Expr} (h : recaseExprs es = []) : es = [] := by
  cases es with
  | nil => rfl
  | cons e es => cases h

theorem recaseOption_eq_none {o : Option Expr} (h : recaseOption o = none) : o = none := by
  cases o with
  | none => rfl
  | some e => cases h

theorem bareSelect_of_recase {select : Select} {modifiers others : List Clause} {item : SelectItem}
    (h : select.recase = .mk modifiers [item] [] none [] none [] [] [] none others) :
    ∃ modifiers item others, select = .mk modifiers [item] [] none [] none [] [] [] none others := by
  obtain ⟨modifiers, projection, tables, selection, groupBy, having, clusterBy, distributeBy, sortBy, qualify, others⟩ :=
    select
  simp only [Select.recase, Select.mk.injEq] at h
  obtain ⟨-, hitems, htables, hselection, hgroupBy, hhaving, hcluster, hdistribute, hsort, hqualify, -⟩ := h
  have hnoTables : tables = [] := by
    cases tables with
    | nil => rfl
    | cons t ts => cases htables
  match projection with
  | [] => cases hitems
  | [first] =>
    refine ⟨modifiers, first, others, ?_⟩
    rw [hnoTables, recaseOption_eq_none hselection, recaseExprs_eq_nil hgroupBy, recaseOption_eq_none hhaving,
      recaseExprs_eq_nil hcluster, recaseExprs_eq_nil hdistribute, recaseExprs_eq_nil hsort, recaseOption_eq_none hqualify]
  | _ :: _ :: _ => simp [recaseItems] at hitems

theorem bare_of_recase {stmt : Statement} {modifiers others trailing : List Clause} {item : SelectItem}
    (h : stmt.recase = bare modifiers item others trailing) :
    ∃ modifiers item others trailing, stmt = bare modifiers item others trailing := by
  cases stmt with
  | write kind targets tables queries exprs => cases h
  | other label relations queries exprs => cases h
  | query query =>
    obtain ⟨ctes, body, orderBy, limitClause, fetch, trailing⟩ := query
    simp only [bare, Statement.recase, Query.recase, Statement.query.injEq, Query.mk.injEq] at h
    obtain ⟨hctes, hbody, horder, hlimit, hfetch, -⟩ := h
    have hnoCtes : ctes = [] := by
      cases ctes with
      | nil => rfl
      | cons q qs => cases hctes
    have hnoLimit : limitClause = .absent := by
      cases limitClause with
      | absent => rfl
      | _ => cases hlimit
    have hnoFetch : fetch = .absent := by
      cases fetch with
      | absent => rfl
      | _ => cases hfetch
    cases body with
    | select select =>
      obtain ⟨modifiers, first, others, hselect⟩ := bareSelect_of_recase (SetExpr.select.inj hbody)
      refine ⟨modifiers, first, others, trailing, ?_⟩
      rw [bare, hnoCtes, hselect, recaseExprs_eq_nil horder, hnoLimit, hnoFetch]
    | _ => cases hbody

theorem isBareScalarSelect_recase : q.recase.isBareScalarSelect = q.isBareScalarSelect := by
  rw [Bool.eq_iff_iff, isBareScalarSelect_iff, isBareScalarSelect_iff]
  obtain ⟨parsed⟩ := q
  constructor
  · intro ⟨modifiers, item, others, trailing, hparsed⟩
    cases parsed with
    | none => cases hparsed
    | some stmts =>
      match stmts with
      | [] => simp [recase] at hparsed
      | [stmt] =>
        have hstmt : stmt.recase = bare modifiers item others trailing := by simpa [recase] using hparsed
        obtain ⟨modifiers', item', others', trailing', rfl⟩ := bare_of_recase hstmt
        exact ⟨modifiers', item', others', trailing', rfl⟩
      | _ :: _ :: _ => simp [recase] at hparsed
  · intro ⟨modifiers, item, others, trailing, hparsed⟩
    refine ⟨recaseClauses modifiers, item.recase, recaseClauses others, recaseClauses trailing, ?_⟩
    simp only at hparsed
    rw [recase, hparsed]
    rfl

end ParsedQuery

end TrinoGateway.Sql
