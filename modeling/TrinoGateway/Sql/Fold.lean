/-
  TrinoGateway.Sql.Fold — what is computed of a tree from the bottom up. An `Algebra` says
  what a node is worth, given its kind (`Shape`: all of the node but its parts) and what its
  parts are worth, clause by clause; for a query it also sees the query itself.

  `Statement.fold_accept`: a relation between the worth of a node a pass has changed and of
  the node before (`Carries`) goes over to whole trees. Everything that is told of every
  node at any depth, and every meaning that is given by structure, is carried over a pass
  that way.
-/

import TrinoGateway.Sql.Passes

namespace TrinoGateway.Sql

open TrinoGateway.Lib

/-! ## Nodes and their parts -/

/-- A node without its parts. -/
inductive Shape where
  | identifier (id : Ident)
  | compoundIdentifier (ids : List Ident)
  | value (v : Literal)
  | function (name : ObjectName)
  | cast (kind : CastKind) (dataType : DataType)
  | like (negated any : Bool) (escapeChar : Option Literal)
  | ilike (negated any : Bool) (escapeChar : Option Literal)
  | otherExpr (label : Text)
  | noArguments
  | subqueryArgument
  | argumentList
  | unnamedArg
  | namedArg (name : Ident)
  | exprNamedArg
  | wildcardArg
  | selectBody
  | queryBody
  | setOperation (op : Text)
  | values
  | statementBody
  | tableBody (name : Text)
  | select
  | clause (label : Text) (writes : Bool) (relations : List ObjectName)
  | unnamedItem
  | aliasedItem (name : Ident)
  | qualifiedWildcard (qualifier : Text)
  | wildcard
  | table (name : ObjectName)
  | derived
  | joined
  | otherTable (label : Text)
  | query
  | write (kind : WriteKind) (targets : List ObjectName)
  | otherStatement (label : Text) (relations : List ObjectName)

def Shape.isExpr : Shape → Bool
  | .identifier _ => true
  | .compoundIdentifier _ => true
  | .value _ => true
  | .function _ => true
  | .cast _ _ => true
  | .like _ _ _ => true
  | .ilike _ _ _ => true
  | .otherExpr _ => true
  | _ => false

/-- A limit clause over the worth of its expressions. -/
inductive Limits (M : Type) where
  | absent
  | limitOffset (limit offset : Option M) (limitBy : List M)
  | offsetCommaLimit (offset limit : M)

inductive Fetched (M : Type) where
  | absent
  | rows (withTies percent : Bool) (quantity : Option M)

structure Algebra (M : Type) where
  node : Shape → List (List M) → M
  query : Query → List M → M → List M → Limits M → Fetched M → List M → M

variable {M N : Type}

mutual

def Expr.fold (A : Algebra M) : Expr → M
  | .identifier id => A.node (.identifier id) []
  | .compoundIdentifier ids => A.node (.compoundIdentifier ids) []
  | .value l => A.node (.value l) []
  | .function name args rest => A.node (.function name) [[args.fold A], foldExprs A rest]
  | .cast kind expr dataType => A.node (.cast kind dataType) [[expr.fold A]]
  | .like negated any expr pattern escapeChar =>
    A.node (.like negated any escapeChar) [[expr.fold A], [pattern.fold A]]
  | .ilike negated any expr pattern escapeChar =>
    A.node (.ilike negated any escapeChar) [[expr.fold A], [pattern.fold A]]
  | .other label exprs queries => A.node (.otherExpr label) [foldExprs A exprs, foldQueries A queries]

def FunctionArguments.fold (A : Algebra M) : FunctionArguments → M
  | .none => A.node .noArguments []
  | .subquery query => A.node .subqueryArgument [[query.fold A]]
  | .list args => A.node .argumentList [foldArgs A args]

def FunctionArg.fold (A : Algebra M) : FunctionArg → M
  | .unnamed arg => A.node .unnamedArg [[arg.fold A]]
  | .named name arg => A.node (.namedArg name) [[arg.fold A]]
  | .exprNamed name arg => A.node .exprNamedArg [[name.fold A], [arg.fold A]]
  | .wildcard => A.node .wildcardArg []

def Query.fold (A : Algebra M) : Query → M
  | .mk ctes body orderBy limitClause fetch others =>
    A.query (.mk ctes body orderBy limitClause fetch others) (foldQueries A ctes) (body.fold A) (foldExprs A orderBy)
      (limitClause.fold A) (fetch.fold A) (foldClauses A others)

def LimitClause.fold (A : Algebra M) : LimitClause → Limits M
  | .absent => .absent
  | .limitOffset limit offset limitBy => .limitOffset (foldOption A limit) (foldOption A offset) (foldExprs A limitBy)
  | .offsetCommaLimit offset limit => .offsetCommaLimit (offset.fold A) (limit.fold A)

def Fetch.fold (A : Algebra M) : Fetch → Fetched M
  | .absent => .absent
  | .rows withTies percent quantity => .rows withTies percent (foldOption A quantity)

def SetExpr.fold (A : Algebra M) : SetExpr → M
  | .select select => A.node .selectBody [[select.fold A]]
  | .query query => A.node .queryBody [[query.fold A]]
  | .setOperation op left right => A.node (.setOperation op) [[left.fold A], [right.fold A]]
  | .values cells => A.node .values [foldExprs A cells]
  | .statement statement => A.node .statementBody [[statement.fold A]]
  | .table name => A.node (.tableBody name) []

def Select.fold (A : Algebra M) : Select → M
  | .mk modifiers projection tables selection groupBy having clusterBy distributeBy sortBy qualify others =>
    A.node .select
      [foldClauses A modifiers, foldItems A projection, foldTables A tables, (foldOption A selection).toList,
        foldExprs A groupBy, (foldOption A having).toList, foldExprs A clusterBy, foldExprs A distributeBy,
        foldExprs A sortBy, (foldOption A qualify).toList, foldClauses A others]

def Clause.fold (A : Algebra M) : Clause → M
  | .mk label writes relations exprs queries =>
    A.node (.clause label writes relations) [foldExprs A exprs, foldQueries A queries]

def SelectItem.fold (A : Algebra M) : SelectItem → M
  | .unnamedExpr expr => A.node .unnamedItem [[expr.fold A]]
  | .exprWithAlias expr name => A.node (.aliasedItem name) [[expr.fold A]]
  | .qualifiedWildcard qualifier => A.node (.qualifiedWildcard qualifier) []
  | .wildcard => A.node .wildcard []

def TableFactor.fold (A : Algebra M) : TableFactor → M
  | .table name args => A.node (.table name) [foldExprs A args]
  | .derived query => A.node .derived [[query.fold A]]
  | .joined tables conditions => A.node .joined [foldTables A tables, foldExprs A conditions]
  | .other label exprs => A.node (.otherTable label) [foldExprs A exprs]

def Statement.fold (A : Algebra M) : Statement → M
  | .query query => A.node .query [[query.fold A]]
  | .write kind targets tables queries exprs =>
    A.node (.write kind targets) [foldTables A tables, foldQueries A queries, foldExprs A exprs]
  | .other label relations queries exprs =>
    A.node (.otherStatement label relations) [foldQueries A queries, foldExprs A exprs]

def foldExprs (A : Algebra M) : List Expr → List M
  | [] => []
  | e :: es => e.fold A :: foldExprs A es

def foldOption (A : Algebra M) : Option Expr → Option M
  | none => none
  | some e => some (e.fold A)

def foldArgs (A : Algebra M) : List FunctionArg → List M
  | [] => []
  | a :: as => a.fold A :: foldArgs A as

def foldQueries (A : Algebra M) : List Query → List M
  | [] => []
  | q :: qs => q.fold A :: foldQueries A qs

def foldItems (A : Algebra M) : List SelectItem → List M
  | [] => []
  | i :: is => i.fold A :: foldItems A is

def foldTables (A : Algebra M) : List TableFactor → List M
  | [] => []
  | t :: ts => t.fold A :: foldTables A ts

def foldClauses (A : Algebra M) : List Clause → List M
  | [] => []
  | c :: cs => c.fold A :: foldClauses A cs

end

def Expr.shape : Expr → Shape
  | .identifier id => .identifier id
  | .compoundIdentifier ids => .compoundIdentifier ids
  | .value l => .value l
  | .function name _ _ => .function name
  | .cast kind _ dataType => .cast kind dataType
  | .like negated any _ _ escapeChar => .like negated any escapeChar
  | .ilike negated any _ _ escapeChar => .ilike negated any escapeChar
  | .other label _ _ => .otherExpr label

def Expr.parts (A : Algebra M) : Expr → List (List M)
  | .function _ args rest => [[args.fold A], foldExprs A rest]
  | .cast _ expr _ => [[expr.fold A]]
  | .like _ _ expr pattern _ => [[expr.fold A], [pattern.fold A]]
  | .ilike _ _ expr pattern _ => [[expr.fold A], [pattern.fold A]]
  | .other _ exprs queries => [foldExprs A exprs, foldQueries A queries]
  | _ => []

theorem Expr.fold_eq (A : Algebra M) (e : Expr) : e.fold A = A.node e.shape (e.parts A) := by
  cases e <;> rfl

theorem Expr.shape_descend (v : VisitorMut) (e : Expr) : (e.descend v).shape = e.shape := by
  cases e <;> rfl

/-! ## A relation carried over a pass -/

section
variable (R : M → N → Prop)

inductive Limits.Rel : Limits M → Limits N → Prop
  | absent : Rel .absent .absent
  | limitOffset {limit offset : Option M} {limit' offset' : Option N} {limitBy : List M} {limitBy' : List N} :
      Option.Rel R limit limit' → Option.Rel R offset offset' → List.Forall₂ R limitBy limitBy' →
      Rel (.limitOffset limit offset limitBy) (.limitOffset limit' offset' limitBy')
  | offsetCommaLimit {offset limit : M} {offset' limit' : N} : R offset offset' → R limit limit' →
      Rel (.offsetCommaLimit offset limit) (.offsetCommaLimit offset' limit')

inductive Fetched.Rel : Fetched M → Fetched N → Prop
  | absent : Rel .absent .absent
  | rows (withTies percent : Bool) {quantity : Option M} {quantity' : Option N} : Option.Rel R quantity quantity' →
      Rel (.rows withTies percent quantity) (.rows withTies percent quantity')

/-- The clauses of two queries are related one by one. -/
inductive ClausesRel (B : Algebra M) (A : Algebra N) : Query → Query → Prop
  | mk {ctes ctes' : List Query} {body body' : SetExpr} {orderBy orderBy' : List Expr}
      {limitClause limitClause' : LimitClause} {fetch fetch' : Fetch} {others others' : List Clause} :
      List.Forall₂ R (foldQueries B ctes) (foldQueries A ctes') → R (body.fold B) (body'.fold A) →
      List.Forall₂ R (foldExprs B orderBy) (foldExprs A orderBy') →
      Limits.Rel R (limitClause.fold B) (limitClause'.fold A) → Fetched.Rel R (fetch.fold B) (fetch'.fold A) →
      List.Forall₂ R (foldClauses B others) (foldClauses A others') →
      ClausesRel B A (.mk ctes body orderBy limitClause fetch others) (.mk ctes' body' orderBy' limitClause' fetch' others')

/-- The relation holds of a node after and before the pass if it holds of the parts. -/
structure Carries (v : VisitorMut) (B : Algebra M) (A : Algebra N) : Prop where
  node : ∀ shape, shape.isExpr = false → ∀ {parts : List (List M)} {parts' : List (List N)},
    List.Forall₂ (List.Forall₂ R) parts parts' → R (B.node shape parts) (A.node shape parts')
  expr : ∀ e : Expr, List.Forall₂ (List.Forall₂ R) ((e.descend v).parts B) (e.parts A) →
    R ((v.postVisitExpr (e.descend v)).fold B) (e.fold A)
  query : ∀ q : Query, ClausesRel R B A (q.descend v) q → R ((v.postVisitQuery (q.descend v)).fold B) (q.fold A)
end

variable {R : M → N → Prop} {v : VisitorMut} {B : Algebra M} {A : Algebra N}

theorem toList_rel {o : Option M} {o' : Option N} (h : Option.Rel R o o') : List.Forall₂ R o.toList o'.toList := by
  cases h with
  | none => exact .nil
  | some h => exact .cons h .nil

theorem rel_one {m : M} {n : N} (h : R m n) : List.Forall₂ R [m] [n] := .cons h .nil

mutual

theorem Expr.fold_accept (h : Carries R v B A) : ∀ e : Expr, R ((e.accept v).fold B) (e.fold A)
  | .identifier id => h.expr (.identifier id) .nil
  | .compoundIdentifier ids => h.expr (.compoundIdentifier ids) .nil
  | .value l => h.expr (.value l) .nil
  | .function name args rest =>
    h.expr (.function name args rest) (.cons (rel_one (args.fold_accept h)) (rel_one (foldExprs_accept h rest)))
  | .cast kind expr dataType => h.expr (.cast kind expr dataType) (rel_one (rel_one (expr.fold_accept h)))
  | .like negated any expr pattern escapeChar =>
    h.expr (.like negated any expr pattern escapeChar)
      (.cons (rel_one (expr.fold_accept h)) (rel_one (rel_one (pattern.fold_accept h))))
  | .ilike negated any expr pattern escapeChar =>
    h.expr (.ilike negated any expr pattern escapeChar)
      (.cons (rel_one (expr.fold_accept h)) (rel_one (rel_one (pattern.fold_accept h))))
  | .other label exprs queries =>
    h.expr (.other label exprs queries) (.cons (foldExprs_accept h exprs) (rel_one (foldQueries_accept h queries)))

theorem FunctionArguments.fold_accept (h : Carries R v B A) :
    ∀ args : FunctionArguments, R ((args.accept v).fold B) (args.fold A)
  | .none => h.node .noArguments rfl .nil
  | .subquery query => h.node .subqueryArgument rfl (rel_one (rel_one (query.fold_accept h)))
  | .list args => h.node .argumentList rfl (rel_one (foldArgs_accept h args))

theorem FunctionArg.fold_accept (h : Carries R v B A) : ∀ arg : FunctionArg, R ((arg.accept v).fold B) (arg.fold A)
  | .unnamed arg => h.node .unnamedArg rfl (rel_one (rel_one (arg.fold_accept h)))
  | .named name arg => h.node (.namedArg name) rfl (rel_one (rel_one (arg.fold_accept h)))
  | .exprNamed name arg => h.node .exprNamedArg rfl (.cons (rel_one (name.fold_accept h)) (rel_one (rel_one (arg.fold_accept h))))
  | .wildcard => h.node .wildcardArg rfl .nil

theorem Query.fold_accept (h : Carries R v B A) : ∀ q : Query, R ((q.accept v).fold B) (q.fold A)
  | .mk ctes body orderBy limitClause fetch others =>
    h.query (.mk ctes body orderBy limitClause fetch others)
      (.mk (foldQueries_accept h ctes) (body.fold_accept h) (foldExprs_accept h orderBy) (limitClause.fold_accept h)
        (fetch.fold_accept h) (foldClauses_accept h others))

theorem LimitClause.fold_accept (h : Carries R v B A) :
    ∀ c : LimitClause, Limits.Rel R ((c.accept v).fold B) (c.fold A)
  | .absent => .absent
  | .limitOffset limit offset limitBy =>
    .limitOffset (foldOption_accept h limit) (foldOption_accept h offset) (foldExprs_accept h limitBy)
  | .offsetCommaLimit offset limit => .offsetCommaLimit (offset.fold_accept h) (limit.fold_accept h)

theorem Fetch.fold_accept (h : Carries R v B A) : ∀ f : Fetch, Fetched.Rel R ((f.accept v).fold B) (f.fold A)
  | .absent => .absent
  | .rows withTies percent quantity => .rows withTies percent (foldOption_accept h quantity)

theorem SetExpr.fold_accept (h : Carries R v B A) : ∀ s : SetExpr, R ((s.accept v).fold B) (s.fold A)
  | .select select => h.node .selectBody rfl (rel_one (rel_one (select.fold_accept h)))
  | .query query => h.node .queryBody rfl (rel_one (rel_one (query.fold_accept h)))
  | .setOperation op left right =>
    h.node (.setOperation op) rfl (.cons (rel_one (left.fold_accept h)) (rel_one (rel_one (right.fold_accept h))))
  | .values cells => h.node .values rfl (rel_one (foldExprs_accept h cells))
  | .statement statement => h.node .statementBody rfl (rel_one (rel_one (statement.fold_accept h)))
  | .table name => h.node (.tableBody name) rfl .nil

theorem Select.fold_accept (h : Carries R v B A) : ∀ s : Select, R ((s.accept v).fold B) (s.fold A)
  | .mk modifiers projection tables selection groupBy having clusterBy distributeBy sortBy qualify others =>
    h.node .select rfl
      (.cons (foldClauses_accept h modifiers) <| .cons (foldItems_accept h projection) <|
        .cons (foldTables_accept h tables) <| .cons (toList_rel (foldOption_accept h selection)) <|
        .cons (foldExprs_accept h groupBy) <| .cons (toList_rel (foldOption_accept h having)) <|
        .cons (foldExprs_accept h clusterBy) <| .cons (foldExprs_accept h distributeBy) <|
        .cons (foldExprs_accept h sortBy) <| .cons (toList_rel (foldOption_accept h qualify)) <|
        rel_one (foldClauses_accept h others))

theorem Clause.fold_accept (h : Carries R v B A) : ∀ c : Clause, R ((c.accept v).fold B) (c.fold A)
  | .mk label writes relations exprs queries =>
    h.node (.clause label writes relations) rfl (.cons (foldExprs_accept h exprs) (rel_one (foldQueries_accept h queries)))

theorem SelectItem.fold_accept (h : Carries R v B A) : ∀ i : SelectItem, R ((i.accept v).fold B) (i.fold A)
  | .unnamedExpr expr => h.node .unnamedItem rfl (rel_one (rel_one (expr.fold_accept h)))
  | .exprWithAlias expr name => h.node (.aliasedItem name) rfl (rel_one (rel_one (expr.fold_accept h)))
  | .qualifiedWildcard qualifier => h.node (.qualifiedWildcard qualifier) rfl .nil
  | .wildcard => h.node .wildcard rfl .nil

theorem TableFactor.fold_accept (h : Carries R v B A) : ∀ t : TableFactor, R ((t.accept v).fold B) (t.fold A)
  | .table name args => h.node (.table name) rfl (rel_one (foldExprs_accept h args))
  | .derived query => h.node .derived rfl (rel_one (rel_one (query.fold_accept h)))
  | .joined tables conditions =>
    h.node .joined rfl (.cons (foldTables_accept h tables) (rel_one (foldExprs_accept h conditions)))
  | .other label exprs => h.node (.otherTable label) rfl (rel_one (foldExprs_accept h exprs))

theorem Statement.fold_accept (h : Carries R v B A) : ∀ s : Statement, R ((s.accept v).fold B) (s.fold A)
  | .query query => h.node .query rfl (rel_one (rel_one (query.fold_accept h)))
  | .write kind targets tables queries exprs =>
    h.node (.write kind targets) rfl
      (.cons (foldTables_accept h tables) <| .cons (foldQueries_accept h queries) <| rel_one (foldExprs_accept h exprs))
  | .other label relations queries exprs =>
    h.node (.otherStatement label relations) rfl (.cons (foldQueries_accept h queries) (rel_one (foldExprs_accept h exprs)))

theorem foldExprs_accept (h : Carries R v B A) :
    ∀ es : List Expr, List.Forall₂ R (foldExprs B (acceptExprs v es)) (foldExprs A es)
  | [] => .nil
  | e :: es => .cons (e.fold_accept h) (foldExprs_accept h es)

theorem foldOption_accept (h : Carries R v B A) :
    ∀ o : Option Expr, Option.Rel R (foldOption B (acceptOption v o)) (foldOption A o)
  | none => .none
  | some e => .some (e.fold_accept h)

theorem foldArgs_accept (h : Carries R v B A) :
    ∀ as : List FunctionArg, List.Forall₂ R (foldArgs B (acceptArgs v as)) (foldArgs A as)
  | [] => .nil
  | a :: as => .cons (a.fold_accept h) (foldArgs_accept h as)

theorem foldQueries_accept (h : Carries R v B A) :
    ∀ qs : List Query, List.Forall₂ R (foldQueries B (acceptQueries v qs)) (foldQueries A qs)
  | [] => .nil
  | q :: qs => .cons (q.fold_accept h) (foldQueries_accept h qs)

theorem foldItems_accept (h : Carries R v B A) :
    ∀ is : List SelectItem, List.Forall₂ R (foldItems B (acceptItems v is)) (foldItems A is)
  | [] => .nil
  | i :: is => .cons (i.fold_accept h) (foldItems_accept h is)

theorem foldTables_accept (h : Carries R v B A) :
    ∀ ts : List TableFactor, List.Forall₂ R (foldTables B (acceptTables v ts)) (foldTables A ts)
  | [] => .nil
  | t :: ts => .cons (t.fold_accept h) (foldTables_accept h ts)

theorem foldClauses_accept (h : Carries R v B A) :
    ∀ cs : List Clause, List.Forall₂ R (foldClauses B (acceptClauses v cs)) (foldClauses A cs)
  | [] => .nil
  | c :: cs => .cons (c.fold_accept h) (foldClauses_accept h cs)

end

theorem Query.clauses_accept (h : Carries R v B A) (q : Query) : ClausesRel R B A (q.descend v) q := by
  cases q with
  | mk ctes body orderBy limitClause fetch others =>
    exact .mk (foldQueries_accept h ctes) (body.fold_accept h) (foldExprs_accept h orderBy) (limitClause.fold_accept h)
      (fetch.fold_accept h) (foldClauses_accept h others)

/-! ## Listing what a tree holds -/

def Limits.parts : Limits M → List M
  | .absent => []
  | .limitOffset limit offset limitBy => limit.toList ++ offset.toList ++ limitBy
  | .offsetCommaLimit offset limit => [offset, limit]

def Fetched.parts : Fetched M → List M
  | .absent => []
  | .rows _ _ quantity => quantity.toList

section
variable {α β : Type}

/-- What the nodes of a tree hold, those of the parts before the node's own. -/
def collect (node : Shape → List α) (query : Query → List α) : Algebra (List α) where
  node shape parts := parts.flatten.flatten ++ node shape
  query q ctes body orderBy limits fetch others :=
    ctes.flatten ++ body ++ orderBy.flatten ++ limits.parts.flatten ++ fetch.parts.flatten ++ others.flatten ++ query q

/-- A relation of lists that holds of lists put together from lists it holds of. -/
structure Additive (R : List α → List β → Prop) : Prop where
  nil : R [] []
  append : ∀ {l₁ l₂ : List α} {m₁ m₂ : List β}, R l₁ m₁ → R l₂ m₂ → R (l₁ ++ l₂) (m₁ ++ m₂)

variable {R : List α → List β → Prop}

theorem Additive.flatten (h : Additive R) {ls : List (List α)} {ms : List (List β)} (hall : List.Forall₂ R ls ms) :
    R ls.flatten ms.flatten := by
  induction hall with
  | nil => exact h.nil
  | cons hhead _ ih =>
    rw [List.flatten_cons, List.flatten_cons]
    exact h.append hhead ih

theorem Additive.flatten_flatten (h : Additive R) {ls : List (List (List α))} {ms : List (List (List β))}
    (hall : List.Forall₂ (List.Forall₂ R) ls ms) : R ls.flatten.flatten ms.flatten.flatten := by
  induction hall with
  | nil => exact h.nil
  | cons hhead _ ih =>
    rw [List.flatten_cons, List.flatten_cons, List.flatten_append, List.flatten_append]
    exact h.append (h.flatten hhead) ih

theorem limits_parts_rel {R : M → N → Prop} {l : Limits M} {l' : Limits N} (h : Limits.Rel R l l') :
    List.Forall₂ R l.parts l'.parts := by
  cases h with
  | absent => exact .nil
  | limitOffset hlimit hoffset hby => exact List.rel_append (List.rel_append (toList_rel hlimit) (toList_rel hoffset)) hby
  | offsetCommaLimit hoffset hlimit => exact .cons hoffset (rel_one hlimit)

theorem fetched_parts_rel {R : M → N → Prop} {f : Fetched M} {f' : Fetched N} (h : Fetched.Rel R f f') :
    List.Forall₂ R f.parts f'.parts := by
  cases h with
  | absent => exact .nil
  | rows withTies percent hquantity => exact toList_rel hquantity

variable {node : Shape → List α} {node' : Shape → List β} {query : Query → List α} {query' : Query → List β}

/-- What the clauses of a query hold. -/
def Query.inside (A : Algebra (List α)) : Query → List α
  | .mk ctes body orderBy limitClause fetch others =>
    (foldQueries A ctes).flatten ++ body.fold A ++ (foldExprs A orderBy).flatten ++ (limitClause.fold A).parts.flatten ++
      (fetch.fold A).parts.flatten ++ (foldClauses A others).flatten

theorem Query.fold_collect (q : Query) :
    q.fold (collect node query) = q.inside (collect node query) ++ query q := by
  cases q
  rfl

theorem Additive.inside (h : Additive R) {q q' : Query}
    (hparts : ClausesRel R (collect node query) (collect node' query') q q') :
    R (q.inside (collect node query)) (q'.inside (collect node' query')) := by
  cases hparts with
  | mk hctes hbody horder hlimits hfetch hothers =>
    have hlimits := h.flatten (limits_parts_rel hlimits)
    have hfetch := h.flatten (fetched_parts_rel hfetch)
    have hclauses := h.append (h.append (h.append (h.flatten hctes) hbody) (h.flatten horder)) hlimits
    exact h.append (h.append hclauses hfetch) (h.flatten hothers)

/-- A pass that leaves the parts of an expression where they are is looked at node by node. -/
theorem Additive.carries (h : Additive R) (hnode : ∀ shape, shape.isExpr = false → R (node shape) (node' shape))
    (hparts : ∀ e, (v.postVisitExpr e).parts (collect node query) = e.parts (collect node query))
    (hexpr : ∀ e : Expr, R (node (v.postVisitExpr (e.descend v)).shape) (node' e.shape))
    (hquery : ∀ q : Query, ClausesRel R (collect node query) (collect node' query') (q.descend v) q →
      R ((v.postVisitQuery (q.descend v)).fold (collect node query)) (q.fold (collect node' query'))) :
    Carries R v (collect node query) (collect node' query') where
  node shape hshape _ _ hrel := h.append (h.flatten_flatten hrel) (hnode shape hshape)
  expr e hrel := by
    rw [Expr.fold_eq, Expr.fold_eq, hparts]
    exact h.append (h.flatten_flatten hrel) (hexpr e)
  query := hquery

end

end TrinoGateway.Sql
