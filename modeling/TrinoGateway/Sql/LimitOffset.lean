/-
  TrinoGateway.Sql.LimitOffset — what `LimitOffsetRewriter` keeps.

  `RowSemantics` gives every tree a meaning by its structure. Only the row limits are fixed:
  OFFSET drops rows, LIMIT and FETCH FIRST take rows, OFFSET first; what a body, an ORDER BY,
  a CTE, an expression or any other clause means is arbitrary, and so is the environment a
  subquery is evaluated in.

  Proved: `limit_offset_moved`, for every statement: every query node of the rewritten
  statement is a rewritten query node of the statement; it has no LIMIT beside an OFFSET and
  no FETCH FIRST 0 unless it was written with FETCH or LIMIT BY; it gives the rows it gave.
  `LIMIT m, n` is left out: the dialect of PostgreSQL has no such clause, so `parse_sql` never
  makes the tree.
-/

import TrinoGateway.Sql.Fold

namespace TrinoGateway.Sql

open TrinoGateway.Lib
open TrinoGateway.Types (parseF64)

/-! ## The query nodes of a tree -/

def Query.limitClause : Query → LimitClause
  | .mk _ _ _ limitClause _ _ => limitClause

def Query.fetch : Query → Fetch
  | .mk _ _ _ _ fetch _ => fetch

def LimitClause.hasLimit : LimitClause → Bool
  | .limitOffset (some _) _ _ => true
  | .offsetCommaLimit _ _ => true
  | _ => false

def LimitClause.hasOffset : LimitClause → Bool
  | .limitOffset _ (some _) _ => true
  | .offsetCommaLimit _ _ => true
  | _ => false

def LimitClause.limitBy : LimitClause → List Expr
  | .limitOffset _ _ limitBy => limitBy
  | _ => []

/-- `LIMIT m, n`: a tree of other dialects, which the parser does not make. -/
def LimitClause.isComma : LimitClause → Bool
  | .offsetCommaLimit _ _ => true
  | _ => false

/-- `FETCH FIRST n ROWS` with a literal `n` of value zero. -/
def Fetch.isZero : Fetch → Bool
  | .rows _ _ (some (.value (.number digits _))) => readDecimal digits == some 0
  | _ => false

/-- A non-negative integer literal. -/
def Expr.isNatural : Expr → Bool
  | .value (.number digits _) => isNumeral digits
  | _ => false

/-- Every LIMIT and OFFSET of the clause is a literal. -/
def LimitClause.literal : LimitClause → Bool
  | .absent => true
  | .limitOffset limit offset _ => limit.all Expr.isNatural && offset.all Expr.isNatural
  | .offsetCommaLimit offset limit => offset.isNatural && limit.isNatural

def queryNodes : Algebra (List Query) := collect (fun _ => []) fun q => [q]

/-- The query nodes of a statement, at any depth. -/
def Statement.queries (s : Statement) : List Query := s.fold queryNodes

/-! ## Rows -/

structure RowSemantics (M Env Row : Type) where
  node : Shape → List (List M) → M
  /-- The rows of a query before its limits, from its CTEs, its body, its ORDER BY and the other clauses. -/
  rows : List M → M → List M → List M → Env → List Row
  /-- What the other clauses make of the rows after the limits. -/
  after : List M → Env → List Row → List Row
  /-- A query as a part of another node. -/
  query : (Env → List Row) → M
  /-- The number of rows an expression asks for. -/
  count : M → Env → ℕ
  limitBy : Option M → Option M → List M → Env → List Row → List Row
  /-- `WITH TIES` and `PERCENT`, which look at the ORDER BY. -/
  fetchOther : Bool → Bool → Option M → List M → Env → List Row → List Row
  /-- A number asks for as many rows as the integer it is rounded to. -/
  count_number : ∀ digits long v env, readDecimal digits = some v → -1 / 2 ≤ v →
    |(count (node (.value (.number digits long)) []) env : ℚ) - v| ≤ 1 / 2

/-- The integer a number is rounded to. -/
theorem abs_floor_add_half_sub_le {v : ℚ} (h : -1 / 2 ≤ v) : |(⌊v + 1 / 2⌋₊ : ℚ) - v| ≤ 1 / 2 := by
  have hle := Nat.floor_le (show (0 : ℚ) ≤ v + 1 / 2 by linarith)
  have hlt := Nat.lt_floor_add_one (v + 1 / 2)
  rw [abs_le]
  constructor <;> linarith

namespace RowSemantics

variable {M Env Row : Type} (S : RowSemantics M Env Row)

def skipped (offset : Option M) (env : Env) (rows : List Row) : List Row :=
  match offset with
  | none => rows
  | some m => rows.drop (S.count m env)

def capped (limit : Option M) (env : Env) (rows : List Row) : List Row :=
  match limit with
  | none => rows
  | some n => rows.take (S.count n env)

def limited (env : Env) (rows : List Row) : Limits M → List Row
  | .absent => rows
  | .limitOffset limit offset [] => S.capped limit env (S.skipped offset env rows)
  | .limitOffset limit offset (m :: ms) => S.limitBy limit offset (m :: ms) env rows
  | .offsetCommaLimit offset limit => S.capped (some limit) env (S.skipped (some offset) env rows)

def fetched (orderBy : List M) (env : Env) (rows : List Row) : Fetched M → List Row
  | .absent => rows
  -- Without a number FETCH FIRST is one row.
  | .rows false false none => rows.take 1
  | .rows false false (some n) => S.capped (some n) env rows
  | .rows withTies percent quantity => S.fetchOther withTies percent quantity orderBy env rows

/-- The rows of a query, from the meanings of its clauses. -/
def result (ctes : List M) (body : M) (orderBy : List M) (limits : Limits M) (fetch : Fetched M) (others : List M)
    (env : Env) : List Row :=
  S.after others env (S.fetched orderBy env (S.limited env (S.rows ctes body orderBy others env) limits) fetch)

def algebra : Algebra M where
  node := S.node
  query _ ctes body orderBy limits fetch others := S.query (S.result ctes body orderBy limits fetch others)

/-- The rows a query denotes. -/
def denote : Query → Env → List Row
  | .mk ctes body orderBy limitClause fetch others =>
    S.result (foldQueries S.algebra ctes) (body.fold S.algebra) (foldExprs S.algebra orderBy)
      (limitClause.fold S.algebra) (fetch.fold S.algebra) (foldClauses S.algebra others)

theorem query_fold (q : Query) : q.fold S.algebra = S.query (S.denote q) := by
  cases q
  rfl

end RowSemantics

/-! ## The zero -/

/-- A decimal number is not read as one of the names. -/
theorem parseF64_decimal {s : Text} {v : ℚ} (h : readUnsigned (splitSign s).2 = some v) :
    parseF64 s = some (binary64.ofRat (splitSign s).1 v) := by
  obtain ⟨c, t, hbody, hc⟩ := readUnsigned_head h
  have hname : ∀ d ∈ ['i', 'n'], ∀ u, (splitSign s).2.map Char.toLower ≠ d :: u := by
    intro d hd u hu
    rw [hbody, List.map_cons] at hu
    have hclass := toLower_invariant (f := fun c => c.isDigit || c == '.') (by decide) c
    simp only [List.mem_cons, List.not_mem_nil, or_false] at hd
    rw [(List.cons.inj hu).1] at hclass
    obtain rfl | rfl := hd <;> grind
  have hinf : ¬ ((splitSign s).2.map Char.toLower = "inf".toList ∨ (splitSign s).2.map Char.toLower = "infinity".toList) :=
    not_or.mpr ⟨hname 'i' (by decide) _, hname 'i' (by decide) _⟩
  have hnan : ¬ (splitSign s).2.map Char.toLower = "nan".toList := hname 'n' (by decide) _
  simp only [parseF64, readFloat, hinf, hnan, if_false, h, Option.map_some]

theorem parseF64_finite {s : Text} {x : Finite binary64} (h : parseF64 s = some (.finite x)) :
    ∃ v, readUnsigned (splitSign s).2 = some v ∧ x.mag = binary64.nearest v := by
  simp only [parseF64, readFloat] at h
  split at h
  · cases h
  · split at h
    · cases h
    · obtain ⟨v, hv, hx⟩ := Option.map_eq_some_iff.mp h
      refine ⟨v, hv, ?_⟩
      unfold FloatFormat.ofRat at hx
      split at hx
      · cases hx
        rfl
      · cases hx

theorem signed_eq_zero {neg : Bool} {q : ℚ} : signed neg q = 0 ↔ q = 0 := by
  cases neg <;> simp [signed]

theorem abs_signed (neg : Bool) (q : ℚ) : |signed neg q| = |q| := by
  cases neg <;> simp [signed]

theorem ofRat_zero (F : FloatFormat) (neg : Bool) {v : ℚ} (hv : 0 ≤ v) (h : F.nearest v = 0) :
    ∃ x, F.ofRat neg v = .finite x ∧ x.mag = 0 := by
  have hlimit : 0 ≤ v ∧ F.nearest v < F.limit := by
    refine ⟨hv, ?_⟩
    rw [h]
    exact two_zpow_pos _
  exact ⟨_, dif_pos hlimit, h⟩

theorem isZeroLiteral_number (digits : Text) (long : Bool) :
    isZeroLiteral (.value (.number digits long)) = true ↔
      ∃ v, readUnsigned (splitSign digits).2 = some v ∧ binary64.nearest v = 0 := by
  constructor
  · intro h
    simp only [isZeroLiteral] at h
    split at h
    · rename_i x hparse
      obtain ⟨v, hv, hx⟩ := parseF64_finite hparse
      refine ⟨v, hv, ?_⟩
      rw [← hx]
      exact signed_eq_zero.mp (of_decide_eq_true h)
    · cases h
  · rintro ⟨v, hv, hzero⟩
    obtain ⟨x, hx, hmag⟩ := ofRat_zero binary64 (splitSign digits).1 (readUnsigned_nonneg hv) hzero
    simp only [isZeroLiteral, parseF64_decimal hv, hx, Finite.val, hmag]
    exact decide_eq_true (signed_eq_zero.mpr rfl)

/-- What is read as the float zero is a number of less than a half. -/
theorem isZeroLiteral_small {e : Expr} (h : isZeroLiteral e = true) :
    ∃ digits long v, e = .value (.number digits long) ∧ readDecimal digits = some v ∧ |v| < 1 / 2 := by
  match e with
  | .value (.number digits long) =>
    obtain ⟨v, hv, hzero⟩ := (isZeroLiteral_number digits long).mp h
    have hsmall : v < 1 / 2 := by
      have := lt_of_nearest_eq_zero binary64 (a := -1) (by decide) (by decide) hzero
      rwa [zpow_neg_one, ← one_div] at this
    refine ⟨digits, long, signed (splitSign digits).1 v, rfl, ?_, ?_⟩
    · rw [readDecimal, hv, Option.map_some]
    · rw [abs_signed, abs_of_nonneg (readUnsigned_nonneg hv)]
      exact hsmall

theorem isZeroLiteral_of_zero {digits : Text} (long : Bool) (h : readDecimal digits = some 0) :
    isZeroLiteral (.value (.number digits long)) = true := by
  obtain ⟨v, hv, hzero⟩ := Option.map_eq_some_iff.mp h
  refine (isZeroLiteral_number digits long).mpr ⟨v, hv, ?_⟩
  rw [signed_eq_zero.mp hzero]
  exact nearest_of_holds binary64 ⟨0, binary64.emin, by decide, le_rfl, binary64.ordered, by rw [Nat.cast_zero, zero_mul]⟩

/-! ## One query -/

section
variable {M Env Row : Type} (S : RowSemantics M Env Row)

theorem count_zero {limit : Expr} (h : isZeroLiteral limit = true) (env : Env) : S.count (limit.fold S.algebra) env = 0 := by
  obtain ⟨digits, long, v, rfl, hv, hsmall⟩ := isZeroLiteral_small h
  have hlow := (abs_lt.mp hsmall).1
  have hround := S.count_number digits long v env hv (by linarith)
  have hone : (S.count (S.node (.value (.number digits long)) []) env : ℚ) < 1 := by
    have := (abs_le.mp hround).2
    have := (abs_lt.mp hsmall).2
    linarith
  exact Nat.lt_one_iff.mp (by exact_mod_cast hone)

/-- The three things the pass does with a query. -/
theorem postVisitQuery_cases (q : Query) :
    limitOffsetRewriter.postVisitQuery q = q ∧
        (q.fetch = .absent → q.limitClause.limitBy = [] → q.limitClause.isComma = false →
          ¬ (q.limitClause.hasLimit = true ∧ q.limitClause.hasOffset = true)) ∨
      ∃ ctes body orderBy limit offset others,
        q = .mk ctes body orderBy (.limitOffset (some limit) (some offset) []) .absent others ∧
        (isZeroLiteral limit = true ∧
            limitOffsetRewriter.postVisitQuery q =
              .mk ctes body orderBy (.limitOffset (some limit) none []) .absent others ∨
          isZeroLiteral limit = false ∧
            limitOffsetRewriter.postVisitQuery q =
              .mk ctes body orderBy (.limitOffset none (some offset) []) (.rows false false (some limit)) others) := by
  obtain ⟨ctes, body, orderBy, limitClause, fetch, others⟩ := q
  match limitClause, fetch with
  | .limitOffset (some limit) (some offset) [], .absent =>
    refine .inr ⟨ctes, body, orderBy, limit, offset, others, rfl, ?_⟩
    cases hzero : isZeroLiteral limit with
    | true => exact .inl ⟨rfl, if_pos hzero⟩
    | false => exact .inr ⟨rfl, if_neg (by rw [hzero]; exact Bool.false_ne_true)⟩
  | .absent, _ => exact .inl ⟨rfl, fun _ _ _ h => Bool.false_ne_true h.1⟩
  | .offsetCommaLimit _ _, _ => exact .inl ⟨rfl, fun _ _ h _ => Bool.false_ne_true h.symm⟩
  | .limitOffset none _ _, _ => exact .inl ⟨rfl, fun _ _ _ h => Bool.false_ne_true h.1⟩
  | .limitOffset (some _) none _, _ => exact .inl ⟨rfl, fun _ _ _ h => Bool.false_ne_true h.2⟩
  | .limitOffset (some _) (some _) (_ :: _), _ => exact .inl ⟨rfl, fun _ h _ _ => List.cons_ne_nil _ _ h⟩
  | .limitOffset (some _) (some _) [], .rows _ _ _ => exact .inl ⟨rfl, fun h _ _ _ => by cases h⟩

theorem denote_postVisitQuery (q : Query) : S.denote (limitOffsetRewriter.postVisitQuery q) = S.denote q := by
  obtain ⟨hsame, _⟩ | ⟨ctes, body, orderBy, limit, offset, others, rfl, ⟨hzero, hq⟩ | ⟨_, hq⟩⟩ := postVisitQuery_cases q
  · rw [hsame]
  · rw [hq]
    funext env
    -- Both are empty.
    show S.after _ env (List.take (S.count (limit.fold S.algebra) env) _) =
      S.after _ env (List.take (S.count (limit.fold S.algebra) env) _)
    rw [count_zero S hzero, List.take_zero, List.take_zero]
  · rw [hq]
    rfl

/-! ## Every query of a tree -/

theorem option_rel_eq {o o' : Option M} (h : Option.Rel Eq o o') : o = o' := by
  cases h with
  | none => rfl
  | some h => rw [h]

theorem Limits.rel_eq {l l' : Limits M} (h : Limits.Rel Eq l l') : l = l' := by
  cases h with
  | absent => rfl
  | limitOffset hlimit hoffset hby =>
    rw [List.forall₂_eq_eq_eq] at hby
    rw [option_rel_eq hlimit, option_rel_eq hoffset, hby]
  | offsetCommaLimit hoffset hlimit => rw [hoffset, hlimit]

theorem Fetched.rel_eq {f f' : Fetched M} (h : Fetched.Rel Eq f f') : f = f' := by
  cases h with
  | absent => rfl
  | rows withTies percent hquantity =>
    rw [option_rel_eq hquantity]

theorem denote_of_clauses {q q' : Query} (h : ClausesRel Eq S.algebra S.algebra q q') : S.denote q = S.denote q' := by
  cases h with
  | mk hctes hbody horder hlimits hfetch hothers =>
    rw [List.forall₂_eq_eq_eq] at hctes horder hothers
    simp only [RowSemantics.denote, hctes, hbody, horder, Limits.rel_eq hlimits, Fetched.rel_eq hfetch, hothers]

theorem rows_carries : Carries Eq limitOffsetRewriter S.algebra S.algebra where
  node shape _ parts parts' h := by
    rw [List.forall₂_eq_eq_eq, List.forall₂_eq_eq_eq] at h
    rw [h]
  expr e h := by
    rw [List.forall₂_eq_eq_eq, List.forall₂_eq_eq_eq] at h
    show (e.descend limitOffsetRewriter).fold S.algebra = e.fold S.algebra
    rw [Expr.fold_eq, Expr.fold_eq, Expr.shape_descend, h]
  query q h := by
    rw [S.query_fold, S.query_fold, denote_postVisitQuery, denote_of_clauses S h]

theorem denote_accept (q : Query) : S.denote (q.accept limitOffsetRewriter) = S.denote q := by
  rw [Query.accept_eq, denote_postVisitQuery, denote_of_clauses S (q.clauses_accept (rows_carries S))]

end

theorem map_subset_additive (f : Query → Query) : Additive fun l m : List Query => l ⊆ m.map f where
  nil := List.nil_subset _
  append h₁ h₂ := by
    rw [List.map_append]
    exact List.append_subset.mpr ⟨List.subset_append_of_subset_left _ h₁, List.subset_append_of_subset_right _ h₂⟩

/-- The queries inside a query: those of its body and ORDER BY, of its LIMIT, of its OFFSET, of its FETCH and of
    the other clauses. -/
theorem inside_limits (ctes : List Query) (body : SetExpr) (orderBy : List Expr) (limit offset : Option Expr) (fetch : Fetch)
    (others : List Clause) :
    (Query.mk ctes body orderBy (.limitOffset limit offset []) fetch others).inside queryNodes =
      (Query.mk ctes body orderBy .absent .absent []).inside queryNodes ++ (foldOption queryNodes limit).getD [] ++
        (foldOption queryNodes offset).getD [] ++ (fetch.fold queryNodes).parts.flatten ++
        (foldClauses queryNodes others).flatten := by
  cases limit <;> cases offset <;>
    simp [Query.inside, LimitClause.fold, Fetch.fold, Limits.parts, Fetched.parts, foldOption, foldExprs,
      foldClauses]

theorem fetched_some (withTies percent : Bool) (quantity : Expr) :
    ((Fetch.rows withTies percent (some quantity)).fold queryNodes).parts.flatten = quantity.fold queryNodes :=
  List.append_nil _

/-- The pass moves or drops parts of a query; it adds none. -/
theorem postVisitQuery_inside (q : Query) :
    (limitOffsetRewriter.postVisitQuery q).inside queryNodes ⊆ q.inside queryNodes := by
  obtain ⟨hsame, _⟩ | ⟨ctes, body, orderBy, limit, offset, others, rfl, ⟨_, hq⟩ | ⟨_, hq⟩⟩ := postVisitQuery_cases q
  · rw [hsame]
    exact List.Subset.refl _
  · rw [hq, inside_limits, inside_limits]
    intro q' hq'
    simp only [foldOption, Option.getD_some, Option.getD_none, List.append_nil, List.mem_append] at hq' ⊢
    tauto
  · rw [hq, inside_limits, inside_limits, fetched_some]
    intro q' hq'
    simp only [foldOption, Option.getD_some, Option.getD_none, List.append_nil, List.mem_append] at hq' ⊢
    tauto

theorem Statement.queries_accept (s : Statement) :
    (s.accept limitOffsetRewriter).queries ⊆ s.queries.map (Query.accept limitOffsetRewriter) := by
  have hadd := map_subset_additive (Query.accept limitOffsetRewriter)
  refine s.fold_accept (hadd.carries (fun _ _ => hadd.nil) (fun _ => rfl) (fun _ => hadd.nil) ?_)
  intro q hparts
  have hinside := List.Subset.trans (postVisitQuery_inside (q.descend limitOffsetRewriter)) (hadd.inside hparts)
  rw [Query.fold_collect, Query.fold_collect]
  refine hadd.append hinside ?_
  rw [← Query.accept_eq]
  exact List.Subset.refl _

theorem Expr.isNatural_accept (v : VisitorMut) (hv : v.postVisitExpr = id) (e : Expr) :
    (e.accept v).isNatural = e.isNatural := by
  rw [Expr.accept_eq, hv, id]
  cases e <;> rfl

theorem LimitClause.literal_accept (v : VisitorMut) (hv : v.postVisitExpr = id) (c : LimitClause) :
    (c.accept v).literal = c.literal := by
  have hoption : ∀ o : Option Expr, (acceptOption v o).all Expr.isNatural = o.all Expr.isNatural := by
    intro o
    cases o with
    | none => rfl
    | some e => exact e.isNatural_accept v hv
  cases c with
  | absent => rfl
  | limitOffset limit offset limitBy => simp only [LimitClause.accept, LimitClause.literal, hoption]
  | offsetCommaLimit offset limit =>
    simp only [LimitClause.accept, LimitClause.literal, Expr.isNatural_accept v hv]

theorem Expr.isNatural_nodes {e : Expr} (h : e.isNatural = true) : e.fold queryNodes = [] := by
  cases e with
  | value v => rfl
  | _ => cases h

/-- A literal holds no query, so none is moved or dropped. -/
theorem postVisitQuery_inside_literal {q : Query} (h : q.limitClause.literal = true) :
    (limitOffsetRewriter.postVisitQuery q).inside queryNodes = q.inside queryNodes := by
  obtain ⟨hsame, _⟩ | ⟨ctes, body, orderBy, limit, offset, others, rfl, hq⟩ := postVisitQuery_cases q
  · rw [hsame]
  · obtain ⟨hlimit, hoffset⟩ := Bool.and_eq_true_iff.mp h
    have hlimit : limit.fold queryNodes = [] := Expr.isNatural_nodes hlimit
    have hoffset : offset.fold queryNodes = [] := Expr.isNatural_nodes hoffset
    obtain ⟨_, hq⟩ | ⟨_, hq⟩ := hq
    · rw [hq, inside_limits, inside_limits]
      simp only [foldOption, Option.getD_some, Option.getD_none, hlimit, hoffset]
    · rw [hq, inside_limits, inside_limits, fetched_some]
      simp only [foldOption, Option.getD_some, Option.getD_none, hlimit, hoffset, Fetch.fold, Fetched.parts,
        List.flatten_nil]

theorem literal_additive (f : Query → Query) :
    Additive fun l m : List Query => (∀ q ∈ m, q.limitClause.literal = true) → l = m.map f where
  nil _ := rfl
  append h₁ h₂ h := by
    rw [List.map_append, h₁ fun q hq => h q (List.mem_append_left _ hq), h₂ fun q hq => h q (List.mem_append_right _ hq)]

theorem Statement.queries_accept_literal (s : Statement) (h : ∀ q ∈ s.queries, q.limitClause.literal = true) :
    (s.accept limitOffsetRewriter).queries = s.queries.map (Query.accept limitOffsetRewriter) := by
  have hadd := literal_additive (Query.accept limitOffsetRewriter)
  refine s.fold_accept (hadd.carries (fun _ _ => hadd.nil) (fun _ => rfl) (fun _ => hadd.nil) ?_) h
  intro q hparts hliteral
  have hq : q.limitClause.literal = true := hliteral q (by rw [Query.fold_collect]; simp)
  have hdescend : (q.descend limitOffsetRewriter).limitClause.literal = true := by
    cases q
    exact (LimitClause.literal_accept limitOffsetRewriter rfl _).trans hq
  have hinside := hadd.inside hparts fun q' hq' => hliteral q' (by rw [Query.fold_collect]; exact List.mem_append_left _ hq')
  rw [Query.fold_collect, Query.fold_collect, List.map_append, ← hinside, ← Query.accept_eq]
  congr 1
  exact (congrArg (Query.inside queryNodes) (Query.accept_eq _ q)).trans (postVisitQuery_inside_literal hdescend)

/-! ## The whole statement -/

/-- LIMIT and OFFSET do not meet any more, and no FETCH FIRST 0 has been made. -/
structure Query.Moved (q q' : Query) : Prop where
  apart : q.fetch = .absent → q.limitClause.limitBy = [] → q.limitClause.isComma = false →
    ¬ (q'.limitClause.hasLimit = true ∧ q'.limitClause.hasOffset = true)
  fetch : q.fetch = .absent → q'.fetch.isZero = false

theorem isZeroLiteral_of_isZero {limit : Expr} {withTies percent : Bool}
    (h : (Fetch.rows withTies percent (some limit)).isZero = true) : isZeroLiteral limit = true := by
  match limit with
  | .value (.number digits long) => exact isZeroLiteral_of_zero long (eq_of_beq h)

theorem postVisitQuery_moved (q : Query) : q.Moved (limitOffsetRewriter.postVisitQuery q) := by
  obtain ⟨hsame, hapart⟩ | ⟨ctes, body, orderBy, limit, offset, others, rfl, ⟨_, hq⟩ | ⟨hzero, hq⟩⟩ := postVisitQuery_cases q
  · rw [hsame]
    refine ⟨hapart, ?_⟩
    intro hfetch
    rw [hfetch]
    rfl
  · rw [hq]
    exact ⟨fun _ _ _ h => Bool.false_ne_true h.2, fun _ => rfl⟩
  · rw [hq]
    refine ⟨fun _ _ _ h => Bool.false_ne_true h.1, fun _ => ?_⟩
    exact Bool.eq_false_of_not_eq_true fun h => Bool.false_ne_true (hzero.symm.trans (isZeroLiteral_of_isZero h))

/-- Visiting the children leaves the form of the clauses. -/
theorem Query.Moved.of_descend {v : VisitorMut} {q q' : Query} (h : (q.descend v).Moved q') : q.Moved q' := by
  obtain ⟨ctes, body, orderBy, limitClause, fetch, others⟩ := q
  have hfetch : fetch = .absent → fetch.accept v = .absent := by
    rintro rfl
    rfl
  refine ⟨fun habsent hby hcomma => h.apart (hfetch habsent) ?_ ?_, fun habsent => h.fetch (hfetch habsent)⟩
  · cases limitClause with
    | limitOffset limit offset limitBy =>
      cases hby
      rfl
    | absent => rfl
    | offsetCommaLimit offset limit => rfl
  · cases limitClause with
    | offsetCommaLimit offset limit => cases hcomma
    | absent => rfl
    | limitOffset limit offset limitBy => rfl

theorem limit_offset_moved {M Env Row : Type} (S : RowSemantics M Env Row) (s : Statement) :
    (s.accept limitOffsetRewriter).queries ⊆ s.queries.map (Query.accept limitOffsetRewriter) ∧
      ((∀ q ∈ s.queries, q.limitClause.literal = true) →
        (s.accept limitOffsetRewriter).queries = s.queries.map (Query.accept limitOffsetRewriter)) ∧
      (∀ q ∈ s.queries, q.Moved (q.accept limitOffsetRewriter) ∧
        ∀ env, S.denote (q.accept limitOffsetRewriter) env = S.denote q env) ∧
      (s.accept limitOffsetRewriter).fold S.algebra = s.fold S.algebra := by
  refine ⟨s.queries_accept, s.queries_accept_literal, ?_, s.fold_accept (rows_carries S)⟩
  intro q _
  refine ⟨?_, fun env => congrFun (denote_accept S q) env⟩
  rw [Query.accept_eq]
  exact (postVisitQuery_moved _).of_descend

/-- Numbers for expressions, lists of numbers for queries. -/
def listRows : RowSemantics (ℚ × List ℕ) Unit ℕ where
  node
    | .value (.number digits _), _ => ((readDecimal digits).getD 0, [])
    | .values, parts => (0, parts.flatten.map fun m => ⌊m.1⌋₊)
    | _, parts => (0, parts.flatten.flatMap fun m => m.2)
  rows _ body _ _ _ := body.2
  after _ _ rows := rows
  query rows := (0, rows ())
  count m _ := ⌊m.1 + 1 / 2⌋₊
  limitBy _ _ _ _ rows := rows
  fetchOther _ _ _ _ _ rows := rows
  count_number digits long v _ h hv := by
    show |(⌊(readDecimal digits).getD 0 + 1 / 2⌋₊ : ℚ) - v| ≤ 1 / 2
    rw [h, Option.getD_some]
    exact abs_floor_add_half_sub_le hv

/-- `(VALUES (1), (2), (3), (4) LIMIT 2 OFFSET 1) LIMIT 0 OFFSET 1` -/
def limitedTwice : Query :=
  let number (digits : String) : Expr := .value (.number digits.toList false)
  .mk [] (.query (.mk [] (.values [number "1", number "2", number "3", number "4"]) []
    (.limitOffset (some (number "2")) (some (number "1")) []) .absent [])) []
    (.limitOffset (some (number "0")) (some (number "1")) []) .absent []

theorem limitedTwice_moved :
    (∀ q ∈ (Statement.query limitedTwice).queries, q.limitClause.literal = true) ∧
      ((Statement.query limitedTwice).accept limitOffsetRewriter).queries =
        (Statement.query limitedTwice).queries.map (Query.accept limitOffsetRewriter) := by
  have hliteral : ∀ q ∈ (Statement.query limitedTwice).queries, q.limitClause.literal = true :=
    List.all_eq_true.mp (by decide)
  exact ⟨hliteral, (limit_offset_moved listRows (.query limitedTwice)).2.1 hliteral⟩

end TrinoGateway.Sql
