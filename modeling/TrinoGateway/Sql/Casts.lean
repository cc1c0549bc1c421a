/-
  TrinoGateway.Sql.Casts — the casts of a statement before and after `CastRewriter`.

  `casts_accept`: the casts of the rewritten statement, at any depth, are those of the
  statement with `::` spelled `CAST` and the target normalized. The normalization looks at
  the outermost name of the target only, so `casts_rewritten_iff`: all PostgreSQL names are
  gone exactly if no cast goes to an array with one of them inside.
-/

import TrinoGateway.Sql.Fold

namespace TrinoGateway.Sql

open TrinoGateway.Lib

structure Cast where
  kind : CastKind
  target : DataType
  deriving DecidableEq, Repr

def Shape.casts : Shape → List Cast
  | .cast kind dataType => [⟨kind, dataType⟩]
  | _ => []

/-- The casts of a statement, at any depth. -/
def Statement.casts (s : Statement) : List Cast := s.fold (collect Shape.casts fun _ => [])

/-- The type names only PostgreSQL has. -/
def DataType.postgresOnly : DataType → Bool
  | .text => true
  | .int2 _ => true
  | .int4 _ => true
  | .int8 _ => true
  | .float4 => true
  | .float8 => true
  | .bool => true
  | .bytea => true
  | _ => false

/-- Such a name stands in the type, at any depth. -/
def DataType.mentionsPostgres : DataType → Bool
  | .array element => element.mentionsPostgres
  | dataType => dataType.postgresOnly

/-- An array with such a name inside. -/
def DataType.hidesPostgres : DataType → Bool
  | .array element => element.mentionsPostgres
  | _ => false

/-! ## One cast -/

def Cast.rewritten (c : Cast) : Cast := ⟨if c.kind = .doubleColon then .cast else c.kind, normalizeDataType c.target⟩

theorem normalizeDataType_mentions (t : DataType) : (normalizeDataType t).mentionsPostgres = t.hidesPostgres := by
  cases t <;> rfl

theorem normalizeDataType_other {t : DataType} (h : t.mentionsPostgres = false) : normalizeDataType t = t := by
  cases t with
  | array element => rfl
  | varchar _ | smallInt _ | integer _ | bigInt _ | real | doublePrecision | boolean | varbinary _ | other _ => rfl
  | text | int2 _ | int4 _ | int8 _ | float4 | float8 | bool | bytea => cases h

theorem Cast.rewritten_kind (c : Cast) : c.rewritten.kind ≠ .doubleColon := by
  obtain ⟨kind, target⟩ := c
  unfold Cast.rewritten
  by_cases hkind : kind = .doubleColon
  · simp only [hkind, if_true, ne_eq, reduceCtorEq, not_false_eq_true]
  · simp only [hkind, if_false, ne_eq, not_false_eq_true]

/-! ## All casts -/

theorem map_additive {α : Type} (f : α → α) : Additive fun l m : List α => l = m.map f where
  nil := rfl
  append h₁ h₂ := by rw [h₁, h₂, List.map_append]

theorem castRewriter_parts {M : Type} (A : Algebra M) (e : Expr) :
    (castRewriter.postVisitExpr e).parts A = e.parts A := by
  cases e <;> rfl

theorem castRewriter_casts (e : Expr) :
    (castRewriter.postVisitExpr (e.descend castRewriter)).shape.casts = e.shape.casts.map Cast.rewritten := by
  cases e <;> rfl

theorem Shape.casts_of_not_expr {shape : Shape} (h : shape.isExpr = false) : shape.casts = [] := by
  cases shape <;> first | rfl | cases h

theorem Statement.casts_accept (s : Statement) : (s.accept castRewriter).casts = s.casts.map Cast.rewritten := by
  refine s.fold_accept ((map_additive Cast.rewritten).carries ?_ (castRewriter_parts _) castRewriter_casts ?_)
  · intro shape hshape
    rw [Shape.casts_of_not_expr hshape, List.map_nil]
  · intro q hparts
    rw [Query.fold_collect, Query.fold_collect, List.append_nil, List.append_nil]
    exact (map_additive Cast.rewritten).inside hparts

/-- No cast is spelled `::` or names a type only PostgreSQL has, and every other target is kept. -/
def CastsRewritten (before after : List Cast) : Prop :=
  (∀ c ∈ after, c.kind ≠ .doubleColon ∧ c.target.mentionsPostgres = false) ∧
    List.Forall₂ (fun c c' => c.target.mentionsPostgres = false → c'.target = c.target) before after

theorem casts_rewritten_iff (s : Statement) :
    CastsRewritten s.casts (s.accept castRewriter).casts ↔ ∀ c ∈ s.casts, c.target.hidesPostgres = false := by
  rw [Statement.casts_accept]
  constructor
  · intro h c hc
    rw [← normalizeDataType_mentions]
    exact (h.1 c.rewritten (List.mem_map_of_mem hc)).2
  · intro h
    refine ⟨?_, ?_⟩
    · intro c' hc'
      obtain ⟨c, hc, rfl⟩ := List.mem_map.mp hc'
      refine ⟨c.rewritten_kind, ?_⟩
      show (normalizeDataType c.target).mentionsPostgres = false
      rw [normalizeDataType_mentions, h c hc]
    · rw [List.forall₂_map_right_iff, List.forall₂_same]
      intro c _ htarget
      exact normalizeDataType_other htarget

/-- `SELECT a::text[]` -/
def textArrayCast : Statement :=
  .query (.mk [] (.select (.mk []
    [.unnamedExpr (.cast .doubleColon (.identifier ⟨"a".toList, none⟩) (.array .text))] [] none [] none [] [] [] none []))
    [] .absent .absent [])

/-- The statement sent is `SELECT CAST(a AS TEXT[])`. -/
theorem textArrayCast_keeps_text :
    (textArrayCast.accept castRewriter).casts = [⟨.cast, .array .text⟩] ∧
      ¬ CastsRewritten textArrayCast.casts (textArrayCast.accept castRewriter).casts := by
  have hcasts : (textArrayCast.accept castRewriter).casts = [⟨.cast, .array .text⟩] := rfl
  refine ⟨hcasts, ?_⟩
  intro h
  have hplain := (h.1 ⟨.cast, .array .text⟩ (by rw [hcasts]; exact List.mem_singleton_self _)).2
  cases hplain

end TrinoGateway.Sql
