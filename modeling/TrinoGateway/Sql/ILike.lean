/-
  TrinoGateway.Sql.ILike — what `ILikeRewriter` makes of `x ILIKE p ESCAPE e`: the case of
  `x` and of `p` is folded, and the escape character goes over as it is.

  PostgreSQL reads the pattern with the escape character, the backslash if none is given, and
  folds what it has read. Trino reads the folded pattern, without an escape character if none
  is given, and refuses an escape that stands before anything but a wildcard or itself. The
  case fold is any function of characters (`CaseFold`); what PostgreSQL does with a pattern
  that ends in an escape is left open but for the texts it has to decide (`UnfinishedPattern`).

  Proved: `ilike_agrees_iff` (`percent_sign_lost`): the two agree on all texts exactly if there
  is no backslash in the pattern where no escape is given; if the pattern is free of the
  escape character where that is a letter the fold changes; and if the two readings of the
  pattern go in step otherwise.
-/

import TrinoGateway.Lib.Pattern
import TrinoGateway.Sql.Fold

namespace TrinoGateway.Sql

open TrinoGateway.Lib

/-! ## The two engines -/

/-- A pattern that ends in an escape: the empty text is decided, and a text that goes on where
    the tokens before the escape end is an error. -/
structure UnfinishedPattern where
  result : List Token → Text → Option Bool
  nil : ∀ ts, result ts [] ≠ none
  reached : ∀ ts a b, matchTokens ts a = true → b ≠ [] → result ts (a ++ b) = none

variable (F : CaseFold) (D : UnfinishedPattern)

/-- `x ILIKE p ESCAPE e` in PostgreSQL; `none` is an error. -/
def ilikePostgres (escape : Option Char) (x p : Text) : Option Bool :=
  let e := escape.getD '\\'
  let tokens := (readPattern e false p).1.map F.token
  if (readPattern e false p).2 then D.result tokens (x.map F.fold) else some (matchTokens tokens (x.map F.fold))

/-- `x LIKE p ESCAPE e` in Trino. -/
def likeTrino (escape : Option Char) (x p : Text) : Option Bool :=
  match escape with
  | none => some (like p x)
  | some e => (readStrict e false p).map (matchTokens · x)

inductive SqlValue where
  | text (t : Text)
  | truth (b : Option Bool)
  | other
  deriving DecidableEq, Repr

/-- The escape character of a clause, if it is one character. -/
def escapeOf : Option Literal → Option (Option Char)
  | none => some none
  | some (.singleQuotedString [e]) => some (some e)
  | some _ => none

def postgresPredicate : Shape → Text → Text → Option Bool
  | .ilike negated _ escape, x, p =>
    ((escapeOf escape).bind fun escape => ilikePostgres F D escape x p).map fun b => negated ^^ b
  | _, _, _ => none

def trinoPredicate : Shape → Text → Text → Option Bool
  | .like negated _ escape, x, p =>
    ((escapeOf escape).bind fun escape => likeTrino escape x p).map fun b => negated ^^ b
  | _, _, _ => none

/-- The value of an expression over columns of texts. -/
def evaluate (column : Ident → Text) (predicate : Shape → Text → Text → Option Bool) : Algebra SqlValue where
  node
    | .identifier id, _ => .text (column id)
    | .value (.singleQuotedString s), _ => .text s
    | .unnamedArg, [[v]] => v
    | .argumentList, [[v]] => v
    | .function [.identifier id], [[.text t], []] =>
      if id.value = "lower".toList then .text (t.map F.fold) else .other
    | shape, [[.text x], [.text p]] => .truth (predicate shape x p)
    | _, _ => .other
  query _ _ _ _ _ _ _ := .other

/-! ## Where they agree -/

/-- The patterns the rewriting keeps. -/
def keepsPattern (p : Text) : Option Char → Bool
  | none => !p.contains '\\'
  | some e => if F.fold e = e then inStep F e false false p else !p.contains e

section
variable {F D} {p : Text} {e : Char}

theorem ilikePostgres_eq (escape : Option Char) (x p : Text) (hend : (readPattern (escape.getD '\\') false p).2 = false) :
    ilikePostgres F D escape x p = some (matchTokens (foldedTokens F (escape.getD '\\') false p) (x.map F.fold)) := by
  rw [ilikePostgres]
  rw [hend]
  rfl

/-- A text that reaches the end of an unfinished pattern. -/
theorem ilikePostgres_unfinished (escape : Option Char) (hend : (readPattern (escape.getD '\\') false p).2 = true) :
    ∃ x, ilikePostgres F D escape x p = none := by
  have hfixed := sample_fixed (fold_otherThan F '%') (foldedTokens_fixed F (escape.getD '\\') false p)
  refine ⟨sample (otherThan '%') (foldedTokens F (escape.getD '\\') false p) ++ ['%'], ?_⟩
  rw [ilikePostgres]
  rw [hend, if_pos rfl, List.map_append, hfixed]
  exact D.reached _ _ _ (matchTokens_sample _ _) (by simp)

theorem ilikePostgres_nil (escape : Option Char) (p : Text) : ilikePostgres F D escape [] p ≠ none := by
  rw [ilikePostgres]
  split_ifs
  · exact D.nil _
  · exact Option.some_ne_none _

/-- Trino sees no escape in the pattern: then PostgreSQL must not either. -/
theorem not_mem_of_plain (escape : Option Char) (he : isWildcard (F.fold (escape.getD '\\')) = false)
    (hagree : ∀ x : Text, some (matchTokens (plainTokens F p) (x.map F.fold)) = ilikePostgres F D escape x p) :
    escape.getD '\\' ∉ p := by
  intro hmem
  cases hend : (readPattern (escape.getD '\\') false p).2 with
  | true =>
    obtain ⟨x, hx⟩ := ilikePostgres_unfinished (F := F) (D := D) escape hend
    have := hagree x
    rw [hx] at this
    cases this
  | false =>
    have hcount := count_eq_of_agree (plainTokens_fixed F p) (foldedTokens_fixed F (escape.getD '\\') false p)
      (fun s => Option.some.inj ((hagree s).trans (ilikePostgres_eq escape s p hend))) (F.fold (escape.getD '\\'))
    have := count_escape_lt he hmem
    omega

theorem agree_of_not_mem (escape : Option Char) (h : escape.getD '\\' ∉ p) (x : Text) :
    ilikePostgres F D escape x p = some (matchTokens (plainTokens F p) (x.map F.fold)) := by
  rw [ilikePostgres_eq escape x p (by rw [readPattern_plain h]), foldedTokens_of_not_mem h]

theorem like_plain (x : Text) : like (p.map F.fold) x = matchTokens (plainTokens F p) x := like_eq_matchTokens _ _

/-- An escape character that folds to another one is not in a folded pattern. -/
theorem not_mem_folded (he : F.fold e ≠ e) : e ∉ p.map F.fold := by
  intro hmem
  obtain ⟨c, _, rfl⟩ := List.mem_map.mp hmem
  exact he (F.fold_fold c)

theorem not_wildcard_of_changes (he : F.fold e ≠ e) : isWildcard (F.fold e) = false := by
  rw [F.isWildcard_fold]
  exact Bool.eq_false_of_not_eq_true fun h => he (F.fold_wildcard h)

theorem inStep_of_agree (he : F.fold e = e)
    (hagree : ∀ x : Text, likeTrino (some e) (x.map F.fold) (p.map F.fold) = ilikePostgres F D (some e) x p) :
    inStep F e false false p = true := by
  cases hread : readStrict e false (p.map F.fold) with
  | none =>
    have hnil := hagree []
    rw [likeTrino, hread] at hnil
    exact absurd hnil.symm (ilikePostgres_nil (some e) p)
  | some ts' =>
    have htrino : ∀ x, likeTrino (some e) x (p.map F.fold) = some (matchTokens ts' x) := by
      intro x
      rw [likeTrino, hread, Option.map_some]
    cases hend : (readPattern e false p).2 with
    | true =>
      obtain ⟨x, hx⟩ := ilikePostgres_unfinished (F := F) (D := D) (some e) hend
      have := hagree x
      rw [hx, htrino] at this
      cases this
    | false =>
      have hcount := count_eq_of_agree (readStrict_fixed hread) (foldedTokens_fixed F e false p) fun s =>
        Option.some.inj ((htrino _).symm.trans ((hagree s).trans (ilikePostgres_eq (some e) s p hend)))
      exact (balanced_read he (fun _ => rfl) hend hread).ok (hcount e) fun z _ => hcount z

theorem agree_of_inStep (he : F.fold e = e) (h : inStep F e false false p = true) (x : Text) :
    likeTrino (some e) (x.map F.fold) (p.map F.fold) = ilikePostgres F D (some e) x p := by
  obtain ⟨hend, hread⟩ := read_of_inStep he h
  rw [ilikePostgres_eq (some e) x p hend, likeTrino, hread]
  rfl

end

theorem text_agrees_iff (p : Text) (escape : Option Char) :
    (∀ x : Text, likeTrino escape (x.map F.fold) (p.map F.fold) = ilikePostgres F D escape x p) ↔
      keepsPattern F p escape = true := by
  cases escape with
  | none =>
    have hbackslash : F.fold '\\' = '\\' := (F.special '\\' '\\' (by decide)).mpr rfl
    have hplain : ∀ x : Text, likeTrino none (x.map F.fold) (p.map F.fold) =
        some (matchTokens (plainTokens F p) (x.map F.fold)) := fun x => congrArg some (like_plain _)
    simp only [hplain, keepsPattern, Bool.not_eq_true', List.contains_eq_mem, decide_eq_false_iff_not]
    constructor
    · intro hagree
      exact not_mem_of_plain none (by rw [Option.getD_none, hbackslash]; decide) hagree
    · intro hmem x
      exact (agree_of_not_mem none hmem x).symm
  | some e =>
    rw [keepsPattern]
    by_cases he : F.fold e = e
    · rw [if_pos he]
      exact ⟨inStep_of_agree he, agree_of_inStep he⟩
    · have hplain : ∀ x : Text, likeTrino (some e) (x.map F.fold) (p.map F.fold) =
          some (matchTokens (plainTokens F p) (x.map F.fold)) := by
        intro x
        rw [likeTrino, readStrict_plain (not_mem_folded he), Option.map_some, plainTokens]
      simp only [if_neg he, hplain, Bool.not_eq_true', List.contains_eq_mem, decide_eq_false_iff_not]
      constructor
      · intro hagree
        exact not_mem_of_plain (some e) (not_wildcard_of_changes he) hagree
      · intro hmem x
        exact (agree_of_not_mem (some e) hmem x).symm

/-! ## The rewritten predicate -/

/-- `x [NOT] ILIKE 'p' [ESCAPE 'e']` -/
def ilikeExpr (negated : Bool) (x : Ident) (p : Text) (escape : Option Char) : Expr :=
  .ilike negated false (.identifier x) (.value (.singleQuotedString p)) (escape.map fun e => .singleQuotedString [e])

section
variable (column : Ident → Text) (negated : Bool) (x : Ident) (p : Text) (escape : Option Char)

theorem escapeOf_map : escapeOf (escape.map fun e => .singleQuotedString [e]) = some escape := by
  cases escape <;> rfl

theorem ilikeExpr_postgres : (ilikeExpr negated x p escape).fold (evaluate F column (postgresPredicate F D)) =
    .truth ((ilikePostgres F D escape (column x) p).map fun b => negated ^^ b) := by
  show SqlValue.truth (postgresPredicate F D (.ilike negated false _) (column x) p) = _
  rw [postgresPredicate, escapeOf_map, Option.bind_some]

theorem ilikeExpr_trino :
    ((ilikeExpr negated x p escape).accept ilikeRewriter).fold (evaluate F column trinoPredicate) =
      .truth ((likeTrino escape ((column x).map F.fold) (p.map F.fold)).map fun b => negated ^^ b) := by
  show SqlValue.truth (trinoPredicate (.like negated false _) ((column x).map F.fold) (p.map F.fold)) = _
  rw [trinoPredicate, escapeOf_map, Option.bind_some]

end

theorem negated_injective (negated : Bool) : Function.Injective (Option.map fun b => negated ^^ b) :=
  Option.map_injective fun a b h => by cases negated <;> cases a <;> cases b <;> first | rfl | cases h

theorem ilike_agrees_iff (negated : Bool) (x : Ident) (p : Text) (escape : Option Char) :
    (∀ column : Ident → Text,
      ((ilikeExpr negated x p escape).accept ilikeRewriter).fold (evaluate F column trinoPredicate) =
        (ilikeExpr negated x p escape).fold (evaluate F column (postgresPredicate F D))) ↔
      keepsPattern F p escape = true := by
  rw [← text_agrees_iff F D]
  simp only [ilikeExpr_trino, ilikeExpr_postgres, SqlValue.truth.injEq, (negated_injective negated).eq_iff]
  constructor
  · intro h t
    exact h fun _ => t
  · intro h column
    exact h (column x)

/-- The letters of ASCII. -/
def asciiFold : CaseFold where
  fold := Char.toLower
  fold_fold := Char.toLower_toLower_eq_toLower
  special c d hd := by
    have hsame : (c.toLower == d) = (c == d) := by
      simp only [List.mem_cons, List.not_mem_nil, or_false] at hd
      obtain rfl | rfl | rfl := hd
      · exact toLower_invariant (f := fun c => c == '%') (by decide) c
      · exact toLower_invariant (f := fun c => c == '_') (by decide) c
      · exact toLower_invariant (f := fun c => c == '\\') (by decide) c
    rw [← beq_iff_eq, hsame, beq_iff_eq]

/-- A text longer than nothing is an error. -/
def endsInError : UnfinishedPattern where
  result _ s := if s.isEmpty then some false else none
  nil _ := by simp
  reached _ a b _ hb := by simp [hb]

/-- `x ILIKE '50\%'` holds of `50%` in PostgreSQL, and `lower(x) LIKE lower('50\%')` does not in Trino. -/
theorem percent_sign_lost :
    let expr := ilikeExpr false ⟨['x'], none⟩ "50\\%".toList none
    expr.fold (evaluate asciiFold (fun _ => "50%".toList) (postgresPredicate asciiFold endsInError)) = .truth (some true) ∧
      (expr.accept ilikeRewriter).fold (evaluate asciiFold (fun _ => "50%".toList) trinoPredicate) = .truth (some false) := by
  decide +kernel

end TrinoGateway.Sql
