/-
  TrinoGateway.Lib.Like — SQL's `LIKE` without an escape character: `%` stands for any text,
  `_` for any one character, every other character for itself.

  - `like_percent`, `like_literal`: a pattern is matched piece by piece; `like_starts` and
    `like_contains` put the pieces together for `a%` and `%a%b%`.
  - `stem_of_like`: what stands before the first wildcard begins every text that matches.
  - `mem_of_like`: the characters of the pattern are in every text that matches.
-/

import TrinoGateway.Lib.Text

namespace TrinoGateway.Lib

def like : Text → Text → Bool
  | [], s => s.isEmpty
  | p :: pattern, s =>
    if p = '%' then s.tails.any (like pattern)
    else
      match s with
      | [] => false
      | c :: s => (p == '_' || p == c) && like pattern s

def isWildcard (c : Char) : Bool := c == '%' || c == '_'

def isLiteral (w : Text) : Bool := w.all fun c => !isWildcard c

/-- What stands before the first wildcard. -/
def stem (pattern : Text) : Text := pattern.takeWhile fun c => !isWildcard c

theorem like_cons_nil {p : Char} (hp : p ≠ '%') (pattern : Text) : like (p :: pattern) [] = false := by
  rw [like, if_neg hp]

theorem like_cons_cons {p : Char} (hp : p ≠ '%') (pattern : Text) (c : Char) (s : Text) :
    like (p :: pattern) (c :: s) = ((p == '_' || p == c) && like pattern s) := by
  rw [like, if_neg hp]

theorem like_percent {pattern s : Text} :
    like ('%' :: pattern) s = true ↔ ∃ a b, s = a ++ b ∧ like pattern b = true := by
  have hdef : like ('%' :: pattern) s = s.tails.any (like pattern) := by cases s <;> rw [like, if_pos rfl]
  rw [hdef, List.any_eq_true]
  constructor
  · rintro ⟨b, hb, hmatch⟩
    obtain ⟨a, rfl⟩ := (List.mem_tails _ _).mp hb
    exact ⟨a, b, rfl, hmatch⟩
  · rintro ⟨a, b, rfl, hmatch⟩
    exact ⟨b, (List.mem_tails _ _).mpr (List.suffix_append a b), hmatch⟩

theorem like_everything (s : Text) : like ['%'] s = true :=
  like_percent.mpr ⟨s, [], (List.append_nil s).symm, rfl⟩

theorem like_cons_literal {p : Char} (hp : isWildcard p = false) {pattern s : Text} :
    like (p :: pattern) s = true ↔ ∃ b, s = p :: b ∧ like pattern b = true := by
  simp only [isWildcard, Bool.or_eq_false_iff, beq_eq_false_iff_ne] at hp
  cases s with
  | nil => simp [like_cons_nil hp.1]
  | cons c s =>
    simp only [like_cons_cons hp.1, Bool.and_eq_true, Bool.or_eq_true, beq_iff_eq, hp.2, false_or, List.cons.injEq]
    constructor
    · rintro ⟨rfl, hmatch⟩
      exact ⟨s, ⟨rfl, rfl⟩, hmatch⟩
    · rintro ⟨b, ⟨rfl, rfl⟩, hmatch⟩
      exact ⟨rfl, hmatch⟩

theorem like_literal {w : Text} (hw : isLiteral w = true) {pattern s : Text} :
    like (w ++ pattern) s = true ↔ ∃ b, s = w ++ b ∧ like pattern b = true := by
  induction w generalizing s with
  | nil => simp
  | cons p w ih =>
    rw [isLiteral, List.all_cons, Bool.and_eq_true, ← isLiteral] at hw
    rw [List.cons_append, like_cons_literal (by simpa using hw.1)]
    constructor
    · rintro ⟨t, rfl, hmatch⟩
      obtain ⟨b, rfl, hb⟩ := (ih hw.2).mp hmatch
      exact ⟨b, rfl, hb⟩
    · rintro ⟨b, rfl, hb⟩
      exact ⟨w ++ b, rfl, (ih hw.2).mpr ⟨b, rfl, hb⟩⟩

/-- `a%` -/
theorem like_starts {a : Text} (ha : isLiteral a = true) {s : Text} : like (a ++ ['%']) s = true ↔ a <+: s := by
  rw [like_literal ha]
  constructor
  · rintro ⟨b, rfl, -⟩
    exact List.prefix_append a b
  · rintro ⟨b, rfl⟩
    exact ⟨b, rfl, like_everything b⟩

/-- `%a%b%` -/
theorem like_contains {a b : Text} (ha : isLiteral a = true) (hb : isLiteral b = true) {s : Text} :
    like ('%' :: (a ++ '%' :: (b ++ ['%']))) s = true ↔ ∃ x y z, s = x ++ a ++ y ++ b ++ z := by
  constructor
  · intro h
    obtain ⟨x, s₁, hs, h₁⟩ := like_percent.mp h
    obtain ⟨s₂, hs₁, h₂⟩ := (like_literal ha).mp h₁
    obtain ⟨y, s₃, hs₂, h₃⟩ := like_percent.mp h₂
    obtain ⟨z, hs₃⟩ := (like_starts hb).mp h₃
    exact ⟨x, y, z, by rw [hs, hs₁, hs₂, ← hs₃]; simp only [List.append_assoc]⟩
  · rintro ⟨x, y, z, rfl⟩
    refine like_percent.mpr ⟨x, a ++ (y ++ (b ++ z)), by simp only [List.append_assoc], ?_⟩
    refine (like_literal ha).mpr ⟨y ++ (b ++ z), rfl, ?_⟩
    exact like_percent.mpr ⟨y, b ++ z, rfl, (like_starts hb).mpr (List.prefix_append b z)⟩

theorem stem_of_like {pattern s : Text} (h : like pattern s = true) : stem pattern <+: s := by
  have hparts : stem pattern ++ pattern.dropWhile (fun c => !isWildcard c) = pattern := List.takeWhile_append_dropWhile
  have hstem : isLiteral (stem pattern) = true := by
    rw [isLiteral, List.all_eq_true]
    intro c hc
    exact List.mem_takeWhile_imp (p := fun c => !isWildcard c) hc
  rw [← hparts] at h
  obtain ⟨b, hb, -⟩ := (like_literal hstem).mp h
  exact ⟨b, hb.symm⟩

theorem mem_of_like {pattern s : Text} (h : like pattern s = true) {c : Char} (hc : c ∈ pattern)
    (hlit : isWildcard c = false) : c ∈ s := by
  induction pattern generalizing s with
  | nil => cases hc
  | cons p pattern ih =>
    by_cases hany : p = '%'
    · subst hany
      obtain ⟨a, b, rfl, hb⟩ := like_percent.mp h
      rcases List.mem_cons.mp hc with rfl | hc
      · exact absurd hlit (by decide)
      · exact List.mem_append_right a (ih hb hc)
    · cases s with
      | nil =>
        rw [like_cons_nil hany] at h
        cases h
      | cons d s =>
        simp only [like_cons_cons hany, Bool.and_eq_true, Bool.or_eq_true, beq_iff_eq] at h
        rcases List.mem_cons.mp hc with rfl | hc
        · rcases h.1 with rfl | rfl
          · exact absurd hlit (by decide)
          · exact List.mem_cons_self
        · exact List.mem_cons_of_mem d (ih h.2 hc)

end TrinoGateway.Lib
