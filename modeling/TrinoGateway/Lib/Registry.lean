/-
  TrinoGateway.Lib.Registry — a map from keys to values beside the holders of the values. An
  insertion overwrites and a removal goes by the key, so two holders of one key may take each
  other's value away; but what is found is held (`Backed`), always. If no two holders share a
  key, the map is just what they hold (`Mirrors`).
-/

import Mathlib

namespace TrinoGateway.Lib

variable {ι K V : Type} {found : K → Option V} {holds : ι → Option (K × V)}

/-- What is found is held, under the same key. -/
def Backed (found : K → Option V) (holds : ι → Option (K × V)) : Prop :=
  ∀ k v, found k = some v → ∃ i, holds i = some (k, v)

structure Mirrors (found : K → Option V) (holds : ι → Option (K × V)) : Prop where
  backed : Backed found holds
  listed : ∀ i k v, holds i = some (k, v) → found k = some v
  apart : ∀ i j k v v', holds i = some (k, v) → holds j = some (k, v') → i = j

variable [DecidableEq ι] {i j : ι} {k : K} {v : V} {e : K × V}

theorem update_eq_some {α : Type} {f : ι → Option α} {o : Option α} {a : α} (h : Function.update f i o j = some a) :
    j = i ∧ o = some a ∨ j ≠ i ∧ f j = some a := by
  by_cases hj : j = i
  · rw [hj, Function.update_self] at h
    exact .inl ⟨hj, h⟩
  · rw [Function.update_of_ne hj] at h
    exact .inr ⟨hj, h⟩

/-! ## A value changes hands -/

theorem Backed.move (h : Backed found holds) (hi : holds i = some e) (hj : holds j = none) :
    Backed found (Function.update (Function.update holds i none) j (some e)) := by
  intro k' v' hfound
  obtain ⟨l, hl⟩ := h k' v' hfound
  by_cases hli : l = i
  · rw [hli, hi] at hl
    exact ⟨j, by rw [Function.update_self, hl]⟩
  · have hlj : l ≠ j := by
      intro hsame
      rw [hsame, hj] at hl
      cases hl
    exact ⟨l, by rw [Function.update_of_ne hlj, Function.update_of_ne hli, hl]⟩

theorem Mirrors.move (h : Mirrors found holds) (hi : holds i = some e) (hj : holds j = none) :
    Mirrors found (Function.update (Function.update holds i none) j (some e)) := by
  -- The holder a value had before the move.
  have hbefore : ∀ l e', Function.update (Function.update holds i none) j (some e) l = some e' →
      l = j ∧ e = e' ∨ l ≠ j ∧ l ≠ i ∧ holds l = some e' := by
    intro l e' hl
    rcases update_eq_some hl with ⟨hlj, hnew⟩ | ⟨hlj, hl⟩
    · exact .inl ⟨hlj, Option.some.inj hnew⟩
    · rcases update_eq_some hl with ⟨_, hnone⟩ | ⟨hli, hl⟩
      · cases hnone
      · exact .inr ⟨hlj, hli, hl⟩
  refine ⟨h.backed.move hi hj, ?_, ?_⟩
  · intro l k' v' hl
    rcases hbefore l (k', v') hl with ⟨_, hnew⟩ | ⟨_, _, hold⟩
    · rw [hnew] at hi
      exact h.listed i k' v' hi
    · exact h.listed l k' v' hold
  · intro a b k' va vb ha hb
    rcases hbefore a _ ha with ⟨haj, hnew⟩ | ⟨_, hai, hold⟩ <;>
      rcases hbefore b _ hb with ⟨hbj, hnew'⟩ | ⟨_, hbi, hold'⟩
    · rw [haj, hbj]
    · rw [hnew] at hi
      exact absurd (h.apart i b k' va vb hi hold').symm hbi
    · rw [hnew'] at hi
      exact absurd (h.apart i a k' vb va hi hold).symm hai
    · exact h.apart a b k' va vb hold hold'

/-! ## Insertion and removal -/

variable [DecidableEq K]

theorem Backed.add (h : Backed found holds) (hfree : holds i = none) :
    Backed (Function.update found k (some v)) (Function.update holds i (some (k, v))) := by
  intro k' v' hfound
  by_cases hk : k' = k
  · rw [hk, Function.update_self] at hfound
    exact ⟨i, by rw [Function.update_self, hk, Option.some.inj hfound]⟩
  · rw [Function.update_of_ne hk] at hfound
    obtain ⟨j, hj⟩ := h k' v' hfound
    have hne : j ≠ i := by
      intro hsame
      rw [hsame, hfree] at hj
      cases hj
    exact ⟨j, by rw [Function.update_of_ne hne, hj]⟩

theorem Backed.remove (h : Backed found holds) (hi : holds i = some (k, v)) :
    Backed (Function.update found k none) (Function.update holds i none) := by
  intro k' v' hfound
  by_cases hk : k' = k
  · rw [hk, Function.update_self] at hfound
    cases hfound
  · rw [Function.update_of_ne hk] at hfound
    obtain ⟨j, hj⟩ := h k' v' hfound
    have hne : j ≠ i := by
      intro hsame
      rw [hsame, hi] at hj
      exact hk (congrArg Prod.fst (Option.some.inj hj)).symm
    exact ⟨j, by rw [Function.update_of_ne hne, hj]⟩

theorem Mirrors.add (h : Mirrors found holds) (hfree : holds i = none) (hfresh : ∀ j v', holds j ≠ some (k, v')) :
    Mirrors (Function.update found k (some v)) (Function.update holds i (some (k, v))) := by
  refine ⟨h.backed.add hfree, ?_, ?_⟩
  · intro j k' v' hj
    rcases update_eq_some hj with ⟨_, hnew⟩ | ⟨_, hold⟩
    · cases hnew
      rw [Function.update_self]
    · have hne : k' ≠ k := by
        intro hsame
        rw [hsame] at hold
        exact hfresh j v' hold
      rw [Function.update_of_ne hne, h.listed j k' v' hold]
  · intro a b k' va vb ha hb
    rcases update_eq_some ha with ⟨hai, hnew⟩ | ⟨_, hold⟩ <;> rcases update_eq_some hb with ⟨hbi, hnew'⟩ | ⟨_, hold'⟩
    · rw [hai, hbi]
    · cases hnew
      exact absurd hold' (hfresh b vb)
    · cases hnew'
      exact absurd hold (hfresh a va)
    · exact h.apart a b k' va vb hold hold'

theorem Mirrors.remove (h : Mirrors found holds) (hi : holds i = some (k, v)) :
    Mirrors (Function.update found k none) (Function.update holds i none) := by
  refine ⟨h.backed.remove hi, ?_, ?_⟩
  · intro j k' v' hj
    rcases update_eq_some hj with ⟨_, hnone⟩ | ⟨hne, hold⟩
    · cases hnone
    · have hk : k' ≠ k := by
        intro hsame
        rw [hsame] at hold
        exact hne (h.apart j i k v' v hold hi)
      rw [Function.update_of_ne hk, h.listed j k' v' hold]
  · intro a b k' va vb ha hb
    rcases update_eq_some ha with ⟨_, hnone⟩ | ⟨_, hold⟩
    · cases hnone
    · rcases update_eq_some hb with ⟨_, hnone⟩ | ⟨_, hold'⟩
      · cases hnone
      · exact h.apart a b k' va vb hold hold'

end TrinoGateway.Lib
