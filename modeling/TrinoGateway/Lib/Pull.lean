/-
  TrinoGateway.Lib.Pull — streams that are pulled. A stream is a state and a function
  `poll` that gives the next item, or none at the end, and the state after it. `Polls`
  follows a stream over some items, `Yields` to its end; a stream yields one list of items.
  `pulls` polls a number of times, also past the end.
-/

import Mathlib

namespace TrinoGateway.Lib

variable {σ α : Type} (poll : σ → Option α × σ)

/-- From `s`, the next items are `items`, and the state after them is `s'`. -/
inductive Polls : σ → List α → σ → Prop
  | nil (s : σ) : Polls s [] s
  | cons {s s₁ s' : σ} {a : α} {items : List α} : poll s = (some a, s₁) → Polls s₁ items s' → Polls s (a :: items) s'

/-- No item now and none later. -/
def Exhausted (s : σ) : Prop := ∃ s', poll s = (none, s') ∧ poll s' = (none, s')

/-- Poll `n` times: the items that came, and the state after them. -/
def pulls : ℕ → σ → List α × σ
  | 0, s => ([], s)
  | n + 1, s => ((poll s).1.toList ++ (pulls n (poll s).2).1, (pulls n (poll s).2).2)

def Yields (s : σ) (items : List α) : Prop := ∃ s', Polls poll s items s' ∧ Exhausted poll s'

variable {poll}

/-- What every poll that gives an item keeps, of the items so far and the state, holds after any number of them. -/
theorem Polls.invariant {P : List α → σ → Prop}
    (hstep : ∀ items s a s', P items s → poll s = (some a, s') → P (items ++ [a]) s')
    {s s' : σ} {items more : List α} (hs : P items s) (h : Polls poll s more s') : P (items ++ more) s' := by
  induction h generalizing items with
  | nil s => rwa [List.append_nil]
  | cons hpoll _ ih =>
    have hnext := ih (hstep items _ _ _ hs hpoll)
    rwa [List.append_assoc] at hnext

/-- What every poll keeps, of the items so far and the state, holds after any number of them. -/
theorem pulls_invariant {P : List α → σ → Prop}
    (hstep : ∀ items s, P items s → P (items ++ (poll s).1.toList) (poll s).2)
    {s : σ} {items : List α} (hs : P items s) (n : ℕ) : P (items ++ (pulls poll n s).1) (pulls poll n s).2 := by
  induction n generalizing items s with
  | zero => rwa [pulls, List.append_nil]
  | succ n ih =>
    have hnext := ih (hstep items s hs)
    rwa [List.append_assoc] at hnext

theorem Yields.cons {s s' : σ} {a : α} {items : List α} (h : poll s = (some a, s')) (hs : Yields poll s' items) :
    Yields poll s (a :: items) := by
  obtain ⟨e, hpolls, hend⟩ := hs
  exact ⟨e, .cons h hpolls, hend⟩

/-- A poll takes the first item, if there is one. -/
theorem Yields.next {s : σ} {items : List α} (h : Yields poll s items) :
    ∃ rest, items = (poll s).1.toList ++ rest ∧ Yields poll (poll s).2 rest := by
  obtain ⟨e, hpolls, s', hend, hlast⟩ := h
  cases hpolls with
  | nil =>
    rw [hend]
    exact ⟨[], rfl, s', .nil s', s', hlast, hlast⟩
  | @cons _ _ _ _ rest hp hrest =>
    rw [hp]
    exact ⟨rest, rfl, e, hrest, s', hend, hlast⟩

/-- A state that does on the next poll what another one does yields what that one yields. -/
theorem Yields.of_poll_eq {s t : σ} {items : List α} (h : poll s = poll t) (ht : Yields poll t items) :
    Yields poll s items := by
  obtain ⟨e, hpolls, s', hend, hlast⟩ := ht
  cases hpolls with
  | nil => exact ⟨s, .nil s, s', h.trans hend, hlast⟩
  | cons hp hrest => exact ⟨e, .cons (h.trans hp) hrest, s', hend, hlast⟩

theorem Yields.unique {s : σ} {as bs : List α} (ha : Yields poll s as) (hb : Yields poll s bs) : as = bs := by
  obtain ⟨ea, hpa, sa, hea, -⟩ := ha
  obtain ⟨eb, hpb, sb, heb, -⟩ := hb
  induction hpa generalizing bs with
  | nil s =>
    cases hpb with
    | nil => rfl
    | cons hp _ => cases hea.symm.trans hp
  | cons hp _ ih =>
    cases hpb with
    | nil => cases heb.symm.trans hp
    | cons hp' hrest =>
      obtain ⟨rfl, rfl⟩ : _ = _ ∧ _ = _ := by simpa using hp.symm.trans hp'
      rw [ih hea hrest]

end TrinoGateway.Lib
