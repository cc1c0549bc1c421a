/-
  TrinoGateway.Lib.Run — runs of a state machine. A machine is a step function, a run a list
  of inputs; `Along` is a condition that every step of a run meets in the state it is taken
  in, and what every such step keeps holds after the run (`Along.invariant`).
-/

import Mathlib

namespace TrinoGateway.Lib

variable {σ α : Type} (step : σ → α → σ)

def run (s : σ) (inputs : List α) : σ := inputs.foldl step s

/-- Every step of the run from `s` meets `C` in the state before it. -/
def Along (C : σ → α → Prop) : σ → List α → Prop
  | _, [] => True
  | s, a :: inputs => C s a ∧ Along C (step s a) inputs

variable {step} {C : σ → α → Prop} {s : σ} {as bs : List α}

theorem run_append : run step s (as ++ bs) = run step (run step s as) bs := List.foldl_append

@[simp] theorem run_cons {a : α} : run step s (a :: as) = run step (step s a) as := rfl

@[simp] theorem run_nil : run step s [] = s := rfl

theorem along_append : Along step C s (as ++ bs) ↔ Along step C s as ∧ Along step C (run step s as) bs := by
  induction as generalizing s with
  | nil => simp [Along]
  | cons a as ih => simp only [List.cons_append, Along, ih, run_cons, and_assoc]

/-- A condition on the inputs alone. -/
theorem along_of_forall {Q : α → Prop} (h : ∀ a ∈ as, Q a) : Along step (fun _ a => Q a) s as := by
  induction as generalizing s with
  | nil => trivial
  | cons a as ih => exact ⟨h a List.mem_cons_self, ih fun b hb => h b (List.mem_cons_of_mem a hb)⟩

theorem run_invariant {P : σ → Prop} (hstep : ∀ s a, P s → P (step s a)) (hs : P s) : P (run step s as) := by
  induction as generalizing s with
  | nil => exact hs
  | cons a as ih => exact ih (hstep s a hs)

theorem Along.invariant {P : σ → Prop} (hstep : ∀ s a, P s → C s a → P (step s a)) (h : Along step C s as) (hs : P s) :
    P (run step s as) := by
  induction as generalizing s with
  | nil => exact hs
  | cons a as ih => exact ih h.2 (hstep s a hs h.1)

/-- In the states a run reaches, one condition on its steps may give another. -/
theorem Along.imp {P : σ → Prop} {D : σ → α → Prop} (hstep : ∀ s a, P s → P (step s a))
    (himp : ∀ s a, P s → C s a → D s a) (hs : P s) (h : Along step C s as) : Along step D s as := by
  induction as generalizing s with
  | nil => trivial
  | cons a as ih => exact ⟨himp s a hs h.1, ih (hstep s a hs) h.2⟩

/-! ## Steps that commute -/

theorem run_perm (hcomm : ∀ a ∈ as, ∀ b ∈ as, ∀ s, step (step s a) b = step (step s b) a) (h : as.Perm bs) :
    run step s as = run step s bs :=
  h.foldl_eq' hcomm s

theorem run_run (hcomm : ∀ a ∈ as, ∀ b ∈ as, ∀ s, step (step s a) b = step (step s b) a)
    (hidem : ∀ a ∈ as, ∀ s, step (step s a) a = step s a) : run step (run step s as) as = run step s as := by
  induction as generalizing s with
  | nil => rfl
  | cons a as ih =>
    -- The second `a` moves to the front, next to the first one.
    have hfront : (a :: as ++ a :: as).Perm (a :: a :: (as ++ as)) := by
      rw [List.cons_append]
      exact List.perm_middle.cons a
    have hcomm' : ∀ x ∈ a :: as ++ a :: as, ∀ y ∈ a :: as ++ a :: as, ∀ s, step (step s x) y = step (step s y) x := by
      intro x hx y hy
      rw [List.mem_append, or_self] at hx hy
      exact hcomm x hx y hy
    calc run step (run step s (a :: as)) (a :: as)
        = run step s (a :: as ++ a :: as) := run_append.symm
      _ = run step s (a :: a :: (as ++ as)) := run_perm hcomm' hfront
      _ = run step (step s a) (as ++ as) := by rw [run_cons, run_cons, hidem a List.mem_cons_self]
      _ = run step (step s a) as := by
        rw [run_append]
        apply ih
        · exact fun x hx y hy => hcomm x (List.mem_cons_of_mem a hx) y (List.mem_cons_of_mem a hy)
        · exact fun x hx => hidem x (List.mem_cons_of_mem a hx)

end TrinoGateway.Lib
