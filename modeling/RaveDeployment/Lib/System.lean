import Mathlib.Tactic.Common

/-!
# Labelled systems and their runs

A `System` is an initial state and a partial step function on labelled actions. `Run ok s as t`
is a run from `s` to `t` all of whose steps satisfy the condition `ok`; `Run.invariant` is the
induction over them, and `run_of_exec` turns the execution of a concrete list of actions into a
run.
-/

namespace Rave

universe u v

/-- A transition system whose steps are labelled and may be impossible. -/
structure System (σ : Type u) (α : Type v) where
  init : σ
  step : α → σ → Option σ

namespace System

variable {σ : Type u} {α : Type v} (M : System σ α)

/-- The runs whose steps satisfy `ok`, with the actions taken. -/
inductive Run (ok : σ → α → Prop) (s : σ) : List α → σ → Prop where
  | refl : Run ok s [] s
  | step {as : List α} {t w : σ} {a : α} (run : Run ok s as t) (hok : ok t a)
      (hs : M.step a t = some w) : Run ok s (as ++ [a]) w

variable {M} {ok ok' : σ → α → Prop} {s t : σ} {as : List α}

/-- A property that holds at first and that every step keeps holds at the end of a run. -/
theorem Run.invariant {I : σ → Prop} (h0 : I s)
    (hstep : ∀ t a w, I t → ok t a → M.step a t = some w → I w) (run : M.Run ok s as t) : I t := by
  induction run with
  | refl => exact h0
  | step _ hok hs ih => exact hstep _ _ _ ih hok hs

/-- A run under a stricter discipline is one under a laxer one. -/
theorem Run.mono (h : ∀ s a, ok s a → ok' s a) (run : M.Run ok s as t) : M.Run ok' s as t := by
  induction run with
  | refl => exact .refl
  | step _ hok hs ih => exact .step ih (h _ _ hok) hs

/-- Runs are put together where one begins in the other's end. -/
theorem Run.trans {bs : List α} {w : σ} (run : M.Run ok s as t) (rest : M.Run ok t bs w) :
    M.Run ok s (as ++ bs) w := by
  induction rest with
  | refl => rwa [List.append_nil]
  | step _ hok hs ih =>
    rw [← List.append_assoc]
    exact .step ih hok hs

/-- Two conditions that agree where an invariant holds have the same runs. -/
theorem Run.iff_of_step {I : σ → Prop} (h0 : I s)
    (hstep : ∀ t a w, I t → ok t a → M.step a t = some w → I w)
    (hsame : ∀ t a w, I t → M.step a t = some w → (ok t a ↔ ok' t a)) :
    M.Run ok s as t ↔ M.Run ok' s as t := by
  constructor
  · intro run
    induction run with
    | refl => exact .refl
    | step run hok hs ih => exact .step ih ((hsame _ _ _ (run.invariant h0 hstep) hs).mp hok) hs
  · intro run
    induction run with
    | refl => exact .refl
    | step _ hok hs ih => exact .step ih ((hsame _ _ _ (ih.invariant h0 hstep) hs).mpr hok) hs

variable (M)

/-- Execute a list of actions, checking a condition on the way. -/
def exec (check : σ → α → Bool) : List α → σ → Option σ
  | [], s => some s
  | a :: as, s => if check s a then (M.step a s).bind (exec check as) else none

variable {M}

/-- A run that has been followed can be executed further. -/
theorem Run.exec_append {check : σ → α → Bool} {done : List α} {w : σ}
    (run : M.Run (fun s a => check s a = true) s done t) (h : M.exec check as t = some w) :
    M.Run (fun s a => check s a = true) s (done ++ as) w := by
  induction as generalizing done t with
  | nil =>
    rw [exec, Option.some.injEq] at h
    rw [List.append_nil, ← h]
    exact run
  | cons a as ih =>
    rw [exec] at h
    split at h
    · next hc =>
      obtain ⟨v, hv, hrest⟩ := Option.bind_eq_some_iff.mp h
      rw [show done ++ a :: as = (done ++ [a]) ++ as from by simp]
      exact ih (.step run hc hv) hrest
    · exact absurd h (by simp)

/-- A list of actions that executes is a run. -/
theorem run_of_exec {check : σ → α → Bool} (h : M.exec check as s = some t) :
    M.Run (fun s a => check s a = true) s as t := by
  simpa using Run.exec_append .refl h

end System

end Rave
