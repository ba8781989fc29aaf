import Mathlib.Tactic.Common

/-!
# Sequences of checks

A program that raises at the first check that fails: when it accepts.
-/

namespace Rave

variable {ε α β : Type}

/-- `if not condition: raise e`. -/
def check (condition : Prop) [Decidable condition] (e : ε) : Except ε Unit :=
  if condition then .ok () else .error e

/-- A check passes where its condition holds. -/
theorem check_eq_ok {condition : Prop} [Decidable condition] {e : ε} :
    check condition e = .ok () ↔ condition := by
  unfold check
  split
  · next h => simp [h]
  · next h => simp [h]

theorem ok_bind (a : α) (f : α → Except ε β) : (Except.ok a >>= f) = f a := rfl

/-- A sequence returns where its first part does, and its second part on that value. -/
theorem bind_eq_ok {x : Except ε α} {f : α → Except ε β} {b : β} :
    (x >>= f) = .ok b ↔ ∃ a, x = .ok a ∧ f a = .ok b := by
  cases x with
  | error e => simp [bind, Except.bind]
  | ok a => simp [bind, Except.bind]

/-- The same for a first part that returns nothing. -/
theorem bind_unit_eq_ok {first : Except ε Unit} {next : Except ε β} {b : β} :
    (first >>= fun _ => next) = .ok b ↔ first = .ok () ∧ next = .ok b := by
  cases first with
  | error e => simp [bind, Except.bind]
  | ok u => simp [bind, Except.bind]

/-- What is returned is returned part by part. -/
theorem pair_of_ok {a a' : α} {b b' : β}
    (h : (Except.ok (a, b) : Except ε (α × β)) = .ok (a', b')) : a = a' ∧ b = b' :=
  Prod.mk.inj (Except.ok.inj h)

/-- A loop of checks accepts where each of them does. -/
theorem forM_eq_ok {f : α → Except ε Unit} {l : List α} :
    l.forM f = .ok () ↔ ∀ a ∈ l, f a = .ok () := by
  induction l with
  | nil => simp [List.forM, pure, Except.pure]
  | cons a l ih => rw [List.forM, bind_unit_eq_ok, ih, List.forall_mem_cons]

/-- A loop that collects the results of parts that all return. -/
theorem mapM_of_forall {f : α → Except ε β} {P : α → β → Prop} {l : List α}
    (h : ∀ a ∈ l, ∃ b, f a = .ok b ∧ P a b) :
    ∃ bs, l.mapM f = .ok bs ∧ List.Forall₂ P l bs := by
  induction l with
  | nil => exact ⟨[], rfl, .nil⟩
  | cons a l ih =>
    obtain ⟨b, hb, hP⟩ := h a List.mem_cons_self
    obtain ⟨bs, hbs, hall⟩ := ih fun a' ha => h a' (List.mem_cons_of_mem _ ha)
    refine ⟨b :: bs, ?_, .cons hP hall⟩
    rw [List.mapM_cons, hb]
    show (l.mapM f >>= fun bs => .ok (b :: bs)) = _
    rw [hbs]
    rfl

end Rave
