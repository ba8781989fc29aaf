import Mathlib.Data.List.Forall2
import Mathlib.Tactic.Common

/-!
# Bounded first-in first-out queues

`queue.Queue(maxsize=n)`: a queue of at most `n` items, the bound carried as a field. `put?`
refuses on a full queue, `get?` on an empty one.
-/

namespace Rave

/-- A first-in first-out queue with room for `n` items. -/
structure BoundedQueue (α : Type) (n : Nat) where
  items : List α
  length_le : items.length ≤ n

namespace BoundedQueue

variable {α : Type} {n : Nat}

def empty : BoundedQueue α n := ⟨[], Nat.zero_le n⟩

/-- There is room for one more where the queue is not full. -/
theorem length_concat_le {q : BoundedQueue α n} (h : q.items.length < n) (a : α) :
    (q.items ++ [a]).length ≤ n := by
  rw [List.length_append, List.length_singleton]
  omega

/-- `put_nowait`, or nothing on `queue.Full`. -/
def put? (q : BoundedQueue α n) (a : α) : Option (BoundedQueue α n) :=
  if h : q.items.length < n then some ⟨q.items ++ [a], length_concat_le h a⟩ else none

/-- `get`, or nothing on `queue.Empty`. -/
def get? (q : BoundedQueue α n) : Option (α × BoundedQueue α n) :=
  match h : q.items with
  | [] => none
  | a :: rest => some (a, ⟨rest, by have := q.length_le; rw [h] at this; simp at this; omega⟩)

/-- An item is taken where there is room, and it goes to the end. -/
theorem put?_eq_some {q q' : BoundedQueue α n} {a : α} (h : q.put? a = some q') :
    q.items.length < n ∧ q'.items = q.items ++ [a] := by
  unfold put? at h
  split at h
  · next hlt =>
    cases h
    exact ⟨hlt, rfl⟩
  · exact absurd h (by simp)

/-- The item that is given is the one that has waited longest. -/
theorem get?_eq_some {q q' : BoundedQueue α n} {a : α} (h : q.get? = some (a, q')) :
    q.items = a :: q'.items := by
  unfold get? at h
  split at h
  · exact absurd h (by simp)
  · next hq =>
    cases h
    exact hq

/-- A queue of one place that holds an item holds nothing else. -/
theorem items_eq_nil_of_get? {q q' : BoundedQueue α 1} {a : α} (h : q.get? = some (a, q')) :
    q'.items = [] := by
  have hlen := q.length_le
  rw [get?_eq_some h, List.length_cons] at hlen
  exact List.eq_nil_of_length_eq_zero (by omega)

/-- A queue of one place accepts an item exactly when it is empty. -/
theorem items_eq_nil_of_put? {q q' : BoundedQueue α 1} {a : α} (h : q.put? a = some q') :
    q.items = [] ∧ q'.items = [a] := by
  obtain ⟨hlt, hq'⟩ := put?_eq_some h
  have hnil : q.items = [] := List.eq_nil_of_length_eq_zero (by omega)
  exact ⟨hnil, by simpa [hnil] using hq'⟩

/-! ## Two queues with related items

Whether a queue takes or gives an item does not depend on what the items are, so two queues whose
items are related one by one stay so. -/

variable {R : α → α → Prop} {q q' : BoundedQueue α n}

/-- Of two such queues both take an item or neither does. -/
theorem put?_rel {a a' : α} (hq : List.Forall₂ R q.items q'.items) (ha : R a a') :
    Option.Rel (fun r r' => List.Forall₂ R r.items r'.items) (q.put? a) (q'.put? a') := by
  have hlen : q.items.length = q'.items.length := hq.length_eq
  unfold put?
  split
  · next hlt =>
    rw [dif_pos (by omega)]
    exact .some (List.rel_append hq (.cons ha .nil))
  · next hge =>
    rw [dif_neg (by omega)]
    exact .none

/-- Of two such queues both give an item or neither does. -/
theorem get?_rel (hq : List.Forall₂ R q.items q'.items) :
    Option.Rel (fun x x' => R x.1 x'.1 ∧ List.Forall₂ R x.2.items x'.2.items) q.get? q'.get? := by
  obtain ⟨items, hlen⟩ := q
  obtain ⟨items', hlen'⟩ := q'
  cases hq with
  | nil => exact .none
  | cons ha hrest => exact .some ⟨ha, hrest⟩

end BoundedQueue

end Rave
