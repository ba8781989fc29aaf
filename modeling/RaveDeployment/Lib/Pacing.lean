import Mathlib.Algebra.Order.Floor.Semifield
import Mathlib.Tactic.Linarith

/-!
# Pacing by due times

An item is admitted when it arrives no earlier than a due time, and the due time then moves on.
`Paced` is what an admission rule has to keep: the due time grows by a period each time, and falls
behind the arrival admitted by a period at most. It bounds the items admitted in a window of
arrival times, whatever came before the window.
-/

namespace Rave

namespace Pacing

variable {T : Type} [Field T] [LinearOrder T]

/-- An item with the due time that it was admitted at. -/
structure Admission (T : Type) where
  due : T
  arrival : T

/-- A later due time, as far as an admission bounds it. -/
structure Spaced (period : T) (x : Admission T) (later : T) : Prop where
  due : x.due + period ≤ later
  arrival : x.arrival - period ≤ later

/-- Admissions that are never due before their arrival, and that are a period apart. -/
structure Paced (period : T) (xs : List (Admission T)) : Prop where
  eligible : ∀ x ∈ xs, x.due ≤ x.arrival
  spaced : xs.Pairwise fun x y => Spaced period x y.due

/-- What is far enough from a time is so from a later one. -/
theorem Spaced.mono {period t u : T} {x : Admission T} (h : Spaced period x t) (hle : t ≤ u) :
    Spaced period x u :=
  ⟨h.due.trans hle, h.arrival.trans hle⟩

theorem Paced.nil (period : T) : Paced period [] :=
  ⟨fun _ hx => absurd hx List.not_mem_nil, List.Pairwise.nil⟩

theorem Paced.sublist {period : T} {xs ys : List (Admission T)} (h : Paced period ys)
    (hsub : xs.Sublist ys) : Paced period xs :=
  ⟨fun x hx => h.eligible x (hsub.subset hx), h.spaced.sublist hsub⟩

/-- An admission that is far enough from all before it. -/
theorem Paced.concat {period : T} {xs : List (Admission T)} {y : Admission T}
    (h : Paced period xs) (hy : y.due ≤ y.arrival) (hspaced : ∀ x ∈ xs, Spaced period x y.due) :
    Paced period (xs ++ [y]) := by
  constructor
  · intro x hx
    rcases List.mem_append.mp hx with hin | hin
    · exact h.eligible x hin
    · rw [List.mem_singleton.mp hin]
      exact hy
  · apply List.pairwise_append.mpr
    refine ⟨h.spaced, List.pairwise_singleton _ _, ?_⟩
    intro x hx z hz
    rw [List.mem_singleton.mp hz]
    exact hspaced x hx

variable [IsStrictOrderedRing T]

/-- Times that are a period apart fit into an interval as often as its length allows. -/
theorem length_mul_le {period lo hi : T} {times : List T}
    (h : times.Pairwise fun t u => t + period ≤ u) (hlo : ∀ t ∈ times, lo ≤ t)
    (hhi : ∀ t ∈ times, t ≤ hi) (hle : lo ≤ hi + period) :
    times.length * period ≤ hi - lo + period := by
  induction times generalizing lo with
  | nil =>
    rw [List.length_nil, Nat.cast_zero, zero_mul]
    linarith
  | cons t times ih =>
    obtain ⟨hnext, hrest⟩ := List.pairwise_cons.mp h
    have hfirst : lo ≤ t := hlo t List.mem_cons_self
    have hlast : t ≤ hi := hhi t List.mem_cons_self
    have hlater := ih hrest hnext (fun u hu => hhi u (List.mem_cons_of_mem _ hu))
      (by linarith)
    rw [List.length_cons, Nat.cast_add, Nat.cast_one, add_mul, one_mul]
    linarith

/-- The items admitted in an interval: the first may be behind by a period, and those after it are
due a period apart. -/
theorem Paced.length_mul_le {period lo hi : T} {xs : List (Admission T)} (hperiod : 0 < period)
    (h : Paced period xs) (hlo : ∀ x ∈ xs, lo ≤ x.arrival) (hhi : ∀ x ∈ xs, x.arrival ≤ hi)
    (hle : lo ≤ hi) : xs.length * period ≤ hi - lo + 3 * period := by
  cases xs with
  | nil =>
    rw [List.length_nil, Nat.cast_zero, zero_mul]
    linarith
  | cons x xs =>
    obtain ⟨hnext, hrest⟩ := List.pairwise_cons.mp h.spaced
    have hlater : ((xs.map Admission.due).length : T) * period
        ≤ hi - (lo - period) + period := by
      apply Pacing.length_mul_le
      · exact List.pairwise_map.mpr (hrest.imp fun hspaced => hspaced.due)
      · intro t ht
        obtain ⟨y, hy, rfl⟩ := List.mem_map.mp ht
        have hfirst : lo ≤ x.arrival := hlo x List.mem_cons_self
        linarith [(hnext y hy).arrival]
      · intro t ht
        obtain ⟨y, hy, rfl⟩ := List.mem_map.mp ht
        exact (h.eligible y (List.mem_cons_of_mem _ hy)).trans (hhi y (List.mem_cons_of_mem _ hy))
      · linarith
    rw [List.length_map] at hlater
    rw [List.length_cons, Nat.cast_add, Nat.cast_one, add_mul, one_mul]
    linarith

def inWindow (start length : T) (arrivals : List T) : List T :=
  arrivals.filter fun t => start ≤ t ∧ t ≤ start + length

variable [FloorSemiring T]

/-- **The rate of a paced admission**, over any window of arrival times. -/
theorem Paced.window_le {period : T} {xs : List (Admission T)} (hperiod : 0 < period)
    (h : Paced period xs) (start length : T) :
    (inWindow start length (xs.map Admission.arrival)).length ≤ ⌊length / period⌋₊ + 3 := by
  unfold inWindow
  rw [List.filter_map, List.length_map]
  set ys := xs.filter _ with hys
  have hin : ∀ y ∈ ys, start ≤ y.arrival ∧ y.arrival ≤ start + length := by
    intro y hy
    exact of_decide_eq_true (List.mem_filter.mp hy).2
  by_cases hneg : 0 ≤ length
  · have hmul : (ys.length : T) * period ≤ start + length - start + 3 * period :=
      (h.sublist List.filter_sublist).length_mul_le hperiod (fun y hy => (hin y hy).1)
        (fun y hy => (hin y hy).2) (by linarith)
    have hdiv : (ys.length : T) ≤ length / period + (3 : ℕ) := by
      rw [← sub_le_iff_le_add, le_div_iff₀ hperiod, sub_mul]
      push_cast
      linarith
    rw [← Nat.floor_add_natCast (by positivity)]
    exact Nat.le_floor hdiv
  · -- nothing is in a window that ends before it starts
    have hnone : ys = [] := by
      apply List.eq_nil_iff_forall_not_mem.mpr
      intro y hy
      linarith [(hin y hy).1, (hin y hy).2]
    rw [hnone]
    exact Nat.zero_le _

end Pacing

end Rave
