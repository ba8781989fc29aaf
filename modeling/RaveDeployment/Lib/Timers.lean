import Mathlib.Data.List.Nodup
import Mathlib.Tactic.Linarith

/-!
# Timers of an event loop

Callbacks that are to run at a time. A timer is known by its number, and no number is given twice:
`Timers` carries both facts, so that the number which a program has kept says which timer it was.
`Punctual` bounds how late the loop runs what is due.
-/

namespace Rave

/-- A callback that is to run at a time. -/
structure Timer (T κ : Type) where
  id : Nat
  due : T
  callback : κ

/-- The timers that are pending. -/
structure Timers (T κ : Type) where
  next : Nat
  pending : List (Timer T κ)
  numbered : ∀ t ∈ pending, t.id < next
  distinct : (pending.map Timer.id).Nodup

namespace Timers

variable {T κ : Type}

/-- No timer is set, and the first one gets the first id. -/
def empty : Timers T κ where
  next := 0
  pending := []
  numbered := fun _ ht => absurd ht List.not_mem_nil
  distinct := List.nodup_nil

/-- Set a timer. Its number is `ts.next`. -/
def set (due : T) (callback : κ) (ts : Timers T κ) : Timers T κ where
  next := ts.next + 1
  pending := ⟨ts.next, due, callback⟩ :: ts.pending
  numbered := by
    intro t ht
    rcases List.mem_cons.mp ht with heq | hin
    · rw [heq]
      show ts.next < ts.next + 1
      omega
    · have hlt := ts.numbered t hin
      omega
  distinct := by
    rw [List.map_cons, List.nodup_cons]
    refine ⟨?_, ts.distinct⟩
    intro hmem
    obtain ⟨t, ht, heq⟩ := List.mem_map.mp hmem
    have hlt : t.id < ts.next := ts.numbered t ht
    have hid : t.id = ts.next := heq
    omega

def clear (id : Nat) (ts : Timers T κ) : Timers T κ where
  next := ts.next
  pending := ts.pending.filter fun t => t.id ≠ id
  numbered := fun t ht => ts.numbered t (List.mem_filter.mp ht).1
  distinct := ts.distinct.sublist (List.filter_sublist.map Timer.id)

/-- Clear the timer whose number was kept, if one was. -/
def clear? (id : Option Nat) (ts : Timers T κ) : Timers T κ :=
  match id with
  | none => ts
  | some id => ts.clear id

def find? (id : Nat) (ts : Timers T κ) : Option (Timer T κ) :=
  ts.pending.find? fun t => t.id = id

variable {ts : Timers T κ} {t u : Timer T κ} {id : Nat} {due : T} {callback : κ}

@[simp] theorem set_next : (ts.set due callback).next = ts.next + 1 := rfl

@[simp] theorem clear_next : (ts.clear id).next = ts.next := rfl

@[simp] theorem mem_set :
    t ∈ (ts.set due callback).pending ↔ t = ⟨ts.next, due, callback⟩ ∨ t ∈ ts.pending :=
  List.mem_cons

@[simp] theorem mem_clear : t ∈ (ts.clear id).pending ↔ t ∈ ts.pending ∧ t.id ≠ id := by
  show t ∈ ts.pending.filter _ ↔ _
  simp

@[simp] theorem mem_clear? {id : Option Nat} :
    t ∈ (ts.clear? id).pending ↔ t ∈ ts.pending ∧ id ≠ some t.id := by
  cases id with
  | none => simp [clear?]
  | some id =>
    show t ∈ (ts.clear id).pending ↔ _
    rw [mem_clear, ne_comm, ne_eq, ne_eq, Option.some.injEq]

@[simp] theorem clear?_next {id : Option Nat} : (ts.clear? id).next = ts.next := by
  cases id <;> rfl

theorem eq_of_id_eq (ht : t ∈ ts.pending) (hu : u ∈ ts.pending) (h : t.id = u.id) : t = u :=
  List.inj_on_of_nodup_map ts.distinct ht hu h

/-- What is found under an id is pending and has it. -/
theorem find?_eq_some (h : ts.find? id = some t) : t ∈ ts.pending ∧ t.id = id := by
  refine ⟨List.mem_of_find?_eq_some h, ?_⟩
  have hid := List.find?_some h
  simpa using hid

/-- A pending timer is found under its id. -/
theorem find?_of_mem (h : t ∈ ts.pending) : ts.find? t.id = some t := by
  cases hfind : ts.find? t.id with
  | none =>
    have hne := List.find?_eq_none.mp hfind t h
    simp at hne
  | some u =>
    obtain ⟨hu, hid⟩ := find?_eq_some hfind
    rw [eq_of_id_eq hu h hid]

/-! ## Lateness

An event loop that is never late by more than a bound. -/

variable [Field T] [LinearOrder T] {now late : T}

def Punctual (now late : T) (ts : Timers T κ) : Prop :=
  ∀ t ∈ ts.pending, now ≤ t.due + late

instance : Decidable (Punctual now late ts) :=
  inferInstanceAs (Decidable (∀ _ ∈ _, _))

/-- Fewer timers are no later, also where there may be none to clear. -/
theorem Punctual.clear? (h : Punctual now late ts) (id : Option Nat) :
    Punctual now late (ts.clear? id) := by
  intro t ht
  exact h t (mem_clear?.mp ht).1

theorem Punctual.clear (h : Punctual now late ts) (id : Nat) : Punctual now late (ts.clear id) :=
  h.clear? (some id)

/-- A timer that is set for now or later is not late. -/
theorem Punctual.set [IsStrictOrderedRing T] (h : Punctual now late ts) (hdue : now ≤ due)
    (hlate : 0 ≤ late) : Punctual now late (ts.set due callback) := by
  intro t ht
  rcases mem_set.mp ht with heq | hin
  · rw [heq]
    show now ≤ due + late
    linarith
  · exact h t hin

end Timers

end Rave
