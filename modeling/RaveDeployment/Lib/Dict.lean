import Mathlib.Data.List.Induction
import Mathlib.Data.List.Nodup
import Mathlib.Tactic.Common

/-!
# Dictionaries built from entries

An association list without repeated keys, and the one a sequence of assignments makes: it keeps,
for each key, the last entry (`mem_dictOf`). The entries before it are lost.
-/

namespace Rave

variable {κ β : Type}

/-- `d[key] = value`: a key that is there keeps its place. -/
def dictSet [DecidableEq κ] (key : κ) (value : β) : List (κ × β) → List (κ × β)
  | [] => [(key, value)]
  | (k, v) :: d => if k = key then (key, value) :: d else (k, v) :: dictSet key value d

/-- `dict(entries)`. -/
def dictOf [DecidableEq κ] (entries : List (κ × β)) : List (κ × β) :=
  entries.foldl (fun d e => dictSet e.1 e.2 d) []

def IsLast (entries : List (κ × β)) (e : κ × β) : Prop :=
  ∃ before after, entries = before ++ e :: after ∧ e.1 ∉ after.map Prod.fst

/-- An entry is the last of its key, or another one comes after it. -/
theorem isLast_or_mem_after {entries before after : List (κ × β)} {e : κ × β}
    (h : entries = before ++ e :: after) : IsLast entries e ∨ e.1 ∈ after.map Prod.fst := by
  by_cases hmem : e.1 ∈ after.map Prod.fst
  · exact Or.inr hmem
  · exact Or.inl ⟨before, after, h, hmem⟩

variable [BEq κ] [LawfulBEq κ]

/-- Where no key is repeated, a key's value is the one of its entry. -/
theorem lookup_eq_some_iff_mem {d : List (κ × β)} (hd : (d.map Prod.fst).Nodup) {key : κ}
    {value : β} : d.lookup key = some value ↔ (key, value) ∈ d := by
  constructor
  · intro h
    obtain ⟨before, after, heq, -⟩ := List.lookup_eq_some_iff.mp h
    rw [heq]
    exact List.mem_append_right _ List.mem_cons_self
  · intro h
    cases hfind : d.lookup key with
    | none =>
      have hnone := List.lookup_eq_none_iff.mp hfind _ h
      simp at hnone
    | some other =>
      obtain ⟨before, after, heq, -⟩ := List.lookup_eq_some_iff.mp hfind
      have hother : (key, other) ∈ d := by
        rw [heq]
        exact List.mem_append_right _ List.mem_cons_self
      -- two entries of one key are one entry
      have hentry := List.inj_on_of_nodup_map hd hother h rfl
      rw [Prod.mk.injEq] at hentry
      rw [hentry.2]

/-- Searching from the end finds the last entry of a key. -/
theorem lookup_reverse_iff {entries : List (κ × β)} {e : κ × β} :
    entries.reverse.lookup e.1 = some e.2 ↔ IsLast entries e := by
  rw [List.lookup_eq_some_iff]
  constructor
  · intro h
    obtain ⟨after, before, heq, hafter⟩ := h
    refine ⟨before.reverse, after.reverse, ?_, ?_⟩
    · have := congrArg List.reverse heq
      simpa using this
    · intro hmem
      obtain ⟨p, hp, hkey⟩ := List.mem_map.mp hmem
      have := hafter p (List.mem_reverse.mp hp)
      simp [hkey] at this
  · intro h
    obtain ⟨before, after, heq, hafter⟩ := h
    refine ⟨after.reverse, before.reverse, ?_, ?_⟩
    · rw [heq]
      simp
    · intro p hp
      rw [bne_iff_ne]
      intro hkey
      exact hafter (List.mem_map.mpr ⟨p, List.mem_reverse.mp hp, hkey.symm⟩)

variable [DecidableEq κ]

/-- The first entry hides the later ones of its key. -/
theorem lookup_cons_eq (e : κ × β) (d : List (κ × β)) (k : κ) :
    List.lookup k (e :: d) = if k = e.1 then some e.2 else d.lookup k := by
  rw [List.lookup_cons]
  by_cases h : k = e.1
  · simp [h]
  · simp [h, beq_eq_false_iff_ne.mpr h]

/-- Setting a key changes what is found under that key only. -/
theorem lookup_dictSet (key : κ) (value : β) (d : List (κ × β)) (k : κ) :
    (dictSet key value d).lookup k = if k = key then some value else d.lookup k := by
  induction d with
  | nil => exact lookup_cons_eq (key, value) [] k
  | cons e d ih =>
    obtain ⟨k', v⟩ := e
    by_cases hk' : k' = key
    · rw [dictSet, if_pos hk', lookup_cons_eq, lookup_cons_eq]
      by_cases h : k = key
      · rw [if_pos h, if_pos h]
      · rw [if_neg h, if_neg h, if_neg (show k ≠ k' by rwa [hk'])]
    · rw [dictSet, if_neg hk', lookup_cons_eq, lookup_cons_eq, ih]
      by_cases h : k = k'
      · rw [if_pos h, if_neg (show k ≠ key by rwa [h]), if_pos h]
      · rw [if_neg h, if_neg h]

/-- A key that is there keeps its place, a new one goes to the end. -/
theorem keys_dictSet (key : κ) (value : β) (d : List (κ × β)) :
    (dictSet key value d).map Prod.fst =
      if key ∈ d.map Prod.fst then d.map Prod.fst else d.map Prod.fst ++ [key] := by
  induction d with
  | nil => simp [dictSet]
  | cons e d ih =>
    obtain ⟨k, v⟩ := e
    by_cases h : k = key
    · simp [dictSet, h]
    · rw [dictSet, if_neg h, List.map_cons, ih, List.map_cons]
      by_cases hmem : key ∈ d.map Prod.fst
      · rw [if_pos hmem, if_pos (List.mem_cons_of_mem _ hmem)]
      · rw [if_neg hmem, if_neg, List.cons_append]
        rw [List.mem_cons, not_or]
        exact ⟨fun heq => h heq.symm, hmem⟩

omit [BEq κ] [LawfulBEq κ] in
theorem dictOf_append_singleton (entries : List (κ × β)) (e : κ × β) :
    dictOf (entries ++ [e]) = dictSet e.1 e.2 (dictOf entries) := by
  simp [dictOf]

/-- Each key is there once. -/
theorem nodup_keys_dictOf (entries : List (κ × β)) : ((dictOf entries).map Prod.fst).Nodup := by
  induction entries using List.reverseRecOn with
  | nil => exact List.nodup_nil
  | append_singleton entries e ih =>
    rw [dictOf_append_singleton, keys_dictSet]
    split
    · exact ih
    · next h =>
      rw [List.nodup_append_comm, List.singleton_append]
      exact List.nodup_cons.mpr ⟨h, ih⟩

/-- The last assignment to a key gives its value. -/
theorem lookup_dictOf (entries : List (κ × β)) (k : κ) :
    (dictOf entries).lookup k = entries.reverse.lookup k := by
  induction entries using List.reverseRecOn with
  | nil => rfl
  | append_singleton entries e ih =>
    rw [dictOf_append_singleton, lookup_dictSet, List.reverse_append, List.reverse_singleton,
      List.singleton_append, lookup_cons_eq, ih]

/-- A dictionary holds the last entry of every key, and nothing else. -/
theorem mem_dictOf {entries : List (κ × β)} {e : κ × β} :
    e ∈ dictOf entries ↔ IsLast entries e := by
  rw [← lookup_reverse_iff, ← lookup_dictOf, lookup_eq_some_iff_mem (nodup_keys_dictOf entries)]

/-- What is found under a key is the last entry of it. -/
theorem lookup_dictOf_eq_some {entries : List (κ × β)} {key : κ} {value : β} :
    (dictOf entries).lookup key = some value ↔ IsLast entries (key, value) := by
  rw [lookup_dictOf, lookup_reverse_iff (e := (key, value))]

end Rave
