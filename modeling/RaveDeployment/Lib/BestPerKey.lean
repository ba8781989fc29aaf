import Mathlib

/-!
# The best entry of every key

A pass over a list that keeps one entry for each key, replaced only by an entry with a greater
score. `bestPerKey_foldl`: what is kept is, for every key, the first entry with the greatest score.
`perm_map_of_perm`: the keys and their scores do not depend on the order of the entries.
-/

namespace Rave

namespace BestPerKey

variable {α κ β : Type} [DecidableEq κ] [LinearOrder β] (key : α → κ) (score : α → β)

/-- Replace the entry of the same key where it has a smaller score; a new key goes to the end. -/
def keepBest (best : List α) (a : α) : List α :=
  if best.any fun b => key b = key a then
    best.map fun b => if key b = key a ∧ score b < score a then a else b
  else best ++ [a]

/-- The first entry with the greatest score among those of its key. -/
def FirstBest (done : List α) (a : α) : Prop :=
  ∃ before after, done = before ++ a :: after ∧
    (∀ b ∈ before, key b = key a → score b < score a) ∧
    ∀ b ∈ after, key b = key a → score b ≤ score a

/-- What is kept of the entries that are done. -/
structure Kept (done best : List α) : Prop where
  nodup : (best.map key).Nodup
  first : ∀ a ∈ best, FirstBest key score done a
  covers : ∀ b ∈ done, ∃ a ∈ best, key a = key b

variable {key score} {done best : List α} {a x : α}

omit [DecidableEq κ] in
/-- The first best element is one of those that came by. -/
theorem FirstBest.mem (h : FirstBest key score done a) : a ∈ done := by
  obtain ⟨before, after, rfl, -, -⟩ := h
  simp

omit [DecidableEq κ] in
/-- No element with its key has a higher score. -/
theorem FirstBest.le (h : FirstBest key score done a) {b : α} (hb : b ∈ done)
    (hkey : key b = key a) : score b ≤ score a := by
  obtain ⟨before, after, rfl, hbefore, hafter⟩ := h
  rcases List.mem_append.mp hb with hb | hb
  · exact le_of_lt (hbefore b hb hkey)
  · rcases List.mem_cons.mp hb with heq | hb
    · rw [heq]
    · exact hafter b hb hkey

omit [DecidableEq κ] in
/-- An entry that is not better changes nothing. -/
theorem FirstBest.snoc (h : FirstBest key score done a) (hx : key x = key a → score x ≤ score a) :
    FirstBest key score (done ++ [x]) a := by
  obtain ⟨before, after, rfl, hbefore, hafter⟩ := h
  refine ⟨before, after ++ [x], by simp, hbefore, ?_⟩
  intro b hb
  rcases List.mem_append.mp hb with hb | hb
  · exact hafter b hb
  · rw [List.mem_singleton.mp hb]
    exact hx

omit [DecidableEq κ] in
/-- An element that beats all that have its key is the first best of it. -/
theorem firstBest_last (h : ∀ b ∈ done, key b = key x → score b < score x) :
    FirstBest key score (done ++ [x]) x :=
  ⟨done, [], rfl, h, by simp⟩

omit [DecidableEq κ] in
/-- There is one for each key. -/
theorem FirstBest.unique {c : α} (h : FirstBest key score done a) (h' : FirstBest key score done c)
    (hkey : key a = key c) : a = c := by
  obtain ⟨before, after, hdone, hbefore, hafter⟩ := h
  obtain ⟨before', after', hdone', hbefore', hafter'⟩ := h'
  rw [hdone] at hdone'
  rcases List.append_eq_append_iff.mp hdone' with ⟨mid, hb, ha⟩ | ⟨mid, hb, ha⟩
  · cases mid with
    | nil => exact (List.cons.inj ha).1
    | cons x mid =>
      -- the one comes before the other, which would have to be greater
      obtain ⟨rfl, rfl⟩ := List.cons.inj ha
      have hlt : score a < score c := hbefore' a (by simp [hb]) hkey
      have hle : score c ≤ score a := hafter c (by simp) hkey.symm
      exact absurd hlt (not_lt.mpr hle)
  · cases mid with
    | nil => exact (List.cons.inj ha).1.symm
    | cons x mid =>
      obtain ⟨rfl, rfl⟩ := List.cons.inj ha
      have hlt : score c < score a := hbefore c (by simp [hb]) hkey.symm
      have hle : score a ≤ score c := hafter' a (by simp) hkey
      exact absurd hlt (not_lt.mpr hle)

/-- Where the key is there already, the keys stay as they are. -/
theorem map_key_keepBest (hany : (best.any fun b => key b = key x) = true) :
    (keepBest key score best x).map key = best.map key := by
  unfold keepBest
  rw [if_pos hany, List.map_map]
  apply List.map_congr_left
  intro b _
  show key (if key b = key x ∧ score b < score x then x else b) = key b
  split
  · next h => exact h.1.symm
  · rfl

/-- One more element keeps the invariant. -/
theorem Kept.snoc (h : Kept key score done best) (x : α) :
    Kept key score (done ++ [x]) (keepBest key score best x) := by
  by_cases hany : (best.any fun b => key b = key x) = true
  · obtain ⟨c, hc, hkey⟩ := List.any_eq_true.mp hany
    have hkey : key c = key x := by simpa using hkey
    -- the key is there already: the entry under it changes at most
    have hkeys : (keepBest key score best x).map key = best.map key := map_key_keepBest hany
    refine ⟨?_, ?_, ?_⟩
    · rw [hkeys]
      exact h.nodup
    · intro a ha
      unfold keepBest at ha
      rw [if_pos hany] at ha
      obtain ⟨b, hb, rfl⟩ := List.mem_map.mp ha
      split
      · -- the new entry is better than the one that was the best so far
        next hless =>
        apply firstBest_last
        intro d hd hdkey
        exact lt_of_le_of_lt ((h.first b hb).le hd (hdkey.trans hless.1.symm)) hless.2
      · next hnot =>
        apply (h.first b hb).snoc
        intro hxkey
        exact not_lt.mp fun hlt => hnot ⟨hxkey.symm, hlt⟩
    · intro b hb
      have hmem : key b ∈ (keepBest key score best x).map key := by
        rw [hkeys]
        rcases List.mem_append.mp hb with hb | hb
        · obtain ⟨a, ha, hakey⟩ := h.covers b hb
          exact List.mem_map.mpr ⟨a, ha, hakey⟩
        · rw [List.mem_singleton.mp hb]
          exact List.mem_map.mpr ⟨c, hc, hkey⟩
      exact List.mem_map.mp hmem
  · have hnone : ∀ b ∈ best, key b ≠ key x := by
      intro b hb heq
      exact hany (List.any_eq_true.mpr ⟨b, hb, by simpa using heq⟩)
    have hnew : ∀ b ∈ done, key b ≠ key x := by
      intro b hb heq
      obtain ⟨a, ha, hakey⟩ := h.covers b hb
      exact hnone a ha (hakey.trans heq)
    unfold keepBest
    rw [if_neg hany]
    refine ⟨?_, ?_, ?_⟩
    · rw [List.map_append, List.map_singleton]
      apply List.nodup_append.mpr
      refine ⟨h.nodup, List.nodup_singleton _, ?_⟩
      intro k hk k' hk' heq
      obtain ⟨b, hb, rfl⟩ := List.mem_map.mp hk
      exact hnone b hb (heq.trans (List.mem_singleton.mp hk'))
    · intro a ha
      rcases List.mem_append.mp ha with ha | ha
      · apply (h.first a ha).snoc
        intro heq
        exact absurd heq.symm (hnone a ha)
      · rw [List.mem_singleton.mp ha]
        apply firstBest_last
        intro b hb heq
        exact absurd heq (hnew b hb)
    · intro b hb
      rcases List.mem_append.mp hb with hb | hb
      · obtain ⟨a, ha, hakey⟩ := h.covers b hb
        exact ⟨a, List.mem_append_left _ ha, hakey⟩
      · rw [List.mem_singleton.mp hb]
        exact ⟨x, by simp, rfl⟩

/-- Any number of elements keep the invariant. -/
theorem Kept.foldl (h : Kept key score done best) (rest : List α) :
    Kept key score (done ++ rest) (rest.foldl (keepBest key score) best) := by
  induction rest generalizing done best with
  | nil =>
    rw [List.append_nil]
    exact h
  | cons x rest ih =>
    have hrest := ih (h.snoc x)
    rw [List.append_assoc, List.singleton_append] at hrest
    exact hrest

/-- **What the pass keeps.** -/
theorem kept_foldl (l : List α) : Kept key score l (l.foldl (keepBest key score) []) := by
  have hempty : Kept key score [] ([] : List α) := ⟨by simp, by simp, by simp⟩
  exact hempty.foldl l

/-! ## Keys and scores

What a list of best elements says about each key: one element has it if any element did, and no
element with it had a higher score. -/

omit [DecidableEq κ] in
/-- A key is kept exactly where an element with it came by. -/
theorem Kept.mem_map_key (h : Kept key score done best) (k : κ) :
    k ∈ best.map key ↔ k ∈ done.map key := by
  constructor
  · intro hk
    obtain ⟨a, ha, rfl⟩ := List.mem_map.mp hk
    exact List.mem_map_of_mem (h.first a ha).mem
  · intro hk
    obtain ⟨b, hb, rfl⟩ := List.mem_map.mp hk
    obtain ⟨a, ha, hakey⟩ := h.covers b hb
    exact List.mem_map.mpr ⟨a, ha, hakey⟩

/-- One entry is kept for each key. -/
theorem Kept.length_eq (h : Kept key score done best) :
    best.length = (done.map key).dedup.length := by
  have hperm : (best.map key).Perm (done.map key).dedup := by
    apply (List.perm_ext_iff_of_nodup h.nodup (List.nodup_dedup _)).mpr
    intro k
    rw [List.mem_dedup]
    exact h.mem_map_key k
  have hlen := hperm.length_eq
  rw [List.length_map] at hlen
  exact hlen

omit [DecidableEq κ] in
/-- The keys with their scores do not depend on the order of the entries. -/
theorem Kept.perm_map {done' best' : List α} (h : Kept key score done best)
    (h' : Kept key score done' best') (hperm : done.Perm done') :
    (best.map fun a => (key a, score a)).Perm (best'.map fun a => (key a, score a)) := by
  have nodup : ∀ {l : List α}, (l.map key).Nodup → (l.map fun a => (key a, score a)).Nodup := by
    intro l hl
    apply List.Nodup.of_map Prod.fst
    rw [List.map_map]
    exact hl
  have sub : ∀ {d d' l l' : List α}, Kept key score d l → Kept key score d' l' → d.Perm d' →
      ∀ p ∈ l.map (fun a => (key a, score a)), p ∈ l'.map fun a => (key a, score a) := by
    intro d d' l l' hl hl' hd p hp
    obtain ⟨a, ha, rfl⟩ := List.mem_map.mp hp
    obtain ⟨b, hb, hkey⟩ := hl'.covers a (hd.mem_iff.mp (hl.first a ha).mem)
    have hle := (hl'.first b hb).le (hd.mem_iff.mp (hl.first a ha).mem) hkey.symm
    have hge := (hl.first a ha).le (hd.mem_iff.mpr (hl'.first b hb).mem) hkey
    exact List.mem_map.mpr ⟨b, hb, by rw [hkey, le_antisymm hge hle]⟩
  apply (List.perm_ext_iff_of_nodup (nodup h.nodup) (nodup h'.nodup)).mpr
  intro p
  exact ⟨sub h h' hperm p, sub h' h hperm.symm p⟩

end BestPerKey

end Rave
