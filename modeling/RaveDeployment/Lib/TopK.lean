import Mathlib.Data.List.Sort
import Mathlib.Data.List.Nodup
import Mathlib.Tactic.Common

/-!
# Selecting the best `k` entries in two stages

Entries come in groups, one group for each owner. The first stage ranks the owners and keeps the
best `k`, the second ranks the entries of the kept owners and keeps the best `k`. When a better
owner's leading entry outranks every entry of a worse owner, the first stage loses nothing: a
pruned entry has `k` kept entries before it.
-/

namespace Rave

variable {α ι : Type}

/-- Of a list in which every rejected member has `k` accepted ones before it, the first `k` are the
first `k` accepted ones. -/
theorem take_filter_eq_take {p : α → Bool} (l : List α) (k : Nat)
    (h : ∀ before a after, l = before ++ a :: after → p a = false →
      k ≤ (before.filter p).length) :
    (l.filter p).take k = l.take k := by
  induction l generalizing k with
  | nil => rfl
  | cons a l ih =>
    cases k with
    | zero => simp
    | succ k =>
      have ha : p a = true := by
        by_contra hna
        have hnone := h [] a l rfl (by simpa using hna)
        simp at hnone
      rw [List.filter_cons_of_pos ha, List.take_succ_cons, List.take_succ_cons]
      congr 1
      apply ih
      intro before b after hl hb
      have hbefore := h (a :: before) b after (by rw [hl]; rfl) hb
      rw [List.filter_cons_of_pos ha, List.length_cons] at hbefore
      omega

/-- A ranked list begins with its accepted members, where what ranks before an accepted one is
accepted. -/
theorem filter_append_filter_not {r : α → α → Prop} {p : α → Bool} {l : List α}
    (hsorted : l.Pairwise r) (hup : ∀ a b, r a b → p b = true → p a = true) :
    l.filter p ++ l.filter (fun a => !p a) = l := by
  induction l with
  | nil => rfl
  | cons a l ih =>
    obtain ⟨hfirst, hrest⟩ := List.pairwise_cons.mp hsorted
    cases ha : p a with
    | true =>
      rw [List.filter_cons_of_pos ha, List.filter_cons_of_neg (by simp [ha]), List.cons_append,
        ih hrest]
    | false =>
      -- a rejected member has none but rejected ones behind it
      have hnone : l.filter p = [] := by
        apply List.filter_eq_nil_iff.mpr
        intro b hb hpb
        rw [hup a b (hfirst b hb) hpb] at ha
        exact absurd ha (by simp)
      have hall := ih hrest
      rw [hnone, List.nil_append] at hall
      rw [List.filter_cons_of_neg (by simp [ha]), List.filter_cons_of_pos (by simp [ha]), hnone,
        List.nil_append, hall]

section Ranked

variable (r : α → α → Prop) [DecidableRel r] [IsTrans α r] [Std.Total r] [Std.Antisymm r]

omit [DecidableRel r] [IsTrans α r] [Std.Total r] in
/-- In a ranked list what strictly outranks a member stands before it. -/
theorem mem_before_of_rank {before after : List α} {a b : α}
    (hsorted : (before ++ b :: after).Pairwise r) (hmem : a ∈ before ++ b :: after)
    (hab : r a b) (hne : a ≠ b) : a ∈ before := by
  rcases List.mem_append.mp hmem with hin | hin
  · exact hin
  · have htail : (b :: after).Pairwise r := (List.pairwise_append.mp hsorted).2.1
    have hafter : ∀ c ∈ after, r b c := (List.pairwise_cons.mp htail).1
    rcases List.mem_cons.mp hin with heq | hin
    · exact absurd heq hne
    · exact absurd (antisymm hab (hafter a hin)) hne

/-- Ranking the accepted entries is accepting among the ranked ones. -/
theorem insertionSort_filter (p : α → Bool) (l : List α) :
    (l.filter p).insertionSort r = (l.insertionSort r).filter p := by
  apply List.Perm.eq_of_pairwise' (r := r)
  · exact List.pairwise_insertionSort r _
  · exact (List.pairwise_insertionSort r l).filter p
  · have hsort : (l.insertionSort r).Perm l := List.perm_insertionSort r l
    exact (List.perm_insertionSort r _).trans (hsort.filter p).symm

/-- **Pruning.** When every rejected entry is outranked by `k` distinct accepted ones, the best `k`
of the accepted entries are the best `k` of all. -/
theorem take_insertionSort_filter {p : α → Bool} {l : List α} {k : Nat}
    (h : ∀ b ∈ l, p b = false → ∃ leaders : List α, leaders.Nodup ∧ leaders.length = k ∧
      ∀ a ∈ leaders, a ∈ l ∧ p a = true ∧ r a b) :
    ((l.filter p).insertionSort r).take k = (l.insertionSort r).take k := by
  rw [insertionSort_filter]
  apply take_filter_eq_take
  intro before b after hl hb
  have hsorted : (before ++ b :: after).Pairwise r := hl ▸ List.pairwise_insertionSort r l
  have hmem : ∀ a, a ∈ l → a ∈ before ++ b :: after := by
    intro a ha
    rw [← hl]
    exact (List.mem_insertionSort r).mpr ha
  have hbl : b ∈ l := by
    apply (List.mem_insertionSort r).mp
    rw [hl]
    simp
  obtain ⟨leaders, hnodup, hlen, hleaders⟩ := h b hbl hb
  rw [← hlen]
  apply hnodup.length_le_of_subset
  intro a ha
  obtain ⟨hal, hpa, hab⟩ := hleaders a ha
  -- an accepted entry is not the rejected one, so it stands before it
  have hne : a ≠ b := by
    intro heq
    rw [heq, hb] at hpa
    exact absurd hpa (by simp)
  exact List.mem_filter.mpr ⟨mem_before_of_rank r hsorted (hmem a hal) hab hne, hpa⟩

end Ranked

section TwoStage

variable (r : α → α → Prop) [DecidableRel r] [IsTrans α r] [Std.Total r] [Std.Antisymm r]
variable (q : ι → ι → Prop) [DecidableRel q] [IsTrans ι q] [Std.Total q]

/-- The best `k` entries of the best `k` owners. -/
def twoStage (owners : List ι) (entries : ι → List α) (k : Nat) : List α :=
  ((((owners.insertionSort q).take k).flatMap entries).insertionSort r).take k

omit [DecidableRel r] [IsTrans α r] [Std.Total r] [Std.Antisymm r] in
/-- An owner that is pruned ranks after each of the `k` owners kept. -/
theorem outranked_of_pruned {owners : List ι} {k : Nat} {i : ι} (hi : i ∈ owners)
    (hpruned : i ∉ (owners.insertionSort q).take k) :
    ((owners.insertionSort q).take k).length = k ∧
      ∀ j ∈ (owners.insertionSort q).take k, q j i := by
  have hdrop : i ∈ (owners.insertionSort q).drop k := by
    have hmem : i ∈ owners.insertionSort q := (List.mem_insertionSort q).mpr hi
    rw [← List.take_append_drop k (owners.insertionSort q)] at hmem
    exact (List.mem_append.mp hmem).resolve_left hpruned
  constructor
  · have hpos := List.length_pos_of_mem hdrop
    rw [List.length_drop] at hpos
    rw [List.length_take]
    omega
  · intro j hj
    have hsorted := List.pairwise_insertionSort q owners
    rw [← List.take_append_drop k (owners.insertionSort q)] at hsorted
    exact (List.pairwise_append.mp hsorted).2.2 j hj i hdrop

omit [DecidableRel r] [IsTrans α r] [Std.Total r] [Std.Antisymm r] [DecidableRel q] [IsTrans ι q]
  [Std.Total q] in
/-- The entries whose owner passes are the entries of the owners that pass. -/
theorem filter_flatMap_owner {entries : ι → List α} {owner : α → ι} (p : ι → Bool)
    (howner : ∀ i, ∀ a ∈ entries i, owner a = i) (owners : List ι) :
    (owners.flatMap entries).filter (fun a => p (owner a))
      = (owners.filter p).flatMap entries := by
  induction owners with
  | nil => rfl
  | cons i owners ih =>
    rw [List.flatMap_cons, List.filter_append, ih]
    by_cases hp : p i = true
    · have hall : (entries i).filter (fun a => p (owner a)) = entries i := by
        apply List.filter_eq_self.mpr
        intro a ha
        rw [howner i a ha]
        exact hp
      rw [hall, List.filter_cons_of_pos hp, List.flatMap_cons]
    · have hnone : (entries i).filter (fun a => p (owner a)) = [] := by
        apply List.filter_eq_nil_iff.mpr
        intro a ha
        rw [howner i a ha]
        exact hp
      rw [hnone, List.filter_cons_of_neg hp, List.nil_append]

/-- **Two stages select what one does.** Each owner has a leading entry of its own, which outranks
the entries of every owner ranked after it. -/
theorem twoStage_eq_oneStage {owners : List ι} {entries : ι → List α} {owner : α → ι} {k : Nat}
    (hnodup : owners.Nodup) (howner : ∀ i, ∀ a ∈ entries i, owner a = i)
    (lead : ι → α) (hlead : ∀ i, lead i ∈ entries i)
    (hrank : ∀ i j, i ≠ j → q i j → ∀ b ∈ entries j, r (lead i) b) :
    twoStage r q owners entries k = ((owners.flatMap entries).insertionSort r).take k := by
  classical
  let kept := (owners.insertionSort q).take k
  have hsub : ∀ i ∈ kept, i ∈ owners := by
    intro i hi
    exact (List.mem_insertionSort q).mp (List.mem_of_mem_take hi)
  have hkept : kept.Nodup :=
    ((List.perm_insertionSort q owners).nodup_iff.mpr hnodup).sublist (List.take_sublist _ _)
  -- what the second stage sees is what belongs to the owners kept
  have hfilter := filter_flatMap_owner (fun i => decide (i ∈ kept)) howner owners
  have howners : kept.Perm (owners.filter (fun i => decide (i ∈ kept))) := by
    apply (List.perm_ext_iff_of_nodup hkept (hnodup.filter _)).mpr
    intro i
    rw [List.mem_filter, decide_eq_true_iff]
    exact ⟨fun hi => ⟨hsub i hi, hi⟩, fun hi => hi.2⟩
  have hperm : (kept.flatMap entries).Perm
      ((owners.flatMap entries).filter (fun a => decide (owner a ∈ kept))) := by
    rw [hfilter]
    exact howners.flatMap_right entries
  have hsame : (kept.flatMap entries).insertionSort r
      = ((owners.flatMap entries).filter (fun a => decide (owner a ∈ kept))).insertionSort r := by
    apply List.Perm.eq_of_pairwise' (r := r)
    · exact List.pairwise_insertionSort r _
    · exact List.pairwise_insertionSort r _
    · exact (List.perm_insertionSort r _).trans (hperm.trans (List.perm_insertionSort r _).symm)
  show ((kept.flatMap entries).insertionSort r).take k = _
  rw [hsame]
  apply take_insertionSort_filter
  intro b hb hpruned
  -- the leading entries of the owners kept all stand before a pruned entry
  obtain ⟨j, hj, hbj⟩ := List.mem_flatMap.mp hb
  have hnot : j ∉ kept := by
    rw [howner j b hbj] at hpruned
    exact of_decide_eq_false hpruned
  obtain ⟨hlen, hbefore⟩ := outranked_of_pruned q hj hnot
  have hinj : Function.Injective lead := by
    intro i i' heq
    rw [← howner i _ (hlead i), heq, howner i' _ (hlead i')]
  refine ⟨kept.map lead, hkept.map hinj, ?_, ?_⟩
  · rw [List.length_map]
    exact hlen
  · intro a ha
    obtain ⟨i, hi, rfl⟩ := List.mem_map.mp ha
    have hne : i ≠ j := by
      intro heq
      rw [heq] at hi
      exact hnot hi
    refine ⟨List.mem_flatMap.mpr ⟨i, hsub i hi, hlead i⟩, ?_, hrank i j hne (hbefore i hi) b hbj⟩
    rw [howner i _ (hlead i)]
    exact decide_eq_true hi

end TwoStage

end Rave
