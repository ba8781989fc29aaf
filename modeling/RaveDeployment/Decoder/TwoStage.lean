import RaveDeployment.Lib.TopK
import Mathlib.Data.Prod.Lex
import Mathlib.Data.Fin.Basic
import Mathlib.Data.List.FinRange
import Mathlib.Data.List.ProdSigma
import Mathlib.Order.Lattice

/-!
# `two_stage_top300` of the decoder comparison

The first stage orders the locations by their larger score and keeps 300, the second orders the
`(score, location, class)` pairs of those and keeps 300. Scores are values of a linear order: a
descending key `-score` is the score in the dual order.
-/

namespace Rave

namespace Decoder

variable {S Box : Type} [LinearOrder S] {n : Nat}

/-- An entry of `pairs`. -/
structure Pair (S : Type) (n : Nat) where
  score : S
  location : Fin n
  classId : Fin 2
  deriving DecidableEq

/-- A row of `result`: the box of its location, the score and the class. -/
structure Row (S Box : Type) where
  box : Box
  score : S
  classId : Fin 2
  deriving DecidableEq

local instance neZero_two : @NeZero Nat Zero.ofOfNat0 2 := ⟨by decide⟩

/-- `scores.max(axis=1)`. -/
def locationMax (scores : Fin n → Fin 2 → S) (location : Fin n) : S :=
  max (scores location 0) (scores location 1)

/-- The keys of the `lexsort`, the last of which decides first. -/
def LocationLe (scores : Fin n → Fin 2 → S) (i j : Fin n) : Prop :=
  toLex (OrderDual.toDual (locationMax scores i), i)
    ≤ toLex (OrderDual.toDual (locationMax scores j), j)

/-- The key `(-item[0], item[1], item[2])` of `pairs.sort`. -/
def itemKey (item : Pair S n) : Sᵒᵈ ×ₗ (Fin n ×ₗ Fin 2) :=
  toLex (OrderDual.toDual item.score, toLex (item.location, item.classId))

/-- The order of the second stage: by score, then by location, then by class. -/
def ItemLe (a b : Pair S n) : Prop :=
  itemKey a ≤ itemKey b

instance (scores : Fin n → Fin 2 → S) : DecidableRel (LocationLe scores) :=
  fun _ _ => inferInstanceAs (Decidable (_ ≤ _))

instance : DecidableRel (ItemLe (S := S) (n := n)) :=
  fun _ _ => inferInstanceAs (Decidable (_ ≤ _))

def locationOrder (scores : Fin n → Fin 2 → S) : List (Fin n) :=
  ((List.finRange n).insertionSort (LocationLe scores)).take 300

def pairsOf (scores : Fin n → Fin 2 → S) (location : Fin n) : List (Pair S n) :=
  (List.finRange 2).map fun classId => ⟨scores location classId, location, classId⟩

/-- What the second stage takes of the locations that the first one kept. -/
def selected (scores : Fin n → Fin 2 → S) : List (Pair S n) :=
  (((locationOrder scores).flatMap (pairsOf scores)).insertionSort ItemLe).take 300

/-- The rows of the result and the pairs they are of. -/
def twoStageTop300 (boxes : Fin n → Box) (scores : Fin n → Fin 2 → S) :
    List (Row S Box) × List (Fin n × Fin 2) :=
  ((selected scores).map fun item => ⟨boxes item.location, item.score, item.classId⟩,
    (selected scores).map fun item => (item.location, item.classId))

/-! ## The orders

Both stages sort by a key that no two items share, so that each order is total and the sorted lists
are unique. -/

/-- The order of the first stage, spelt out: by the larger score, then by location. -/
theorem locationLe_iff (scores : Fin n → Fin 2 → S) (i j : Fin n) :
    LocationLe scores i j ↔ locationMax scores j < locationMax scores i
      ∨ locationMax scores i = locationMax scores j ∧ i ≤ j := by
  unfold LocationLe
  rw [Prod.Lex.toLex_le_toLex]
  exact Iff.rfl

/-- One pair before another: descending score, then ascending location, then ascending class. -/
def Outranks (scores : Fin n → Fin 2 → S) (a b : Fin n × Fin 2) : Prop :=
  scores b.1 b.2 < scores a.1 a.2
    ∨ scores a.1 a.2 = scores b.1 b.2 ∧ (a.1 < b.1 ∨ a.1 = b.1 ∧ a.2 < b.2)

/-- The order of the second stage, spelt out. -/
theorem itemLe_iff (a b : Pair S n) :
    ItemLe a b ↔ b.score < a.score ∨ a.score = b.score
      ∧ (a.location < b.location ∨ a.location = b.location ∧ a.classId ≤ b.classId) := by
  unfold ItemLe itemKey
  rw [Prod.Lex.toLex_le_toLex, Prod.Lex.toLex_le_toLex]
  exact Iff.rfl

instance (scores : Fin n → Fin 2 → S) : IsTrans (Fin n) (LocationLe scores) :=
  ⟨fun _ _ _ => le_trans⟩

instance (scores : Fin n → Fin 2 → S) : Std.Total (LocationLe scores) :=
  ⟨fun _ _ => le_total _ _⟩

instance : IsTrans (Pair S n) ItemLe :=
  ⟨fun _ _ _ => le_trans⟩

instance : Std.Total (ItemLe (S := S) (n := n)) :=
  ⟨fun _ _ => le_total _ _⟩

omit [LinearOrder S] in
/-- No two pairs have one key. -/
theorem itemKey_injective : Function.Injective (itemKey (S := S) (n := n)) := by
  intro a b h
  cases a
  cases b
  simpa [itemKey] using h

instance : Std.Antisymm (ItemLe (S := S) (n := n)) :=
  ⟨fun _ _ hab hba => itemKey_injective (le_antisymm hab hba)⟩

/-! ## The leading pair of a location

The first stage compares locations by their larger score. That is the score of one pair of theirs,
which stands for the location in the second order. -/

omit [LinearOrder S] in
/-- What is a pair of a location. -/
theorem mem_pairsOf {scores : Fin n → Fin 2 → S} {location : Fin n} {item : Pair S n} :
    item ∈ pairsOf scores location
      ↔ item.location = location ∧ item.score = scores item.location item.classId := by
  unfold pairsOf
  rw [List.mem_map]
  constructor
  · intro ⟨classId, _, heq⟩
    rw [← heq]
    exact ⟨rfl, rfl⟩
  · intro ⟨hlocation, hscore⟩
    rw [hlocation] at hscore
    refine ⟨item.classId, List.mem_finRange _, ?_⟩
    rw [← hscore, ← hlocation]

def leadPair (scores : Fin n → Fin 2 → S) (location : Fin n) : Pair S n :=
  if scores location 1 ≤ scores location 0 then ⟨scores location 0, location, 0⟩
  else ⟨scores location 1, location, 1⟩

/-- It is one of the location's pairs. -/
theorem leadPair_mem (scores : Fin n → Fin 2 → S) (location : Fin n) :
    leadPair scores location ∈ pairsOf scores location := by
  rw [mem_pairsOf]
  unfold leadPair
  split
  · exact ⟨rfl, rfl⟩
  · exact ⟨rfl, rfl⟩

/-- Its score is the one that the first stage compares. -/
theorem leadPair_score (scores : Fin n → Fin 2 → S) (location : Fin n) :
    (leadPair scores location).score = locationMax scores location := by
  unfold leadPair locationMax
  split
  · next hle => exact (max_eq_left hle).symm
  · next hlt => exact (max_eq_right (le_of_not_ge hlt)).symm

/-- No score of a location is above the one that is compared. -/
theorem score_le_locationMax (scores : Fin n → Fin 2 → S) (location : Fin n) (classId : Fin 2) :
    scores location classId ≤ locationMax scores location := by
  match classId with
  | 0 => exact le_max_left _ _
  | 1 => exact le_max_right _ _

/-- The leading pair of a location outranks every pair of a location ranked after it. -/
theorem leadPair_outranks {scores : Fin n → Fin 2 → S} {i j : Fin n} (hne : i ≠ j)
    (hij : LocationLe scores i j) {item : Pair S n} (hitem : item ∈ pairsOf scores j) :
    ItemLe (leadPair scores i) item := by
  obtain ⟨hlocation, hscore⟩ := mem_pairsOf.mp hitem
  have hlead : (leadPair scores i).location = i := (mem_pairsOf.mp (leadPair_mem scores i)).1
  have hle : item.score ≤ locationMax scores j := by
    rw [hscore, hlocation]
    exact score_le_locationMax scores j item.classId
  rw [itemLe_iff, leadPair_score, hlead, hlocation]
  rcases (locationLe_iff scores i j).mp hij with hlt | ⟨heq, hidx⟩
  · exact Or.inl (lt_of_le_of_lt hle hlt)
  · rw [← heq] at hle
    -- equal maxima: the item either scores less, or ties and loses on the location
    rcases lt_or_eq_of_le hle with hlt | htie
    · exact Or.inl hlt
    · exact Or.inr ⟨htie.symm, Or.inl (lt_of_le_of_ne hidx hne)⟩

/-! ## The selection

A pair among the first 300 has fewer than 300 locations before its own, so the first stage keeps its
location. -/

def allPairs (scores : Fin n → Fin 2 → S) : List (Pair S n) :=
  (List.finRange n).flatMap (pairsOf scores)

/-- Taking 300 locations and then 300 of their pairs is taking 300 of all pairs. -/
theorem selected_eq (scores : Fin n → Fin 2 → S) :
    selected scores = ((allPairs scores).insertionSort ItemLe).take 300 := by
  show twoStage ItemLe (LocationLe scores) (List.finRange n) (pairsOf scores) 300 = _
  have howner : ∀ location, ∀ item ∈ pairsOf scores location, item.location = location := by
    intro location item hitem
    exact (mem_pairsOf.mp hitem).1
  have hrank : ∀ i j, i ≠ j → LocationLe scores i j →
      ∀ item ∈ pairsOf scores j, ItemLe (leadPair scores i) item := by
    intro i j hne hij item hitem
    exact leadPair_outranks hne hij hitem
  exact twoStage_eq_oneStage ItemLe (LocationLe scores) (List.nodup_finRange n) howner
    (leadPair scores) (leadPair_mem scores) hrank

def Pair.identity (item : Pair S n) : Fin n × Fin 2 :=
  (item.location, item.classId)

omit [LinearOrder S] in
theorem score_of_mem_allPairs {scores : Fin n → Fin 2 → S} {item : Pair S n}
    (h : item ∈ allPairs scores) : item.score = scores item.location item.classId := by
  obtain ⟨location, _, hitem⟩ := List.mem_flatMap.mp h
  exact (mem_pairsOf.mp hitem).2

omit [LinearOrder S] in
/-- Every location has one pair for each class. -/
theorem map_identity_allPairs (scores : Fin n → Fin 2 → S) :
    (allPairs scores).map Pair.identity = List.finRange n ×ˢ List.finRange 2 := by
  unfold allPairs
  rw [List.map_flatMap]
  simp only [pairsOf, List.map_map]
  rfl

omit [LinearOrder S] in
theorem nodup_allPairs (scores : Fin n → Fin 2 → S) : (allPairs scores).Nodup := by
  apply List.Nodup.of_map Pair.identity
  rw [map_identity_allPairs]
  exact (List.nodup_finRange n).product (List.nodup_finRange 2)

def ranking (scores : Fin n → Fin 2 → S) : List (Pair S n) :=
  (allPairs scores).insertionSort ItemLe

/-- The ranking goes down, score by score, and by index where scores are equal. -/
theorem ranking_outranks (scores : Fin n → Fin 2 → S) :
    ((ranking scores).map Pair.identity).Pairwise (Outranks scores) := by
  have hperm : (ranking scores).Perm (allPairs scores) := List.perm_insertionSort ItemLe _
  have hnodup : (ranking scores).Nodup := hperm.nodup_iff.mpr (nodup_allPairs scores)
  have hsorted : (ranking scores).Pairwise ItemLe := List.pairwise_insertionSort ItemLe _
  rw [List.pairwise_map]
  apply (hsorted.and hnodup).imp_of_mem
  intro a b ha hb ⟨hle, hne⟩
  have hscorea := score_of_mem_allPairs (hperm.mem_iff.mp ha)
  have hscoreb := score_of_mem_allPairs (hperm.mem_iff.mp hb)
  show scores b.location b.classId < scores a.location a.classId ∨ _
  rw [← hscorea, ← hscoreb]
  rcases (itemLe_iff a b).mp hle with hlt | ⟨heq, hlt | ⟨hlocation, hclass⟩⟩
  · exact Or.inl hlt
  · exact Or.inr ⟨hscorea.symm.trans (heq.trans hscoreb), Or.inl hlt⟩
  · -- distinct pairs of one location and one score differ in the class
    have hdiff : a.classId ≠ b.classId := by
      intro heqc
      apply hne
      cases a
      cases b
      simp_all
    have hclasslt := lt_of_le_of_ne hclass hdiff
    exact Or.inr ⟨hscorea.symm.trans (heq.trans hscoreb), Or.inr ⟨hlocation, hclasslt⟩⟩

/-- The ranking is of all pairs. -/
theorem length_ranking (scores : Fin n → Fin 2 → S) : (ranking scores).length = 2 * n := by
  have hlen := congrArg List.length (map_identity_allPairs scores)
  rw [List.length_map, List.length_product, List.length_finRange, List.length_finRange] at hlen
  show ((allPairs scores).insertionSort ItemLe).length = _
  rw [List.length_insertionSort, hlen]
  omega

/-- **Two-stage selection is one-stage selection.** The identities are the first
`min 300 (2 * n)` of all the pairs, ranked by descending score, then ascending location, then
ascending class, and each row carries the box, the score and the class of its identity. -/
theorem twoStageTop300_eq_oneStage (boxes : Fin n → Box) (scores : Fin n → Fin 2 → S) :
    ∃ ranked : List (Fin n × Fin 2),
      ranked.Perm (List.finRange n ×ˢ List.finRange 2) ∧
      ranked.Pairwise (Outranks scores) ∧
      (twoStageTop300 boxes scores).2 = ranked.take (min 300 (2 * n)) ∧
      (twoStageTop300 boxes scores).1 = (twoStageTop300 boxes scores).2.map
        fun (location, classId) => ⟨boxes location, scores location classId, classId⟩ := by
  have hperm : (ranking scores).Perm (allPairs scores) := List.perm_insertionSort ItemLe _
  have hselected : selected scores = (ranking scores).take (min 300 (2 * n)) := by
    rw [selected_eq, ← length_ranking scores, ← List.take_eq_take_min]
    rfl
  refine ⟨(ranking scores).map Pair.identity, ?_, ranking_outranks scores, ?_, ?_⟩
  · rw [← map_identity_allPairs scores]
    exact hperm.map Pair.identity
  · show (selected scores).map Pair.identity = _
    rw [hselected, List.map_take]
  · have hrows : (twoStageTop300 boxes scores).2 = (selected scores).map Pair.identity := rfl
    rw [hrows, List.map_map]
    apply List.map_congr_left
    intro item hitem
    have hmem : item ∈ allPairs scores := by
      rw [hselected] at hitem
      exact hperm.mem_iff.mp (List.mem_of_mem_take hitem)
    rw [score_of_mem_allPairs hmem]
    rfl

/-- Both classes of one location are selected. -/
example : (twoStageTop300 (fun _ => ()) (fun (l : Fin 3) c => if l = 1 then 9 - c.val else 0)).2
    = [(1, 0), (1, 1), (0, 0), (0, 1), (2, 0), (2, 1)] := by decide

end Decoder

end Rave
