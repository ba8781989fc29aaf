import RaveDeployment.Lib.TopK
import Mathlib.Data.List.FinRange
import Mathlib.Data.List.MinMax
import Mathlib.Data.Rat.Lemmas
import Mathlib.Algebra.Order.Field.Rat
import Mathlib.Algebra.Order.BigOperators.Group.List
import Mathlib.Tactic.Linarith
import Mathlib.Tactic.Positivity
import Mathlib.Tactic.GCongr

/-!
# The confidence sweep

`match_image` and the class counts of `summarize` in `qualification/m2b2b/threshold_sweep.py`.
Scores and overlaps are values of linear orders, and the overlap of two boxes is any function.

At a higher threshold the loop sees the first of the boxes it sees at a lower one (`ranked_append`),
so its run is the first part of the other run (`matchLoop_append`), and a run never gives a match
back. `thresholdSweep_monotone` is assembled from these.
-/

namespace Rave

namespace Decoder

structure Prediction (Box S : Type) where
  box : Box
  score : S
  classId : Nat

/-- An entry of `predictions`: what is predicted for an image, and its labels. -/
structure ImagePredictions (Box S : Type) where
  predictions : List (Prediction Box S)
  groundTruth : List (Box × Nat)

/-- What `match_image` returns. -/
structure MatchCounts where
  truePositives : Int
  falsePositives : Int
  falseNegatives : Int
  deriving DecidableEq

/-- The ground-truth boxes that are left, in ascending order, and the number of matches. -/
structure MatchState (n : Nat) where
  unmatched : List (Fin n)
  truePositives : Nat
  deriving DecidableEq

variable {Box S R : Type}

section Loop

variable [LinearOrder R] (iou : Box → Box → R) (half : R) (gt : List Box)

/-- The candidate of the greatest overlap, the first of several, where the overlap reaches the
bound. -/
def bestMatch (unmatched : List (Fin gt.length)) (box : Box) : Option (Fin gt.length) :=
  (unmatched.argmax fun c => iou box (gt.get c)).filter fun best => half ≤ iou box (gt.get best)

def matchStep (s : MatchState gt.length) (box : Box) : MatchState gt.length :=
  match bestMatch iou half gt s.unmatched box with
  | some best => ⟨s.unmatched.erase best, s.truePositives + 1⟩
  | none => s

/-- The loop of `match_image`, over the boxes in the order of their scores. -/
def matchLoop : List Box → MatchState gt.length → MatchState gt.length
  | [], s => s
  | box :: boxes, s =>
    -- the loop breaks where no candidate is left
    if s.unmatched = [] then s else matchLoop boxes (matchStep iou half gt s box)

def matchedBoxes : List Box → MatchState gt.length → List (Fin gt.length)
  | [], _ => []
  | box :: boxes, s =>
    (bestMatch iou half gt s.unmatched box).toList ++
      matchedBoxes boxes (matchStep iou half gt s box)

def matchStart : MatchState gt.length :=
  ⟨List.finRange gt.length, 0⟩

end Loop

section Counts

variable [LinearOrder S]

/-- The predictions that `pred_mask` admits. -/
def admitted (image : ImagePredictions Box S) (threshold : S) (classId : Nat) :
    List (Prediction Box S) :=
  image.predictions.filter fun p => p.classId = classId ∧ threshold ≤ p.score

/-- The admitted predictions in the order of `np.argsort(-pred_scores)`. -/
def ranked (image : ImagePredictions Box S) (threshold : S) (classId : Nat) :
    List (Prediction Box S) :=
  (admitted image threshold classId).insertionSort fun a b => b.score ≤ a.score

def gtBoxes (image : ImagePredictions Box S) (classId : Nat) : List Box :=
  (image.groundTruth.filter fun label => label.2 = classId).map Prod.fst

variable [LinearOrder R] (iou : Box → Box → R) (half : R)

def matchImage (image : ImagePredictions Box S) (threshold : S) (classId : Nat) : MatchCounts :=
  let predBoxes := (ranked image threshold classId).map Prediction.box
  let gt := gtBoxes image classId
  let matched := (matchLoop iou half gt predBoxes (matchStart gt)).truePositives
  { truePositives := matched
    falsePositives := (admitted image threshold classId).length - matched
    falseNegatives := gt.length - matched }

/-- An entry of `per_class`. -/
structure ClassSummary where
  groundTruth : Int
  truePositives : Int
  falsePositives : Int
  falseNegatives : Int
  precision : ℚ
  «recall» : ℚ
  f1 : ℚ

/-- The body of the loop of `summarize` over the classes. -/
def summarizeClass (images : List (ImagePredictions Box S)) (threshold : S) (classId : Nat) :
    ClassSummary :=
  let counts := images.map fun item => matchImage iou half item threshold classId
  let truePositives := (counts.map MatchCounts.truePositives).sum
  let falsePositives := (counts.map MatchCounts.falsePositives).sum
  let falseNegatives := (counts.map MatchCounts.falseNegatives).sum
  let precision : ℚ := truePositives / (max (truePositives + falsePositives) 1 : Int)
  let «recall» : ℚ := truePositives / (max (truePositives + falseNegatives) 1 : Int)
  { groundTruth := truePositives + falseNegatives
    truePositives := truePositives
    falsePositives := falsePositives
    falseNegatives := falseNegatives
    precision := precision
    «recall» := «recall»
    f1 := 2 * precision * «recall» / max (precision + «recall») (1 / 10 ^ 12) }

end Counts

/-! ## The loop

One pass over the boxes of an image. Each box takes the unmatched label it overlaps most, if it
overlaps it enough, so that a step matches at most one label and never gives one back. -/

section Loop

variable [LinearOrder R] {iou : Box → Box → R} {half : R} {gt : List Box}
  {s : MatchState gt.length} {box : Box} {boxes : List Box}

theorem bestMatch_nil : bestMatch iou half gt [] box = none := rfl

/-- A box is matched with a label that is still there. -/
theorem bestMatch_mem {unmatched : List (Fin gt.length)} {best : Fin gt.length}
    (h : bestMatch iou half gt unmatched box = some best) : best ∈ unmatched := by
  obtain ⟨hmax, -⟩ := Option.filter_eq_some_iff.mp h
  exact List.argmax_mem hmax

theorem matchStep_of_none (h : bestMatch iou half gt s.unmatched box = none) :
    matchStep iou half gt s box = s := by
  rw [matchStep, h]

/-- A box that matches takes its label away and counts as a true positive. -/
theorem matchStep_of_some {best : Fin gt.length}
    (h : bestMatch iou half gt s.unmatched box = some best) :
    matchStep iou half gt s box = ⟨s.unmatched.erase best, s.truePositives + 1⟩ := by
  rw [matchStep, h]

/-- Where no label is left, a box changes nothing. -/
theorem matchStep_of_nil (h : s.unmatched = []) : matchStep iou half gt s box = s := by
  apply matchStep_of_none
  rw [h]
  exact bestMatch_nil

theorem foldl_matchStep_of_nil (h : s.unmatched = []) (boxes : List Box) :
    boxes.foldl (matchStep iou half gt) s = s := by
  induction boxes with
  | nil => rfl
  | cons box boxes ih => rw [List.foldl_cons, matchStep_of_nil h, ih]

/-- Breaking off changes nothing: without candidates no box is matched. -/
theorem matchLoop_eq_foldl (boxes : List Box) (s : MatchState gt.length) :
    matchLoop iou half gt boxes s = boxes.foldl (matchStep iou half gt) s := by
  induction boxes generalizing s with
  | nil => rfl
  | cons box boxes ih =>
    rw [matchLoop, List.foldl_cons]
    split
    · next hnil => rw [matchStep_of_nil hnil, foldl_matchStep_of_nil hnil]
    · exact ih _

/-- One box gains at most one match. -/
theorem matchStep_truePositives :
    s.truePositives ≤ (matchStep iou half gt s box).truePositives ∧
      (matchStep iou half gt s box).truePositives ≤ s.truePositives + 1 := by
  cases h : bestMatch iou half gt s.unmatched box with
  | none =>
    rw [matchStep_of_none h]
    omega
  | some best =>
    rw [matchStep_of_some h]
    show s.truePositives ≤ s.truePositives + 1 ∧ s.truePositives + 1 ≤ s.truePositives + 1
    omega

/-- Each box adds at most one true positive, and takes none away. -/
theorem foldl_matchStep_truePositives (boxes : List Box) (s : MatchState gt.length) :
    s.truePositives ≤ (boxes.foldl (matchStep iou half gt) s).truePositives ∧
      (boxes.foldl (matchStep iou half gt) s).truePositives ≤ s.truePositives + boxes.length := by
  induction boxes generalizing s with
  | nil => exact ⟨Nat.le_refl _, Nat.le_refl _⟩
  | cons box boxes ih =>
    have hstep := @matchStep_truePositives _ _ _ iou half gt s box
    have hrest := ih (matchStep iou half gt s box)
    rw [List.foldl_cons, List.length_cons]
    omega

/-- **More boxes of lower scores gain matches, at most one each.** -/
theorem matchLoop_append (boxes more : List Box) (s : MatchState gt.length) :
    (matchLoop iou half gt boxes s).truePositives
        ≤ (matchLoop iou half gt (boxes ++ more) s).truePositives ∧
      (matchLoop iou half gt (boxes ++ more) s).truePositives
        ≤ (matchLoop iou half gt boxes s).truePositives + more.length := by
  rw [matchLoop_eq_foldl, matchLoop_eq_foldl, List.foldl_append]
  exact foldl_matchStep_truePositives more _

/-- What is matched was left, is matched once, and is counted. -/
theorem matchedBoxes_spec (boxes : List Box) (s : MatchState gt.length)
    (hs : s.unmatched.Nodup) :
    (matchedBoxes iou half gt boxes s).Nodup ∧
      (∀ c ∈ matchedBoxes iou half gt boxes s, c ∈ s.unmatched) ∧
      (boxes.foldl (matchStep iou half gt) s).truePositives
        = s.truePositives + (matchedBoxes iou half gt boxes s).length := by
  induction boxes generalizing s with
  | nil => exact ⟨List.nodup_nil, by simp [matchedBoxes], rfl⟩
  | cons box boxes ih =>
    rw [matchedBoxes, List.foldl_cons]
    cases h : bestMatch iou half gt s.unmatched box with
    | none =>
      rw [matchStep_of_none h, Option.toList_none, List.nil_append]
      exact ih s hs
    | some best =>
      obtain ⟨hnodup, hmem, hcount⟩ := ih (matchStep iou half gt s box) (by
        rw [matchStep_of_some h]
        exact hs.erase best)
      rw [matchStep_of_some h] at hnodup hmem hcount ⊢
      rw [Option.toList_some, List.singleton_append]
      refine ⟨List.nodup_cons.mpr ⟨?_, hnodup⟩, ?_, ?_⟩
      · -- the box that was removed is not among those that are left
        intro hagain
        exact hs.not_mem_erase (hmem best hagain)
      · intro c hc
        rcases List.mem_cons.mp hc with heq | hc
        · rw [heq]
          exact bestMatch_mem h
        · exact List.mem_of_mem_erase (hmem c hc)
      · rw [hcount, List.length_cons]
        show s.truePositives + 1 + _ = _
        omega

end Loop

/-! ## The order of the boxes

The boxes that a higher threshold admits are the first of those that a lower one admits: by score,
and in their order where scores are equal. -/

section Order

variable [LinearOrder S] {image : ImagePredictions Box S} {t t₁ t₂ : S} {classId : Nat}

def DistinctScores (image : ImagePredictions Box S) (classId : Nat) : Prop :=
  ∀ a ∈ image.predictions, ∀ b ∈ image.predictions, a.classId = classId → b.classId = classId →
    a.score = b.score → a = b

instance : IsTrans (Prediction Box S) fun a b => b.score ≤ a.score where
  trans _ _ _ hab hbc := le_trans hbc hab

instance : Std.Total fun a b : Prediction Box S => b.score ≤ a.score where
  total a b := le_total b.score a.score

theorem mem_admitted {p : Prediction Box S} : p ∈ admitted image t classId ↔
    p ∈ image.predictions ∧ p.classId = classId ∧ t ≤ p.score := by
  simp [admitted]

theorem perm_ranked (image : ImagePredictions Box S) (t : S) (classId : Nat) :
    (ranked image t classId).Perm (admitted image t classId) :=
  List.perm_insertionSort _ _

theorem pairwise_ranked (image : ImagePredictions Box S) (t : S) (classId : Nat) :
    (ranked image t classId).Pairwise fun a b => b.score ≤ a.score :=
  List.pairwise_insertionSort (fun a b : Prediction Box S => b.score ≤ a.score) _

/-- Of what a threshold admits, a higher one admits its own. -/
theorem admitted_filter (h : t₁ ≤ t₂) : (admitted image t₁ classId).filter (fun p => t₂ ≤ p.score)
    = admitted image t₂ classId := by
  rw [admitted, admitted, List.filter_filter]
  apply List.filter_congr
  intro p _
  by_cases hscore : t₂ ≤ p.score
  · simp [hscore, le_trans h hscore]
  · simp [hscore]

/-- **The boxes of a higher threshold come first among those of a lower one.** -/
theorem ranked_append (hdistinct : DistinctScores image classId) (h : t₁ ≤ t₂) :
    ranked image t₁ classId = ranked image t₂ classId ++
      (ranked image t₁ classId).filter fun p => !decide (t₂ ≤ p.score) := by
  have hfirst : (ranked image t₁ classId).filter (fun p => t₂ ≤ p.score)
      = ranked image t₂ classId := by
    have hperm : ((ranked image t₁ classId).filter fun p => t₂ ≤ p.score).Perm
        (ranked image t₂ classId) := by
      have hadmitted := (perm_ranked image t₁ classId).filter fun p => t₂ ≤ p.score
      rw [admitted_filter h] at hadmitted
      exact hadmitted.trans (perm_ranked image t₂ classId).symm
    apply hperm.eq_of_pairwise ?_ ((pairwise_ranked image t₁ classId).filter _)
      (pairwise_ranked image t₂ classId)
    -- two predictions of one score are the same one
    intro a b ha hb hab hba
    have ha :=
      mem_admitted.mp ((perm_ranked image t₁ classId).mem_iff.mp (List.mem_of_mem_filter ha))
    have hb := mem_admitted.mp ((perm_ranked image t₂ classId).mem_iff.mp hb)
    exact hdistinct a ha.1 b hb.1 ha.2.1 hb.2.1 (le_antisymm hba hab)
  have hsplit := filter_append_filter_not (p := fun p : Prediction Box S => decide (t₂ ≤ p.score))
    (pairwise_ranked image t₁ classId) (by
      intro a b hab hb
      exact decide_eq_true (le_trans (of_decide_eq_true hb) hab))
  rw [hfirst] at hsplit
  exact hsplit.symm

end Order

/-! ## The counts

Matching is greedy along one order, so what the higher threshold matches is what the lower one has
matched after its first boxes. -/

section Counts

variable [LinearOrder S] [LinearOrder R] (iou : Box → Box → R) (half : R)

/-- What the counts of an image add up to, and what is matched. -/
structure CountsAddUp (image : ImagePredictions Box S) (t : S) (classId : Nat) : Prop where
  predictions : (matchImage iou half image t classId).truePositives
    + (matchImage iou half image t classId).falsePositives
      = (image.predictions.filter fun p => p.classId = classId ∧ t ≤ p.score).length
  groundTruth : (matchImage iou half image t classId).truePositives
    + (matchImage iou half image t classId).falseNegatives
      = (image.groundTruth.filter fun label => label.2 = classId).length
  once : (matchedBoxes iou half (gtBoxes image classId)
    ((ranked image t classId).map Prediction.box) (matchStart (gtBoxes image classId))).Nodup
  counted : (matchImage iou half image t classId).truePositives
    = (matchedBoxes iou half (gtBoxes image classId)
        ((ranked image t classId).map Prediction.box) (matchStart (gtBoxes image classId))).length

/-- A higher threshold loses matches and false alarms, and gains misses. -/
structure CountsFall (low high : MatchCounts) : Prop where
  truePositives : high.truePositives ≤ low.truePositives
  falsePositives : high.falsePositives ≤ low.falsePositives
  falseNegatives : low.falseNegatives ≤ high.falseNegatives

/-- Matched and missed labels are all labels, matched and unmatched boxes are all boxes. -/
theorem countsAddUp (image : ImagePredictions Box S) (t : S) (classId : Nat) :
    CountsAddUp iou half image t classId := by
  obtain ⟨hnodup, -, hcount⟩ := @matchedBoxes_spec _ _ _ iou half _
    ((ranked image t classId).map Prediction.box) (matchStart (gtBoxes image classId))
    (List.nodup_finRange _)
  rw [← matchLoop_eq_foldl] at hcount
  have hpositive : (matchImage iou half image t classId).falsePositives
      = (admitted image t classId).length - (matchImage iou half image t classId).truePositives := rfl
  have hnegative : (matchImage iou half image t classId).falseNegatives
      = (gtBoxes image classId).length - (matchImage iou half image t classId).truePositives := rfl
  have hboxes : (gtBoxes image classId).length
      = (image.groundTruth.filter fun label => label.2 = classId).length := List.length_map _
  refine ⟨?_, ?_, hnodup, ?_⟩
  · rw [hpositive, admitted]
    omega
  · rw [hnegative, hboxes]
    omega
  · have hstart : (matchStart (gtBoxes image classId)).truePositives = 0 := rfl
    rw [hstart, Nat.zero_add] at hcount
    exact congrArg Nat.cast hcount

/-- On one image a higher threshold matches no more labels and admits no more false positives. -/
theorem matchImage_fall {image : ImagePredictions Box S} {t₁ t₂ : S} {classId : Nat}
    (hdistinct : DistinctScores image classId) (h : t₁ ≤ t₂) :
    CountsFall (matchImage iou half image t₁ classId) (matchImage iou half image t₂ classId) := by
  have happend := ranked_append hdistinct h
  set rest := (ranked image t₁ classId).filter fun p => !decide (t₂ ≤ p.score) with hrest
  have hlength : (admitted image t₁ classId).length
      = (admitted image t₂ classId).length + rest.length := by
    rw [← (perm_ranked image t₁ classId).length_eq, ← (perm_ranked image t₂ classId).length_eq,
      ← List.length_append, ← happend]
  have hruns := @matchLoop_append _ _ _ iou half _ ((ranked image t₂ classId).map
    Prediction.box) (rest.map Prediction.box) (matchStart (gtBoxes image classId))
  rw [← List.map_append, ← happend, List.length_map] at hruns
  constructor
  · exact Int.ofNat_le.mpr hruns.1
  · show ((admitted image t₂ classId).length : Int) - _ ≤ (admitted image t₁ classId).length - _
    omega
  · show ((gtBoxes image classId).length : Int) - _ ≤ (gtBoxes image classId).length - _
    omega

/-! ## The sweep

The counts of a class are sums over the images, and sums keep the order. -/

variable {images : List (ImagePredictions Box S)} {t₁ t₂ : S} {classId : Nat}

/-- Along the sweep the summed counts and the recall of a class fall. -/
structure SummaryFalls (low high : ClassSummary) : Prop where
  groundTruth : high.groundTruth = low.groundTruth
  truePositives : high.truePositives ≤ low.truePositives
  falsePositives : high.falsePositives ≤ low.falsePositives
  falseNegatives : low.falseNegatives ≤ high.falseNegatives
  «recall» : high.«recall» ≤ low.«recall»

/-- The labels of a class do not depend on the threshold. -/
theorem summarizeClass_groundTruth (images : List (ImagePredictions Box S)) (t : S) (classId : Nat) :
    (summarizeClass iou half images t classId).groundTruth
      = (images.map fun item =>
          ((item.groundTruth.filter fun label => label.2 = classId).length : Int)).sum := by
  show (List.map _ (images.map _)).sum + (List.map _ (images.map _)).sum = _
  rw [List.map_map, List.map_map, ← List.sum_map_add]
  congr 1
  apply List.map_congr_left
  intro item _
  exact (countsAddUp iou half item t classId).groundTruth

/-- The counts of a class fall, over all images, as the threshold rises. -/
theorem summarizeClass_falls (hdistinct : ∀ image ∈ images, DistinctScores image classId)
    (h : t₁ ≤ t₂) :
    SummaryFalls (summarizeClass iou half images t₁ classId)
      (summarizeClass iou half images t₂ classId) := by
  have hfall : ∀ image ∈ images, CountsFall (matchImage iou half image t₁ classId)
      (matchImage iou half image t₂ classId) :=
    fun image himage => matchImage_fall iou half (hdistinct image himage) h
  -- the counts of a class are sums over the images, so that each falls with its terms
  have hsum : ∀ {f g : ImagePredictions Box S → Int}, (∀ image ∈ images, f image ≤ g image) →
      (images.map f).sum ≤ (images.map g).sum := List.sum_le_sum
  have htrue : (summarizeClass iou half images t₂ classId).truePositives
      ≤ (summarizeClass iou half images t₁ classId).truePositives := by
    show (List.map _ (images.map _)).sum ≤ (List.map _ (images.map _)).sum
    rw [List.map_map, List.map_map]
    exact hsum fun image himage => (hfall image himage).truePositives
  have hground : (summarizeClass iou half images t₂ classId).groundTruth
      = (summarizeClass iou half images t₁ classId).groundTruth := by
    rw [summarizeClass_groundTruth, summarizeClass_groundTruth]
  refine ⟨hground, htrue, ?_, ?_, ?_⟩
  · show (List.map _ (images.map _)).sum ≤ (List.map _ (images.map _)).sum
    rw [List.map_map, List.map_map]
    exact hsum fun image himage => (hfall image himage).falsePositives
  · show (List.map _ (images.map _)).sum ≤ (List.map _ (images.map _)).sum
    rw [List.map_map, List.map_map]
    exact hsum fun image himage => (hfall image himage).falseNegatives
  · -- the denominator is the same
    have hrecall : ∀ t, (summarizeClass iou half images t classId).«recall»
        = ((summarizeClass iou half images t classId).truePositives : ℚ)
          / (max (summarizeClass iou half images t classId).groundTruth 1 : Int) :=
      fun _ => rfl
    rw [hrecall, hrecall, hground]
    apply div_le_div_of_nonneg_right
    · exact Int.cast_le.mpr htrue
    · exact Int.cast_nonneg (le_trans zero_le_one (le_max_right _ 1))

end Counts

/-- **Raising the threshold never gains a detection.** -/
theorem thresholdSweep_monotone [LinearOrder S] [LinearOrder R] (iou : Box → Box → R) (half : R)
    (images : List (ImagePredictions Box S)) (classId : Nat)
    (hdistinct : ∀ image ∈ images, DistinctScores image classId) :
    (∀ t₁ t₂, t₁ ≤ t₂ →
      (∀ image ∈ images, CountsFall (matchImage iou half image t₁ classId)
        (matchImage iou half image t₂ classId)) ∧
      SummaryFalls (summarizeClass iou half images t₁ classId)
        (summarizeClass iou half images t₂ classId)) ∧
    ∀ image ∈ images, ∀ t, CountsAddUp iou half image t classId := by
  constructor
  · intro t₁ t₂ h
    refine ⟨?_, summarizeClass_falls iou half hdistinct h⟩
    intro image himage
    exact matchImage_fall iou half (hdistinct image himage) h
  · intro image _ t
    exact countsAddUp iou half image t classId

def twicePredicted : ImagePredictions Nat Nat where
  predictions := [⟨0, 7, 0⟩, ⟨1, 9, 0⟩]
  groundTruth := [(0, 0)]

/-- An image with two boxes for one label, and two thresholds that tell them apart. -/
theorem thresholdSweep_monotone_twicePredicted :
    CountsFall (matchImage (fun a b => if a = b then 1 else 0) 1 twicePredicted 5 0)
      (matchImage (fun a b => if a = b then 1 else 0) 1 twicePredicted 8 0) := by
  have hdistinct : ∀ image ∈ [twicePredicted], DistinctScores image 0 := by
    intro image himage a ha b hb _ _ hscore
    rw [List.mem_singleton.mp himage] at ha hb
    simp only [twicePredicted, List.mem_cons, List.not_mem_nil, or_false] at ha hb
    rcases ha with rfl | rfl <;> rcases hb with rfl | rfl <;> simp_all
  have hsweep := thresholdSweep_monotone (fun a b : Nat => if a = b then 1 else 0) 1
    [twicePredicted] 0 hdistinct
  exact (hsweep.1 5 8 (by decide)).1 twicePredicted (by simp)

end Decoder

end Rave
