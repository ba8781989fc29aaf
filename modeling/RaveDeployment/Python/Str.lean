import Mathlib.Data.List.Chain
import Mathlib.Data.List.Lex
import Mathlib.Order.Basic
import Mathlib.Tactic.Common

/-!
# Python's strings

A Python string may hold half of a surrogate pair, which no `Char` is. `PyStr` tells the two kinds
of string apart: a text, which is what nearly every caller has, and a list of code points with at
least one such half. Each string has one representation (`ofPoints_points`), so equality is
equality of the code points, and the order is theirs.
-/

namespace Rave

/-- A code point of a Python string. -/
inductive CodePoint where
  | char (c : Char)
  /-- `U+D800` and on: half of a surrogate pair, standing alone. -/
  | surrogate (n : Fin 0x800)
  deriving DecidableEq

namespace CodePoint

/-- `ord`. -/
def toNat : CodePoint → Nat
  | char c => c.toNat
  | surrogate n => 0xd800 + n

/-- `chr`, below `0x110000`. -/
def ofNat (n : Nat) : CodePoint :=
  if h : 0xd800 ≤ n ∧ n < 0xe000 then surrogate ⟨n - 0xd800, by omega⟩ else char (Char.ofNat n)

def isSurrogate : CodePoint → Bool
  | char _ => false
  | surrogate _ => true

def IsHigh (p : CodePoint) : Prop :=
  0xd800 ≤ p.toNat ∧ p.toNat < 0xdc00

def IsLow (p : CodePoint) : Prop :=
  0xdc00 ≤ p.toNat ∧ p.toNat < 0xe000

def char? : CodePoint → Option Char
  | char c => some c
  | surrogate _ => none

/-- Code points differ in their numbers. -/
theorem toNat_injective : Function.Injective toNat := by
  rintro (c | n) (d | m) h
  · exact congrArg char (Char.toNat_inj.mp h)
  · -- a character is no surrogate
    have hc : c.toNat < 0xd800 ∨ 0xdfff < c.toNat ∧ c.toNat < 0x110000 := c.valid
    have hm := m.isLt
    simp only [toNat] at h
    omega
  · have hd : d.toNat < 0xd800 ∨ 0xdfff < d.toNat ∧ d.toNat < 0x110000 := d.valid
    have hn := n.isLt
    simp only [toNat] at h
    omega
  · simp only [toNat] at h
    exact congrArg surrogate (Fin.ext (by omega))

/-- The numbers of the surrogates are theirs. -/
theorem ofNat_surrogate (n : Fin 0x800) : ofNat (0xd800 + n) = surrogate n := by
  have hn := n.isLt
  rw [ofNat, dif_pos (by omega)]
  exact congrArg surrogate (Fin.ext (by simp))

theorem ofNat_char (c : Char) : ofNat c.toNat = char c := by
  have hc : c.toNat < 0xd800 ∨ 0xdfff < c.toNat ∧ c.toNat < 0x110000 := c.valid
  rw [ofNat, dif_neg (by omega), Char.ofNat_toNat]

/-- A code point is found by its number. -/
theorem ofNat_toNat (p : CodePoint) : ofNat p.toNat = p := by
  cases p with
  | char c => exact ofNat_char c
  | surrogate n => exact ofNat_surrogate n

/-- A character is neither half of a pair. -/
theorem not_isHigh_char (c : Char) : ¬IsHigh (char c) := by
  have hc : c.toNat < 0xd800 ∨ 0xdfff < c.toNat ∧ c.toNat < 0x110000 := c.valid
  simp only [IsHigh, toNat]
  omega

/-- A character is neither half of a pair. -/
theorem not_isLow_char (c : Char) : ¬IsLow (char c) := by
  have hc : c.toNat < 0xd800 ∨ 0xdfff < c.toNat ∧ c.toNat < 0x110000 := c.valid
  simp only [IsLow, toNat]
  omega

/-- Where the first halves are. -/
theorem isHigh_ofNat {n : Nat} (h : (ofNat n).IsHigh) : 0xd800 ≤ n ∧ n < 0xdc00 := by
  unfold ofNat at h
  split at h
  · simp only [IsHigh, toNat] at h
    omega
  · exact absurd h (not_isHigh_char _)

/-- Where the second halves are. -/
theorem isLow_ofNat {n : Nat} (h : (ofNat n).IsLow) : 0xdc00 ≤ n ∧ n < 0xe000 := by
  unfold ofNat at h
  split at h
  · simp only [IsLow, toNat] at h
    omega
  · exact absurd h (not_isLow_char _)

end CodePoint

/-- A Python string: a text, or code points of which one at least is half of a surrogate pair. -/
inductive PyStr where
  | text (s : String)
  | surrogates (points : List CodePoint) (h : points.any CodePoint.isSurrogate = true)
  deriving DecidableEq

instance : Coe String PyStr := ⟨.text⟩

namespace PyStr

def points : PyStr → List CodePoint
  | text s => s.toList.map .char
  | surrogates points _ => points

def ofPoints (points : List CodePoint) : PyStr :=
  if h : points.any CodePoint.isSurrogate = true then surrogates points h
  else text (String.ofList (points.filterMap CodePoint.char?))

/-- `len(s)`. -/
def length (s : PyStr) : Nat :=
  s.points.length

/-- `s + t`, where `s` is a text. -/
def prepend (s : String) : PyStr → PyStr
  | text t => text (s ++ t)
  | surrogates points _ => ofPoints (s.toList.map .char ++ points)

def IsText : PyStr → Prop
  | text _ => True
  | surrogates _ _ => False

instance : DecidablePred IsText
  | text _ => .isTrue trivial
  | surrogates _ _ => .isFalse id

/-- No two of its surrogates are the two halves of one pair. What `json.loads` returns is so, since
it joins the halves. -/
def Unpaired : PyStr → Prop
  | text _ => True
  | surrogates points _ => points.IsChain fun p q => ¬(p.IsHigh ∧ q.IsLow)

@[simp] theorem isText_text (s : String) : (text s).IsText := trivial

theorem IsText.unpaired : ∀ {s : PyStr}, s.IsText → s.Unpaired
  | text _, _ => trivial

theorem any_isSurrogate_chars (cs : List Char) :
    (cs.map CodePoint.char).any CodePoint.isSurrogate = false := by
  rw [List.any_eq_false]
  intro p hp
  obtain ⟨c, -, rfl⟩ := List.mem_map.mp hp
  exact Bool.false_ne_true

theorem filterMap_char?_chars (cs : List Char) :
    (cs.map CodePoint.char).filterMap CodePoint.char? = cs := by
  rw [List.filterMap_map]
  exact List.filterMap_some

@[simp] theorem char_mem_points_text (c : Char) (s : String) :
    .char c ∈ (text s).points ↔ c ∈ s.toList := by
  simp [points]

@[simp] theorem length_text (s : String) : (text s).length = s.length := by
  rw [length, points, List.length_map, String.length_toList]

theorem ofPoints_chars (cs : List Char) : ofPoints (cs.map .char) = text (String.ofList cs) := by
  have hany := any_isSurrogate_chars cs
  rw [ofPoints, dif_neg (by rw [hany]; exact Bool.false_ne_true), filterMap_char?_chars]

/-- A string is that of its code points. -/
theorem ofPoints_points (s : PyStr) : ofPoints s.points = s := by
  cases s with
  | text s =>
    rw [points, ofPoints_chars, String.ofList_toList]
  | surrogates points h =>
    rw [PyStr.points, ofPoints, dif_pos h]

theorem points_ofPoints (points : List CodePoint) : (ofPoints points).points = points := by
  unfold ofPoints
  split
  · rfl
  next h =>
  -- without surrogates every point is a character
  have hchar : ∀ p ∈ points, ∃ c, p = .char c := by
    intro p hp
    cases p with
    | char c => exact ⟨c, rfl⟩
    | surrogate n => exact absurd (List.any_eq_true.mpr ⟨_, hp, rfl⟩) h
  obtain ⟨cs, rfl⟩ : ∃ cs : List Char, points = cs.map .char := by
    clear h
    induction points with
    | nil => exact ⟨[], rfl⟩
    | cons p points ih =>
      obtain ⟨c, rfl⟩ := hchar p (by simp)
      obtain ⟨cs, rfl⟩ := ih fun q hq => hchar q (by simp [hq])
      exact ⟨c :: cs, rfl⟩
  rw [PyStr.points, String.toList_ofList, filterMap_char?_chars]

theorem points_injective : Function.Injective points := by
  intro s t h
  rw [← ofPoints_points s, h, ofPoints_points]

/-- Whether halves stand side by side is seen of the code points. -/
theorem unpaired_ofPoints {points : List CodePoint}
    (h : points.IsChain fun p q => ¬(p.IsHigh ∧ q.IsLow)) : (ofPoints points).Unpaired := by
  unfold ofPoints
  split
  · exact h
  · trivial

theorem Unpaired.points : ∀ {s : PyStr}, s.Unpaired →
    s.points.IsChain fun p q => ¬(p.IsHigh ∧ q.IsLow)
  | text s, _ => by
    rw [PyStr.points]
    apply List.Pairwise.isChain
    exact List.pairwise_map.mpr (List.pairwise_of_forall fun c _ h => CodePoint.not_isHigh_char c h.1)
  | surrogates _ _, h => h

/-- The order of the code points, by which `sort_keys` sorts. -/
instance : LinearOrder PyStr :=
  LinearOrder.lift' (fun s => s.points.map CodePoint.toNat)
    (CodePoint.toNat_injective.list_map.comp points_injective)

end PyStr

end Rave
