import RaveDeployment.Python.Text

/-!
# Decimal texts

`str(n)` of an integer, and `int` reading it back.
-/

namespace Rave

namespace Py

/-- `str(n)`. -/
def decimalText (n : Int) : List Char :=
  if n < 0 then '-' :: Nat.toDigits 10 n.natAbs else Nat.toDigits 10 n.natAbs

/-- What `int` makes of the ten ASCII digits. -/
def AsciiDecimals [PyUnicode] : Prop :=
  ∀ c : Char, c.isDigit = true → PyUnicode.decimal c = some (c.toNat - '0'.toNat)

theorem isDigit_toDigits (n : Nat) : ∀ c ∈ Nat.toDigits 10 n, c.isDigit = true :=
  fun _ hc => Nat.isDigit_of_mem_toDigits (by omega) (by omega) hc

/-- A digit is none of the other characters. -/
theorem ne_of_isDigit {c d : Char} (hc : c.isDigit = true) (hd : d.isDigit = false) : c ≠ d := by
  intro heq
  rw [heq, hd] at hc
  exact absurd hc (by decide)

/-- A digit is no white space. -/
theorem isSpace_of_isDigit {c : Char} (hc : c.isDigit = true) : isSpace c = false := by
  have hrange : 48 ≤ c.toNat ∧ c.toNat ≤ 57 := by
    simpa [Char.isDigit, UInt32.le_iff_toNat_le] using hc
  simp only [isSpace, List.contains_eq_any_beq, List.any_cons, List.any_nil, Bool.or_false,
    Bool.or_eq_false_iff, beq_eq_false_iff_ne, ne_eq]
  omega

theorem toDigits_eq_cons (n : Nat) : ∃ d ds, Nat.toDigits 10 n = d :: ds :=
  List.exists_cons_of_ne_nil Nat.toDigits_ne_nil

section

variable [PyUnicode] (hascii : AsciiDecimals)
include hascii

/-- Digits without underscores between them are read one by one. -/
theorem intDigits_digits {ds : List Char} (hds : ∀ c ∈ ds, c.isDigit = true) :
    intDigits ds = some (ds.map fun c => c.toNat - '0'.toNat) := by
  induction ds with
  | nil => rfl
  | cons d ds ih =>
    have hd := hds d (by simp)
    have hrest := ih fun c hc => hds c (by simp [hc])
    -- a digit is no underscore, so that the last equation applies
    have hcons : intDigits (d :: ds) = (PyUnicode.decimal d).bind fun a =>
        (intDigits ds).bind fun as => some (a :: as) := by
      rw [intDigits]
      · rfl
      · intro c cs heq _
        exact ne_of_isDigit hd (by decide) heq
    rw [hcons, hascii d hd, hrest]
    rfl

omit [PyUnicode] hascii in
/-- Their value is that of the number they are the digits of. -/
theorem foldl_digits (ds : List Char) (init : Nat) :
    (ds.map fun c => ((c.toNat - '0'.toNat : Nat) : Int)).foldl (fun n d => 10 * n + d) (init : Int)
      = (Nat.ofDigitChars 10 ds init : Int) := by
  induction ds generalizing init with
  | nil =>
    rw [Nat.ofDigitChars_nil]
    rfl
  | cons d ds ih =>
    rw [List.map_cons, List.foldl_cons, Nat.ofDigitChars_cons, ← ih]
    congr 1

/-- **`int` reads back what `str` writes**, up to the limit on digits. -/
theorem int?_decimalText (n : Int) : int? (String.ofList (decimalText n))
    = if (Nat.toDigits 10 n.natAbs).length > maxIntDigits then none else some n := by
  obtain ⟨d, ds, hcons⟩ := toDigits_eq_cons n.natAbs
  have hdigit := isDigit_toDigits n.natAbs
  have hd : d.isDigit = true := hdigit d (by simp [hcons])
  have hdigits := intDigits_digits hascii hdigit
  have hvalue := foldl_digits (Nat.toDigits 10 n.natAbs) 0
  rw [Nat.ofDigitChars_ten_toDigits] at hvalue
  -- the text begins and ends with characters that are kept
  have hlast : ∀ c ∈ (decimalText n).getLast?, isSpace c = false := by
    intro c hc
    have hmem : c ∈ Nat.toDigits 10 n.natAbs := by
      unfold decimalText at hc
      split at hc
      · rw [hcons, List.getLast?_cons_cons] at hc
        rw [hcons]
        exact List.mem_of_getLast? hc
      · exact List.mem_of_getLast? hc
    exact isSpace_of_isDigit (hdigit c hmem)
  have hhead : ∀ c ∈ (decimalText n).head?, isSpace c = false := by
    intro c hc
    unfold decimalText at hc
    split at hc
    · rw [List.head?_cons, Option.mem_def, Option.some.injEq] at hc
      rw [← hc]
      decide
    · rw [hcons, List.head?_cons, Option.mem_def, Option.some.injEq] at hc
      rw [← hc]
      exact isSpace_of_isDigit hd
  have hstrip := stripChars_of_ends hhead hlast
  have hbody : ¬((Nat.toDigits 10 n.natAbs).head? = some '_' ∨ Nat.toDigits 10 n.natAbs = []) := by
    rw [hcons, List.head?_cons, Option.some.injEq, not_or]
    exact ⟨ne_of_isDigit hd (by decide), List.cons_ne_nil d ds⟩
  have hrest : ∀ negative : Bool, (do
      let digits ← intDigits (Nat.toDigits 10 n.natAbs)
      if digits.length > maxIntDigits then none
      let value : Int := digits.foldl (fun n d => 10 * n + d) 0
      return if negative then -value else value)
      = if (Nat.toDigits 10 n.natAbs).length > maxIntDigits then none
        else some (if negative then -(n.natAbs : Int) else n.natAbs) := by
    intro negative
    rw [hdigits]
    simp only [Option.bind_eq_bind, Option.bind_some, List.length_map]
    split
    · rfl
    · rw [← hvalue]
      simp only [List.bind_eq_flatMap, List.pure_def, ← List.map_eq_flatMap, List.map_map]
      rfl
  unfold int?
  rw [String.toList_ofList, hstrip]
  unfold decimalText
  by_cases hneg : n < 0
  · rw [if_pos hneg]
    have habs : -(n.natAbs : Int) = n := by omega
    have hread := hrest true
    rw [if_pos rfl, habs] at hread
    exact (if_neg hbody).trans hread
  · rw [if_neg hneg]
    have habs : (n.natAbs : Int) = n := by omega
    have hread := hrest false
    rw [if_neg Bool.false_ne_true, habs] at hread
    rw [hcons] at hbody hread ⊢
    -- the first character is a digit, and no sign
    split
    next negative body heq =>
    split at heq
    · next hcons => exact absurd (List.cons.inj hcons).1 (ne_of_isDigit hd (by decide))
    · next hcons => exact absurd (List.cons.inj hcons).1 (ne_of_isDigit hd (by decide))
    · obtain ⟨rfl, rfl⟩ := Prod.mk.inj heq
      exact (if_neg hbody).trans hread

end

end Py

end Rave
