import RaveDeployment.Lib.JsonRead

/-!
# Reading never ends for want of fuel

Every part that is read leaves a shorter rest, and a call is made on a rest only. So the fuel is
bookkeeping: two amounts that cover the text give one answer, be it a value or an error
(`value_congr`), and what `loads` hands over covers it (`loads_fuel`).
-/

namespace Rave

namespace Json

/-! ## Every part leaves a shorter rest

Each lemma goes through the ways in which a part is read, and looks at what is left. That at least
one character is taken is what makes the recursion end. -/

/-- Passing over blanks does not make a text longer. -/
theorem length_skipBlank_le (cs : List Char) : (skipBlank cs).length ≤ cs.length :=
  (List.dropWhile_sublist _).length_le

theorem hex4_rest {cs rest : List Char} {n : Nat} (h : hex4 cs = some (n, rest)) :
    rest.length < cs.length := by
  unfold hex4 at h
  split at h
  · next a b c d cs =>
    simp only [Option.bind_eq_bind, Option.bind_eq_some_iff] at h
    obtain ⟨_, -, _, -, _, -, _, -, h⟩ := h
    rw [← (Prod.mk.inj (Option.some.inj h)).2]
    simp only [List.length_cons]
    omega
  · cases h

theorem lowHalf_rest {cs rest : List Char} {m : Nat} (h : lowHalf cs = some (m, rest)) :
    rest.length < cs.length := by
  unfold lowHalf at h
  split at h
  · next cs =>
    obtain ⟨⟨m', rest'⟩, hhex, h⟩ := Option.bind_eq_some_iff.mp h
    dsimp only at h
    split at h
    · have hlt := hex4_rest hhex
      rw [← (Prod.mk.inj (Option.some.inj h)).2]
      simp only [List.length_cons]
      omega
    · cases h
  · cases h

/-- One escape is taken, or two. -/
theorem unicodePoint_rest {cs rest : List Char} {p : CodePoint}
    (h : unicodePoint cs = some (p, rest)) : rest.length < cs.length := by
  obtain ⟨⟨n, rest'⟩, hhex, h⟩ := Option.bind_eq_some_iff.mp h
  have hlt := hex4_rest hhex
  dsimp only at h
  split at h
  · split at h
    · next m rest'' hlow =>
      have hlow := lowHalf_rest hlow
      rw [← (Prod.mk.inj (Option.some.inj h)).2]
      omega
    · rw [← (Prod.mk.inj (Option.some.inj h)).2]
      exact hlt
  · rw [← (Prod.mk.inj (Option.some.inj h)).2]
    exact hlt

/-- A code point takes at least one character. -/
theorem stringPoint_rest {cs rest : List Char} {p : CodePoint}
    (h : stringPoint cs = some (p, rest)) : rest.length < cs.length := by
  unfold stringPoint at h
  split at h
  · cases h
  next c cs =>
  split at h
  · split at h
    · cases h
    next e cs =>
    split at h
    · have hlt := unicodePoint_rest h
      simp only [List.length_cons]
      omega
    · obtain ⟨c', -, h⟩ := Option.map_eq_some_iff.mp h
      rw [← (Prod.mk.inj h).2]
      simp only [List.length_cons]
      omega
  split at h
  · cases h
  · rw [← (Prod.mk.inj (Option.some.inj h)).2]
    exact Nat.lt_succ_self _

/-- A literal takes at least its closing quote. -/
theorem string_rest {n : Nat} : ∀ {cs rest : List Char} {ps : List CodePoint},
    string n cs = some (ps, rest) → rest.length < cs.length := by
  induction n with
  | zero =>
    intro cs rest ps h
    cases h
  | succ n ih =>
    intro cs rest ps h
    cases cs with
    | nil => cases h
    | cons c cs =>
    rw [string] at h
    split at h
    · rw [← (Prod.mk.inj (Option.some.inj h)).2]
      exact Nat.lt_succ_self _
    · obtain ⟨⟨p, rest₁⟩, hpoint, h⟩ := Option.bind_eq_some_iff.mp h
      obtain ⟨⟨ps', rest₂⟩, hstring, h⟩ := Option.bind_eq_some_iff.mp h
      have hpoint := stringPoint_rest hpoint
      have hstring := ih hstring
      rw [← (Prod.mk.inj (Option.some.inj h)).2]
      omega

/-- A fraction may be empty. -/
theorem fraction_rest (cs : List Char) : (fraction cs).2.length ≤ cs.length := by
  unfold fraction
  split
  · next c cs =>
    split
    · have hle := (List.dropWhile_sublist (l := cs) Char.isDigit).length_le
      simp only [List.length_cons]
      omega
    · exact Nat.le_refl _
  · exact Nat.le_refl _

theorem exponent_rest (cs : List Char) : (exponent cs).2.length ≤ cs.length := by
  unfold exponent
  split
  · next c cs =>
    have hsign : ∀ (sign cs' : List Char), cs'.length ≤ cs.length →
        (if (c = 'e' ∨ c = 'E') ∧ cs'.takeWhile Char.isDigit ≠ [] then
          (c :: sign ++ cs'.takeWhile Char.isDigit, cs'.dropWhile Char.isDigit)
        else ([], c :: cs)).2.length ≤ (c :: cs).length := by
      intro sign cs' hle
      have hdrop := (List.dropWhile_sublist (l := cs') Char.isDigit).length_le
      split
      · simp only [List.length_cons]
        omega
      · exact Nat.le_refl _
    split
    next sign cs' heq =>
    refine hsign sign cs' ?_
    split at heq
    · exact (Prod.mk.inj heq).2 ▸ Nat.le_succ _
    · exact (Prod.mk.inj heq).2 ▸ Nat.le_succ _
    · exact (Prod.mk.inj heq).2 ▸ Nat.le_refl _
  · exact Nat.le_refl _

/-- A number has at least one digit. -/
theorem unsigned_rest {sign cs rest : List Char} {v : Json}
    (h : unsigned sign cs = .ok (v, rest)) : rest.length < cs.length := by
  unfold unsigned at h
  dsimp only at h
  split at h
  · cases h
  next hdigits =>
  have hsplit : (cs.takeWhile Char.isDigit).length + (cs.dropWhile Char.isDigit).length =
      cs.length := by
    rw [← List.length_append, List.takeWhile_append_dropWhile]
  have hpos : 0 < (cs.takeWhile Char.isDigit).length :=
    List.length_pos_iff.mpr fun hnil => hdigits (.inl hnil)
  have hfrac := fraction_rest (cs.dropWhile Char.isDigit)
  have hexp := exponent_rest (fraction (cs.dropWhile Char.isDigit)).2
  split at h
  · split at h
    · cases h
    · rw [← (pair_of_ok h).2]
      omega
  · rw [← (pair_of_ok h).2]
    omega

theorem word_rest {cs rest : List Char} {v : Json} (h : word cs = some (v, rest)) :
    rest.length < cs.length := by
  obtain ⟨⟨text, v'⟩, hmem, h⟩ := List.exists_of_findSome?_eq_some h
  dsimp only at h
  split at h
  · next hprefix =>
    have hle := (List.isPrefixOf_iff_prefix.mp hprefix).length_le
    have hpos : 0 < text.length := by
      have hwords : ∀ w ∈ words, 0 < w.1.length := by decide
      exact hwords _ hmem
    rw [← (Prod.mk.inj (Option.some.inj h)).2, List.length_drop]
    omega
  · cases h

/-- The token after the blanks is taken. -/
theorem length_of_skipBlank {cs rest : List Char} {c : Char} (h : skipBlank cs = c :: rest) :
    rest.length < cs.length := by
  have hle := length_skipBlank_le cs
  rw [h] at hle
  exact hle

section

variable {n : Nat} (hvalue : ∀ d cs v rest, value n d cs = .ok (v, rest) → rest.length < cs.length)
include hvalue

/-- An array takes at least one item or its end. -/
theorem items_rest_succ
    (hitems : ∀ d cs vs rest, items n d cs = .ok (vs, rest) → rest.length < cs.length)
    {d : Nat} {cs rest : List Char} {vs : List Json} (h : items (n + 1) d cs = .ok (vs, rest)) :
    rest.length < cs.length := by
  rw [items] at h
  obtain ⟨⟨v, rest₁⟩, hv, h⟩ := bind_eq_ok.mp h
  have hv := hvalue _ _ _ _ hv
  dsimp only at h
  split at h
  · cases h
  next c rest₂ hskip =>
  have hskip := length_of_skipBlank hskip
  split at h
  · rw [← (pair_of_ok h).2]
    omega
  split at h
  · obtain ⟨⟨vs₁, rest₃⟩, hvs, h⟩ := bind_eq_ok.mp h
    have hvs := hitems _ _ _ _ hvs
    have hblank := length_skipBlank_le rest₂
    rw [← (pair_of_ok h).2]
    dsimp only
    omega
  · cases h

/-- An object takes at least one field or its end. -/
theorem fields_rest_succ
    (hfields : ∀ d cs fs rest, fields n d cs = .ok (fs, rest) → rest.length < cs.length)
    {d : Nat} {cs rest : List Char} {fs : List (PyStr × Json)}
    (h : fields (n + 1) d cs = .ok (fs, rest)) : rest.length < cs.length := by
  cases cs with
  | nil => cases h
  | cons c cs =>
    rw [fields] at h
    split at h
    · cases h
    -- the key is shorter than what was read, then the colon, the value and the rest
    obtain ⟨⟨k, rest₁⟩, hk, h⟩ := bind_eq_ok.mp h
    have hk := string_rest (decoded_eq_ok.mp hk)
    dsimp only at h
    split at h
    · cases h
    next _ rest₂ hcolon =>
    have hcolon := length_of_skipBlank hcolon
    split at h
    · cases h
    obtain ⟨⟨v, rest₃⟩, hv, h⟩ := bind_eq_ok.mp h
    have hv := hvalue _ _ _ _ hv
    have hblank := length_skipBlank_le rest₂
    dsimp only at h
    split at h
    · cases h
    next _ rest₄ hnext =>
    have hnext := length_of_skipBlank hnext
    rw [List.length_cons]
    -- the object is closed here, or the remaining fields are read
    split at h
    · rw [← (pair_of_ok h).2]
      omega
    split at h
    · obtain ⟨⟨fs₁, rest₅⟩, hfs, h⟩ := bind_eq_ok.mp h
      have hfs := hfields _ _ _ _ hfs
      have hblank := length_skipBlank_le rest₄
      rw [← (pair_of_ok h).2]
      dsimp only
      omega
    · cases h

end

/-- A value takes at least the character that it begins with. -/
theorem value_rest_succ {n : Nat}
    (hitems : ∀ d cs vs rest, items n d cs = .ok (vs, rest) → rest.length < cs.length)
    (hfields : ∀ d cs fs rest, fields n d cs = .ok (fs, rest) → rest.length < cs.length)
    {d : Nat} {cs rest : List Char} {v : Json} (h : value (n + 1) d cs = .ok (v, rest)) :
    rest.length < cs.length := by
  cases cs with
  | nil => cases h
  | cons c cs =>
    have hblank := length_skipBlank_le cs
    have hempty : (skipBlank cs).tail.length < (c :: cs).length := by
      rw [List.length_tail, List.length_cons]
      omega
    rw [value] at h
    split at h
    -- a string
    · obtain ⟨⟨s, rest₁⟩, hs, h⟩ := bind_eq_ok.mp h
      have hs := string_rest (decoded_eq_ok.mp hs)
      rw [← (pair_of_ok h).2, List.length_cons]
      omega
    split at h
    -- a list, empty or not
    · obtain ⟨d', -, h⟩ := bind_eq_ok.mp h
      split at h
      · exact (pair_of_ok h).2 ▸ hempty
      · obtain ⟨⟨vs, rest₁⟩, hvs, h⟩ := bind_eq_ok.mp h
        have hvs := hitems _ _ _ _ hvs
        rw [← (pair_of_ok h).2, List.length_cons]
        omega
    split at h
    -- an object, empty or not
    · obtain ⟨d', -, h⟩ := bind_eq_ok.mp h
      split at h
      · exact (pair_of_ok h).2 ▸ hempty
      · obtain ⟨⟨fs, rest₁⟩, hfs, h⟩ := bind_eq_ok.mp h
        have hfs := hfields _ _ _ _ hfs
        rw [← (pair_of_ok h).2, List.length_cons]
        omega
    split at h
    -- a word
    · next r hword =>
      rw [Except.ok.inj h] at hword
      exact word_rest hword
    -- a number, with a sign or without
    split at h
    · exact Nat.lt_succ_of_lt (unsigned_rest h)
    · exact unsigned_rest h

/-- The three functions together, by induction on the fuel. -/
theorem rest_all (n : Nat) :
    (∀ d cs v rest, value n d cs = .ok (v, rest) → rest.length < cs.length) ∧
    (∀ d cs vs rest, items n d cs = .ok (vs, rest) → rest.length < cs.length) ∧
    ∀ d cs fs rest, fields n d cs = .ok (fs, rest) → rest.length < cs.length := by
  induction n with
  | zero =>
    refine ⟨?_, ?_, ?_⟩
    · intro d cs v rest h
      exact absurd h (by simp [value])
    · intro d cs vs rest h
      exact absurd h (by simp [items])
    · intro d cs fs rest h
      exact absurd h (by simp [fields])
  | succ n ih =>
    obtain ⟨ihvalue, ihitems, ihfields⟩ := ih
    exact ⟨fun _ _ _ _ h => value_rest_succ ihitems ihfields h,
      fun _ _ _ _ h => items_rest_succ ihvalue ihitems h,
      fun _ _ _ _ h => fields_rest_succ ihvalue ihfields h⟩

/-! ## Any two amounts that cover the text agree

Both calls make the same choices, since these depend on the text alone, and call on with rests that
are covered by what is left of either amount. -/

/-- One unit for each code point and one for the end are enough for a literal. -/
theorem string_congr {n : Nat} : ∀ {m : Nat} {cs : List Char}, cs.length < n → cs.length < m →
    string n cs = string m cs := by
  induction n with
  | zero =>
    intro m cs hn
    exact absurd hn (Nat.not_lt_zero _)
  | succ n ih =>
    intro m cs hn hm
    obtain ⟨m, rfl⟩ : ∃ m', m = m' + 1 := ⟨m - 1, by omega⟩
    cases cs with
    | nil => rfl
    | cons c cs =>
      rw [string, string]
      split
      · rfl
      · cases hpoint : stringPoint (c :: cs) with
        | none => rfl
        | some r =>
          have hlt := stringPoint_rest hpoint
          show (string n r.2 >>= _) = (string m r.2 >>= _)
          rw [ih (m := m) (by omega) (by omega)]

/-- Two ways to go on agree after every value that there is to go on with. -/
theorem bind_congr_ok {ε α β : Type} {x : Except ε α} {f g : α → Except ε β}
    (h : ∀ a, x = .ok a → f a = g a) : (x >>= f) = (x >>= g) := by
  cases x with
  | error e => rfl
  | ok a => exact h a rfl

section

variable {n m : Nat} (hvalue : ∀ d (cs : List Char), 2 * cs.length + 1 ≤ n →
  2 * cs.length + 1 ≤ m → value n d cs = value m d cs)
include hvalue

/-- One step of an array: the value at its head with the same text, the others with a shorter one.
-/
theorem items_congr_succ
    (hitems : ∀ d (cs : List Char), 2 * cs.length + 2 ≤ n → 2 * cs.length + 2 ≤ m →
      items n d cs = items m d cs)
    {d : Nat} {cs : List Char} (hn : 2 * cs.length + 2 ≤ n + 1) (hm : 2 * cs.length + 2 ≤ m + 1) :
    items (n + 1) d cs = items (m + 1) d cs := by
  rw [items, items, hvalue d cs (by omega) (by omega)]
  apply bind_congr_ok
  rintro ⟨v, rest₁⟩ hv
  have hv := (rest_all m).1 _ _ _ _ hv
  dsimp only
  split
  · rfl
  next c rest₂ hskip =>
  have hskip := length_of_skipBlank hskip
  have hblank := length_skipBlank_le rest₂
  rw [hitems d (skipBlank rest₂) (by omega) (by omega)]

/-- One step of an object: the key, the value, and the fields after them. -/
theorem fields_congr_succ
    (hfields : ∀ d (cs : List Char), 2 * cs.length + 2 ≤ n → 2 * cs.length + 2 ≤ m →
      fields n d cs = fields m d cs)
    {d : Nat} {cs : List Char} (hn : 2 * cs.length + 2 ≤ n + 1) (hm : 2 * cs.length + 2 ≤ m + 1) :
    fields (n + 1) d cs = fields (m + 1) d cs := by
  cases cs with
  | nil => rfl
  | cons c cs =>
    rw [List.length_cons] at hn hm
    rw [fields, fields, string_congr (m := m) (by omega) (by omega)]
    split
    · rfl
    -- the key and the colon are used up before the value is read
    apply bind_congr_ok
    rintro ⟨k, rest₁⟩ hk
    have hk := string_rest (decoded_eq_ok.mp hk)
    dsimp only
    split
    · rfl
    next _ rest₂ hcolon =>
    have hcolon := length_of_skipBlank hcolon
    have hblank := length_skipBlank_le rest₂
    split
    · rfl
    -- the fuel that is left covers the value, and then the remaining fields
    rw [hvalue d (skipBlank rest₂) (by omega) (by omega)]
    apply bind_congr_ok
    rintro ⟨v, rest₃⟩ hv
    have hv := (rest_all m).1 _ _ _ _ hv
    dsimp only
    split
    · rfl
    next _ rest₄ hnext =>
    have hnext := length_of_skipBlank hnext
    have hblank := length_skipBlank_le rest₄
    rw [hfields d (skipBlank rest₄) (by omega) (by omega)]

end

/-- One step of a value: what is inside it begins after the bracket. -/
theorem value_congr_succ {n m : Nat}
    (hitems : ∀ d (cs : List Char), 2 * cs.length + 2 ≤ n → 2 * cs.length + 2 ≤ m →
      items n d cs = items m d cs)
    (hfields : ∀ d (cs : List Char), 2 * cs.length + 2 ≤ n → 2 * cs.length + 2 ≤ m →
      fields n d cs = fields m d cs)
    {d : Nat} {cs : List Char} (hn : 2 * cs.length + 1 ≤ n + 1) (hm : 2 * cs.length + 1 ≤ m + 1) :
    value (n + 1) d cs = value (m + 1) d cs := by
  cases cs with
  | nil => rfl
  | cons c cs =>
    rw [List.length_cons] at hn hm
    have hblank := length_skipBlank_le cs
    rw [value, value, string_congr (m := m) (by omega) (by omega)]
    have hitems : ∀ d, items n d (skipBlank cs) = items m d (skipBlank cs) :=
      fun d => hitems d _ (by omega) (by omega)
    have hfields : ∀ d, fields n d (skipBlank cs) = fields m d (skipBlank cs) :=
      fun d => hfields d _ (by omega) (by omega)
    simp only [hitems, hfields]

/-- The three functions together, by induction on the first amount. -/
theorem congr_all (n : Nat) : ∀ m,
    (∀ d (cs : List Char), 2 * cs.length + 1 ≤ n → 2 * cs.length + 1 ≤ m →
      value n d cs = value m d cs) ∧
    (∀ d (cs : List Char), 2 * cs.length + 2 ≤ n → 2 * cs.length + 2 ≤ m →
      items n d cs = items m d cs) ∧
    ∀ d (cs : List Char), 2 * cs.length + 2 ≤ n → 2 * cs.length + 2 ≤ m →
      fields n d cs = fields m d cs := by
  induction n with
  | zero =>
    intro m
    refine ⟨?_, ?_, ?_⟩ <;> intro d cs hn <;> omega
  | succ n ih =>
    intro m
    cases m with
    | zero => refine ⟨?_, ?_, ?_⟩ <;> intro d cs hn hm <;> omega
    | succ m =>
      obtain ⟨ihvalue, ihitems, ihfields⟩ := ih m
      exact ⟨fun _ _ => value_congr_succ ihitems ihfields,
        fun _ _ => items_congr_succ ihvalue ihitems, fun _ _ => fields_congr_succ ihvalue ihfields⟩

/-- **The fuel is bookkeeping**: two amounts that cover the text give the same answer. -/
theorem value_congr {n m d : Nat} {cs : List Char} (hn : 2 * cs.length + 1 ≤ n)
    (hm : 2 * cs.length + 1 ≤ m) : value n d cs = value m d cs :=
  (congr_all n m).1 d cs hn hm

/-- **More fuel than `loads` hands over changes nothing**, so that what it refuses is no JSON, has
too many digits or is nested too deep. -/
theorem loads_fuel [Nesting] (text : List Char) {n : Nat} (hn : 2 * text.length + 1 ≤ n) :
    loads text = (do
      let (v, rest) ← value n Nesting.limit (skipBlank text)
      if skipBlank rest = [] then return v else .error .decode) := by
  have hblank := length_skipBlank_le text
  unfold loads
  rw [value_congr (m := n) (by omega) (by omega)]

end Json

end Rave
