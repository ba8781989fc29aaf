import RaveDeployment.Lib.Json
import Mathlib.Data.List.Sort
import Mathlib.Data.List.Nodup
import Mathlib.Data.String.Basic

/-!
# What `json.loads` returns

Every value that `loads` returns can be written and read back (`loads_written`), floats and lone
surrogates included: a float keeps its text, and its text reads as itself; the halves of a pair are
joined, so none stand next to each other. Two such values that `dumps` writes alike are therefore
the same (`dumps_injective`). `sortKeys` is the value that `dumps` with `sort_keys` writes;
values equal up to it are equal to Python, for which the fields of an object have no order
(`Same`).
-/

namespace Rave

namespace Json

/-! ## Numbers

What is read as a float is kept as it is written. It is cut into a sign, digits, a fraction and an
exponent, and is read in the same way when it is written again. -/

theorem isDigit_of_mem_takeWhile {cs : List Char} {c : Char}
    (h : c ∈ cs.takeWhile Char.isDigit) : c.isDigit = true :=
  List.all_eq_true.mp List.all_takeWhile c h

/-- Digits end where something else begins. -/
theorem takeWhile_before {ds rest : List Char} (hds : ∀ c ∈ ds, c.isDigit = true)
    (hrest : ∀ c, rest.head? = some c → c.isDigit = false) :
    (ds ++ rest).takeWhile Char.isDigit = ds ∧ (ds ++ rest).dropWhile Char.isDigit = rest := by
  rw [List.takeWhile_append_of_pos hds, List.dropWhile_append_of_pos hds]
  cases rest with
  | nil => simp
  | cons c rest =>
    have hc := hrest c rfl
    simp [hc]

/-- A fraction is empty, or a dot and digits. -/
theorem fraction_cases (cs : List Char) :
    (fraction cs).1 = [] ∨ ∃ ds, (fraction cs).1 = '.' :: ds ∧ ds ≠ [] ∧
      ∀ c ∈ ds, c.isDigit = true := by
  cases cs with
  | nil => exact Or.inl rfl
  | cons c cs =>
    simp only [fraction]
    split
    · next h =>
      rw [h.1]
      exact Or.inr ⟨_, rfl, h.2, fun d hd => isDigit_of_mem_takeWhile hd⟩
    · exact Or.inl rfl

/-- A fraction is read back. -/
theorem fraction_append {ds rest : List Char} (hne : ds ≠ []) (hds : ∀ c ∈ ds, c.isDigit = true)
    (hrest : ∀ c, rest.head? = some c → c.isDigit = false) :
    fraction ('.' :: ds ++ rest) = ('.' :: ds, rest) := by
  obtain ⟨htake, hdrop⟩ := takeWhile_before hds hrest
  rw [List.cons_append]
  simp only [fraction]
  rw [htake, hdrop, if_pos ⟨trivial, hne⟩]

def exponentSign (cs : List Char) : List Char × List Char :=
  match cs with
  | '+' :: cs' => (['+'], cs')
  | '-' :: cs' => (['-'], cs')
  | _ => ([], cs)

/-- The exponent, with its sign taken apart. -/
theorem exponent_cons (e : Char) (cs : List Char) :
    exponent (e :: cs) =
      if (e = 'e' ∨ e = 'E') ∧ (exponentSign cs).2.takeWhile Char.isDigit ≠ [] then
        (e :: (exponentSign cs).1 ++ (exponentSign cs).2.takeWhile Char.isDigit,
          (exponentSign cs).2.dropWhile Char.isDigit)
      else ([], e :: cs) := by
  rfl

/-- The sign of an exponent may be missing. -/
theorem exponentSign_cases (cs : List Char) :
    (exponentSign cs).1 = [] ∨ (exponentSign cs).1 = ['+'] ∨ (exponentSign cs).1 = ['-'] := by
  unfold exponentSign
  split
  · exact Or.inr (Or.inl rfl)
  · exact Or.inr (Or.inr rfl)
  · exact Or.inl rfl

/-- The sign of an exponent is read back before a digit. -/
theorem exponentSign_append {sign : List Char} (hsign : sign = [] ∨ sign = ['+'] ∨ sign = ['-'])
    {d : Char} (hd : d.isDigit = true) (cs : List Char) :
    exponentSign (sign ++ d :: cs) = (sign, d :: cs) := by
  rcases hsign with rfl | rfl | rfl
  · rw [List.nil_append]
    unfold exponentSign
    split
    · next heq =>
      rw [(List.cons.inj heq).1] at hd
      cases hd
    · next heq =>
      rw [(List.cons.inj heq).1] at hd
      cases hd
    · rfl
  · rfl
  · rfl

/-- An exponent is empty, or its letter, an optional sign and digits. -/
theorem exponent_cases (cs : List Char) :
    (exponent cs).1 = [] ∨ ∃ e sign ds, (exponent cs).1 = e :: sign ++ ds ∧ (e = 'e' ∨ e = 'E') ∧
      (sign = [] ∨ sign = ['+'] ∨ sign = ['-']) ∧ ds ≠ [] ∧ ∀ c ∈ ds, c.isDigit = true := by
  cases cs with
  | nil => exact Or.inl rfl
  | cons e cs =>
    rw [exponent_cons]
    split
    · next h =>
      right
      exact ⟨e, _, _, rfl, h.1, exponentSign_cases cs, h.2, fun d hd => isDigit_of_mem_takeWhile hd⟩
    · exact Or.inl rfl

/-- An exponent is read back. -/
theorem exponent_append {e : Char} {sign ds rest : List Char} (he : e = 'e' ∨ e = 'E')
    (hsign : sign = [] ∨ sign = ['+'] ∨ sign = ['-']) (hne : ds ≠ [])
    (hds : ∀ c ∈ ds, c.isDigit = true) (hrest : NumberEnds rest) :
    exponent (e :: sign ++ ds ++ rest) = (e :: sign ++ ds, rest) := by
  obtain ⟨htake, hdrop⟩ := takeWhile_digits hds hrest
  obtain ⟨d, ds', rfl⟩ := List.exists_cons_of_ne_nil hne
  have hsplit : exponentSign (sign ++ (d :: ds' ++ rest)) = (sign, d :: ds' ++ rest) :=
    exponentSign_append hsign (hds d (by simp)) _
  rw [List.append_assoc, List.cons_append, exponent_cons, hsplit, htake, hdrop, if_pos ⟨he, hne⟩]

/-- The two parts of a number after its digits, read again. -/
theorem fraction_exponent_append (cs : List Char) {rest : List Char} (hrest : NumberEnds rest) :
    let frac := (fraction cs).1
    let exp := (exponent (fraction cs).2).1
    fraction (frac ++ exp ++ rest) = (frac, exp ++ rest) ∧ exponent (exp ++ rest) = (exp, rest) ∧
      ∀ c, (frac ++ exp ++ rest).head? = some c → c.isDigit = false := by
  intro frac exp
  -- the exponent first: the fraction ends where it begins
  have hexp : exponent (exp ++ rest) = (exp, rest) ∧
      ∀ c, (exp ++ rest).head? = some c → c.isDigit = false ∧ c ≠ '.' := by
    rcases exponent_cases (fraction cs).2 with hnil | ⟨e, sign, ds, heq, he, hsign, hne, hds⟩
    · have hnone : exp = [] := hnil
      rw [hnone]
      refine ⟨exponent_of_ends hrest, ?_⟩
      intro c hc
      exact ⟨(hrest c hc).1, (hrest c hc).2.1⟩
    · have hsome : exp = e :: sign ++ ds := heq
      rw [hsome]
      refine ⟨exponent_append he hsign hne hds hrest, ?_⟩
      intro c hc
      have hce : e = c := Option.some.inj hc
      rw [← hce]
      rcases he with rfl | rfl <;> decide
  rcases fraction_cases cs with hnil | ⟨ds, heq, hne, hds⟩
  · have hnone : frac = [] := hnil
    rw [hnone, List.nil_append]
    refine ⟨?_, hexp.1, fun c hc => (hexp.2 c hc).1⟩
    cases htext : exp ++ rest with
    | nil => rfl
    | cons c cs' =>
      have hc := (hexp.2 c (by rw [htext]; rfl)).2
      simp [fraction, hc]
  · have hsome : frac = '.' :: ds := heq
    rw [hsome, List.append_assoc]
    refine ⟨fraction_append hne hds (fun c hc => (hexp.2 c hc).1), hexp.1, ?_⟩
    intro c hc
    rw [← Option.some.inj hc]
    decide

/-- A number is bounded by how many digits it has. -/
theorem ofDigitChars_lt {ds : List Char} (hds : ∀ c ∈ ds, c.isDigit = true) (init : Nat) :
    Nat.ofDigitChars 10 ds init < (init + 1) * 10 ^ ds.length := by
  induction ds generalizing init with
  | nil => simp
  | cons d ds ih =>
    have hd := hds d (by simp)
    have hdigit : d.toNat - '0'.toNat < 10 := by
      simp only [Char.isDigit, Bool.and_eq_true, decide_eq_true_eq] at hd
      have hlow : '0'.toNat = 48 := rfl
      have hhigh : d.toNat ≤ 57 := hd.2
      omega
    have hrest := ih (fun c hc => hds c (by simp [hc])) (10 * init + (d.toNat - '0'.toNat))
    have hle : 10 * init + (d.toNat - '0'.toNat) + 1 ≤ (init + 1) * 10 := by omega
    rw [Nat.ofDigitChars_cons, List.length_cons, Nat.pow_succ']
    calc _ < (10 * init + (d.toNat - '0'.toNat) + 1) * 10 ^ ds.length := hrest
      _ ≤ (init + 1) * 10 * 10 ^ ds.length := Nat.mul_le_mul_right _ hle
      _ = (init + 1) * (10 * 10 ^ ds.length) := Nat.mul_assoc _ _ _

/-- An integer that is read is within the interpreter's limit when it is written. -/
theorem length_toDigits_ofDigitChars {ds : List Char} (hne : ds ≠ [])
    (hds : ∀ c ∈ ds, c.isDigit = true) :
    (Nat.toDigits 10 (Nat.ofDigitChars 10 ds 0)).length ≤ ds.length := by
  have hpos : 0 < ds.length := List.length_pos_of_ne_nil hne
  rw [Nat.length_toDigits_le_iff (by decide) hpos]
  have hlt := ofDigitChars_lt hds 0
  rwa [Nat.zero_add, Nat.one_mul] at hlt

/-- No digit is a blank. -/
theorem isBlank_of_isDigit {d : Char} (hd : d.isDigit = true) : isBlank d = false := by
  cases hb : isBlank d with
  | false => rfl
  | true =>
    simp only [isBlank, Bool.or_eq_true, decide_eq_true_eq] at hb
    rcases hb with ((rfl | rfl) | rfl) | rfl <;> cases hd

/-- A digit is none of the other characters. -/
theorem ne_of_isDigit {d c : Char} (hd : d.isDigit = true) (hc : c.isDigit = false) : d ≠ c := by
  intro heq
  rw [heq, hc] at hd
  cases hd

/-- A float without a sign, as the reader splits it, is read back. -/
theorem floatText_of_unsigned {d : Char} {cs : List Char} (hd : d.isDigit = true)
    (hread : ∀ rest, NumberEnds rest →
      unsigned [] (d :: (cs ++ rest)) = .ok (float (d :: cs), rest)) : FloatText (d :: cs) := by
  refine ⟨⟨d, cs, rfl, isBlank_of_isDigit hd, ne_of_isDigit hd (by decide)⟩, ?_⟩
  intro n d' rest hrest
  rw [List.cons_append, value, if_neg (ne_of_isDigit hd (by decide)),
    if_neg (ne_of_isDigit hd (by decide)), if_neg (ne_of_isDigit hd (by decide)),
    word_none_of_isDigit hd]
  dsimp only
  rw [if_neg (ne_of_isDigit hd (by decide)), hread rest hrest]

theorem floatText_of_minus {d : Char} {cs : List Char} (hd : d.isDigit = true)
    (hread : ∀ rest, NumberEnds rest →
      unsigned ['-'] (d :: (cs ++ rest)) = .ok (float ('-' :: d :: cs), rest)) :
    FloatText ('-' :: d :: cs) := by
  refine ⟨⟨'-', d :: cs, rfl, by decide, by decide⟩, ?_⟩
  intro n d' rest hrest
  rw [List.cons_append, List.cons_append, value, if_neg (by decide), if_neg (by decide),
    if_neg (by decide), word_none_of_minus hd]
  dsimp only
  rw [if_pos rfl, hread rest hrest]

/-- A number that is read can be written. -/
theorem written_unsigned {sign cs rest : List Char} {v : Json} (hsign : sign = [] ∨ sign = ['-'])
    (h : unsigned sign cs = .ok (v, rest)) : Written v := by
  have hds : ∀ c ∈ cs.takeWhile Char.isDigit, c.isDigit = true :=
    fun c hc => isDigit_of_mem_takeWhile hc
  simp only [unsigned] at h
  split at h
  · exact absurd h (by simp)
  next hgood =>
  split at h
  · split at h
    · exact absurd h (by simp)
    next hlen =>
    have hv := (pair_of_ok h).1
    rw [← hv]
    have hne : cs.takeWhile Char.isDigit ≠ [] := fun hnil => hgood (Or.inl hnil)
    have hdigits := length_toDigits_ofDigitChars hne hds
    show (Nat.toDigits 10 (Int.natAbs (if sign = [] then _ else _))).length ≤ maxDigits
    split
    · rw [Int.natAbs_natCast]
      omega
    · rw [Int.natAbs_neg, Int.natAbs_natCast]
      omega
  · next hparts =>
    have hv := (pair_of_ok h).1
    rw [← hv]
    -- the parts of the number, named once
    obtain ⟨ds, hdsdef⟩ : ∃ ds, ds = cs.takeWhile Char.isDigit := ⟨_, rfl⟩
    obtain ⟨frac, hfrac⟩ : ∃ frac, frac = (fraction (cs.dropWhile Char.isDigit)).1 := ⟨_, rfl⟩
    obtain ⟨exp, hexp⟩ : ∃ exp, exp = (exponent (fraction (cs.dropWhile Char.isDigit)).2).1 :=
      ⟨_, rfl⟩
    rw [← hdsdef] at hgood hds
    rw [← hfrac, ← hexp] at hparts
    show FloatText (sign ++ cs.takeWhile Char.isDigit ++ _ ++ _)
    rw [← hdsdef, ← hfrac, ← hexp]
    obtain ⟨d, ds', hcons⟩ := List.exists_cons_of_ne_nil (fun hnil => hgood (Or.inl hnil))
    have hd : d.isDigit = true := hds d (by rw [hcons]; simp)
    have hread : ∀ rest, NumberEnds rest → unsigned sign (d :: (ds' ++ frac ++ exp ++ rest)) =
        .ok (float (sign ++ ds ++ frac ++ exp), rest) := by
      intro rest hrest
      have hagain := fraction_exponent_append (cs.dropWhile Char.isDigit) hrest
      rw [← hfrac, ← hexp] at hagain
      obtain ⟨htake, hdrop⟩ := takeWhile_before hds hagain.2.2
      have htext : d :: (ds' ++ frac ++ exp ++ rest) = ds ++ (frac ++ exp ++ rest) := by
        rw [hcons]
        simp
      rw [htext]
      simp only [unsigned, htake, hdrop, hagain.1, hagain.2.1]
      rw [if_neg hgood, if_neg hparts]
    rcases hsign with rfl | rfl
    · have htext : [] ++ ds ++ frac ++ exp = d :: (ds' ++ frac ++ exp) := by
        rw [hcons]
        simp
      rw [htext]
      exact floatText_of_unsigned hd (fun rest hrest => htext ▸ hread rest hrest)
    · have htext : ['-'] ++ ds ++ frac ++ exp = '-' :: d :: (ds' ++ frac ++ exp) := by
        rw [hcons]
        simp
      rw [htext]
      exact floatText_of_minus hd (fun rest hrest => htext ▸ hread rest hrest)

/-! ## Values

Setting fields one after another keeps what has been read, since a field is either new or replaces
the value of its key. -/

theorem writtenItems_iff {vs : List Json} : WrittenItems vs ↔ ∀ v ∈ vs, Written v := by
  induction vs with
  | nil => simp [WrittenItems]
  | cons v vs ih => simp [WrittenItems, ih]

/-- The fields one by one. -/
theorem writtenFields_iff {fs : List (PyStr × Json)} :
    WrittenFields fs ↔ ∀ f ∈ fs, Written f.2 := by
  induction fs with
  | nil => simp [WrittenFields]
  | cons f fs ih => simp [WrittenFields, ih]

/-- Setting a key keeps the keys distinct and the values written. -/
theorem written_setField {fs : List (PyStr × Json)} {f : PyStr × Json}
    (hfs : Written (obj fs)) (hkey : f.1.Unpaired) (hf : Written f.2) :
    Written (obj (setField fs f)) := by
  obtain ⟨⟨hnodup, hkeys⟩, hwritten⟩ := hfs
  rw [writtenFields_iff] at hwritten
  by_cases hmem : f.1 ∈ fs.map Prod.fst
  · have hany : (fs.any fun g => g.1 = f.1) = true := by
      obtain ⟨g, hg, heq⟩ := List.mem_map.mp hmem
      exact List.any_eq_true.mpr ⟨g, hg, by simpa using heq⟩
    -- the key is there: its value is replaced, and the keys stay
    have hset : setField fs f = fs.map fun g => if g.1 = f.1 then f else g := by
      rw [setField, if_pos hany]
    have hsame : (fs.map fun g => if g.1 = f.1 then f else g).map Prod.fst = fs.map Prod.fst := by
      rw [List.map_map]
      apply List.map_congr_left
      intro g _
      show (if g.1 = f.1 then f else g).1 = g.1
      split
      · next heq => exact heq.symm
      · rfl
    rw [hset]
    refine ⟨by rw [hsame]; exact ⟨hnodup, hkeys⟩, writtenFields_iff.mpr ?_⟩
    intro g hg
    obtain ⟨g', hg', rfl⟩ := List.mem_map.mp hg
    split
    · exact hf
    · exact hwritten g' hg'
  · rw [setField_of_not_mem hmem]
    refine ⟨⟨?_, ?_⟩, ?_⟩
    · rw [List.map_append]
      apply List.nodup_append.mpr
      refine ⟨hnodup, List.nodup_singleton _, ?_⟩
      intro k hk k' hk' heq
      rw [heq, List.mem_singleton.mp hk'] at hk
      exact hmem hk
    · rw [List.map_append]
      intro k hk
      rcases List.mem_append.mp hk with hk | hk
      · exact hkeys k hk
      · rw [List.mem_singleton.mp hk]
        exact hkey
    · rw [writtenFields_iff]
      intro g hg
      rcases List.mem_append.mp hg with hg | hg
      · exact hwritten g hg
      · rw [List.mem_singleton.mp hg]
        exact hf

theorem written_obj_nil : Written (obj []) :=
  ⟨⟨List.nodup_nil, fun _ hk => absurd hk (by simp)⟩, trivial⟩

/-- Setting fields keeps that the object can be written. -/
theorem written_foldl_setField {done fs : List (PyStr × Json)} (hdone : Written (obj done))
    (hkeys : ∀ k ∈ fs.map Prod.fst, k.Unpaired) (hfs : WrittenFields fs) :
    Written (obj (fs.foldl setField done)) := by
  induction fs generalizing done with
  | nil => exact hdone
  | cons f fs ih =>
    obtain ⟨hkey, hkeys⟩ : f.1.Unpaired ∧ _ := List.forall_mem_cons.mp hkeys
    exact ih (written_setField hdone hkey hfs.1) hkeys hfs.2

/-- The depth of the fields is that of the deepest. -/
theorem nestingFields_le_iff {fs : List (PyStr × Json)} {d : Nat} :
    nestingFields fs ≤ d ↔ ∀ f ∈ fs, f.2.nesting ≤ d := by
  induction fs with
  | nil => simp [nestingFields]
  | cons f fs ih => simp [nestingFields, ih]

/-- Setting fields makes an object no deeper than they are. -/
theorem nestingFields_foldl_setField {done fs : List (PyStr × Json)} {d : Nat}
    (hdone : nestingFields done ≤ d) (hfs : nestingFields fs ≤ d) :
    nestingFields (fs.foldl setField done) ≤ d := by
  induction fs generalizing done with
  | nil => exact hdone
  | cons f fs ih =>
    obtain ⟨hf, hfs⟩ := Nat.max_le.mp hfs
    refine ih ?_ hfs
    rw [nestingFields_le_iff] at hdone ⊢
    intro g hg
    -- a field that is set is the new one, or was there before
    unfold setField at hg
    split at hg
    · obtain ⟨g', hg', rfl⟩ := List.mem_map.mp hg
      split
      · exact hf
      · exact hdone g' hg'
    · rcases List.mem_append.mp hg with hg | hg
      · exact hdone g hg
      · rw [List.mem_singleton.mp hg]
        exact hf

/-- A number is not nested. -/
theorem nesting_unsigned {sign cs rest : List Char} {v : Json}
    (h : unsigned sign cs = .ok (v, rest)) : v.nesting = 0 := by
  simp only [unsigned] at h
  split at h
  · exact absurd h (by simp)
  split at h
  · split at h
    · exact absurd h (by simp)
    · rw [← (pair_of_ok h).1]
      rfl
  · rw [← (pair_of_ok h).1]
    rfl

/-- A word is no bracket. -/
theorem nesting_word {cs rest : List Char} {v : Json} (h : word cs = some (v, rest)) :
    v.nesting = 0 := by
  obtain ⟨⟨text, w⟩, hmem, heq⟩ := List.exists_of_findSome?_eq_some h
  dsimp only at heq
  split at heq
  · rw [← (Prod.mk.inj (Option.some.inj heq)).1]
    exact (show ∀ f ∈ words, f.2.nesting = 0 by simp [words, nesting]) _ hmem
  · exact absurd heq (by simp)

/-- The three words for numbers are texts of floats. -/
theorem floatText_word {lexeme : List Char}
    (h : lexeme ∈ ["NaN".toList, "Infinity".toList, "-Infinity".toList]) : FloatText lexeme := by
  simp only [List.mem_cons, List.not_mem_nil, or_false] at h
  rcases h with rfl | rfl | rfl
  · exact ⟨⟨'N', ['a', 'N'], by decide, by decide, by decide⟩, fun _ _ _ _ => rfl⟩
  · exact ⟨⟨'I', "nfinity".toList, by decide, by decide, by decide⟩, fun _ _ _ _ => rfl⟩
  · exact ⟨⟨'-', "Infinity".toList, by decide, by decide, by decide⟩, fun _ _ _ _ => rfl⟩

/-- What a word stands for is written as that word. -/
theorem written_word {cs rest : List Char} {v : Json} (h : word cs = some (v, rest)) :
    Written v := by
  obtain ⟨⟨text, w⟩, hmem, heq⟩ := List.exists_of_findSome?_eq_some h
  dsimp only at heq
  split at heq
  · have hv : w = v := (Prod.mk.inj (Option.some.inj heq)).1
    rw [← hv]
    simp only [words, List.mem_cons, List.not_mem_nil, or_false, Prod.mk.injEq] at hmem
    rcases hmem with ⟨-, rfl⟩ | ⟨-, rfl⟩ | ⟨-, rfl⟩ | ⟨-, rfl⟩ | ⟨-, rfl⟩ | ⟨-, rfl⟩
    · trivial
    · trivial
    · trivial
    · exact floatText_word (by simp)
    · exact floatText_word (by simp)
    · exact floatText_word (by simp)
  · exact absurd heq (by simp)

/-! ## Strings

A string is read as it was written, escape by escape. -/

/-- An escape stands for a character or for half of a pair that has no second half. -/
theorem unicodePoint_cases {cs rest : List Char} {p : CodePoint}
    (h : unicodePoint cs = some (p, rest)) :
    (∃ c, p = .char c) ∨ ∃ n, hex4 cs = some (n, rest) ∧ p = .ofNat n ∧
      (0xd800 ≤ n ∧ n < 0xdc00 → lowHalf rest = none) := by
  obtain ⟨⟨n, rest'⟩, hhex, h⟩ := Option.bind_eq_some_iff.mp h
  dsimp only at h
  split at h
  · split at h
    · exact .inl ⟨_, (Prod.mk.inj (Option.some.inj h)).1.symm⟩
    · next hnone =>
      obtain ⟨rfl, rfl⟩ := Prod.mk.inj (Option.some.inj h)
      exact .inr ⟨n, hhex, rfl, fun _ => hnone⟩
  · next hhigh =>
    obtain ⟨rfl, rfl⟩ := Prod.mk.inj (Option.some.inj h)
    exact .inr ⟨n, hhex, rfl, fun hn => absurd hn hhigh⟩

/-- Only an escape can stand for half of a pair. -/
theorem stringPoint_cases {cs rest : List Char} {p : CodePoint}
    (h : stringPoint cs = some (p, rest)) :
    (∃ c, p = .char c) ∨ ∃ cs', cs = '\\' :: 'u' :: cs' ∧ unicodePoint cs' = some (p, rest) := by
  cases cs with
  | nil => exact absurd h (by simp [stringPoint])
  | cons c cs =>
    simp only [stringPoint] at h
    split at h
    · next hslash =>
      split at h
      · exact absurd h (by simp)
      · split at h
        · next hu => exact .inr ⟨_, by rw [hslash, hu], h⟩
        · obtain ⟨e, -, heq⟩ := Option.map_eq_some_iff.mp h
          exact .inl ⟨e, (Prod.mk.inj heq).1.symm⟩
    split at h
    · exact absurd h (by simp)
    · exact .inl ⟨c, (Prod.mk.inj (Option.some.inj h)).1.symm⟩

/-- A first half that is read alone is not followed by a second one. -/
theorem not_isLow_after_isHigh {cs rest rest' : List Char} {p q : CodePoint}
    (hp : stringPoint cs = some (p, rest)) (hhigh : p.IsHigh)
    (hq : stringPoint rest = some (q, rest')) : ¬q.IsLow := by
  rcases stringPoint_cases hp with ⟨c, rfl⟩ | ⟨cs', -, hp⟩
  · exact absurd hhigh (CodePoint.not_isHigh_char c)
  rcases unicodePoint_cases hp with ⟨c, rfl⟩ | ⟨n, -, rfl, hnone⟩
  · exact absurd hhigh (CodePoint.not_isHigh_char c)
  have hnone := hnone (CodePoint.isHigh_ofNat hhigh)
  rcases stringPoint_cases hq with ⟨c, rfl⟩ | ⟨cs', rfl, hq⟩
  · exact CodePoint.not_isLow_char c
  rcases unicodePoint_cases hq with ⟨c, rfl⟩ | ⟨m, hhex, rfl, -⟩
  · exact CodePoint.not_isLow_char c
  intro hlow
  rw [lowHalf, hhex, Option.bind_eq_bind, Option.bind_some] at hnone
  dsimp only at hnone
  rw [if_pos (CodePoint.isLow_ofNat hlow)] at hnone
  exact absurd hnone (by simp)

/-- A string that is read is nothing, or a code point and a string that is read. -/
theorem string_cases {n : Nat} {cs rest : List Char} {ps : List CodePoint}
    (h : string (n + 1) cs = some (ps, rest)) :
    ps = [] ∨ ∃ p qs more, stringPoint cs = some (p, more) ∧ string n more = some (qs, rest) ∧
      ps = p :: qs := by
  cases cs with
  | nil => exact absurd h (by simp [string])
  | cons c cs =>
    rw [string] at h
    split at h
    · exact .inl (Prod.mk.inj (Option.some.inj h)).1.symm
    · obtain ⟨⟨p, more⟩, hp, h⟩ := Option.bind_eq_some_iff.mp h
      obtain ⟨⟨qs, rest'⟩, hqs, h⟩ := Option.bind_eq_some_iff.mp h
      obtain ⟨rfl, rfl⟩ := Prod.mk.inj (Option.some.inj h)
      exact .inr ⟨p, qs, more, hp, hqs, rfl⟩

/-- In a literal that has been read, no two neighbours are the halves of a pair: the reader has
joined them. -/
theorem isChain_string {n : Nat} {cs rest : List Char} {ps : List CodePoint}
    (h : string n cs = some (ps, rest)) : ps.IsChain fun p q => ¬(p.IsHigh ∧ q.IsLow) := by
  induction n generalizing cs ps with
  | zero => exact absurd h (by simp [string])
  | succ n ih =>
    rcases string_cases h with rfl | ⟨p, qs, more, hp, hqs, rfl⟩
    · exact .nil
    have htail := ih hqs
    cases qs with
    | nil => exact .singleton p
    | cons q qs =>
      refine .cons_cons ?_ htail
      rintro ⟨hhigh, hlow⟩
      -- the second of the two is read where the first ends
      obtain ⟨m, rfl⟩ : ∃ m, n = m + 1 := by
        cases n with
        | zero => exact absurd hqs (by simp [string])
        | succ m => exact ⟨m, rfl⟩
      rcases string_cases hqs with hnil | ⟨q', qs', more', hq, -, heq⟩
      · exact absurd hnil (by simp)
      · obtain ⟨rfl, rfl⟩ := List.cons.inj heq
        exact not_isLow_after_isHigh hp hhigh hq hlow

/-! ## Reading

The three functions call one another with less fuel, so their facts are proved together, by
induction on the fuel. -/

/-- What is there is what has been decoded. -/
theorem decoded_eq_ok {α : Type} {o : Option α} {a : α} : decoded o = .ok a ↔ o = some a := by
  cases o with
  | none => simp [decoded]
  | some b => simp [decoded]

/-- What is read with `d` arrays and objects allowed to be open. -/
structure Read (d : Nat) (v : Json) : Prop where
  written : Written v
  nesting : v.nesting ≤ d

/-- What is read as the items of an array. -/
structure ReadItems (d : Nat) (vs : List Json) : Prop where
  written : WrittenItems vs
  nesting : nestingItems vs ≤ d

/-- What is read as the fields of an object, before they are set. -/
structure ReadFields (d : Nat) (fs : List (PyStr × Json)) : Prop where
  keys : ∀ k ∈ fs.map Prod.fst, k.Unpaired
  written : WrittenFields fs
  nesting : nestingFields fs ≤ d

theorem ReadItems.cons {d : Nat} {v : Json} {vs : List Json} (hv : Read d v)
    (hvs : ReadItems d vs) : ReadItems d (v :: vs) :=
  ⟨⟨hv.written, hvs.written⟩, Nat.max_le.mpr ⟨hv.nesting, hvs.nesting⟩⟩

theorem ReadFields.cons {d : Nat} {k : PyStr} {v : Json} {fs : List (PyStr × Json)}
    (hk : k.Unpaired) (hv : Read d v) (hfs : ReadFields d fs) : ReadFields d ((k, v) :: fs) :=
  ⟨List.forall_mem_cons.mpr ⟨hk, hfs.keys⟩, ⟨hv.written, hfs.written⟩,
    Nat.max_le.mpr ⟨hv.nesting, hfs.nesting⟩⟩

/-- Opening one more leaves one less to open. -/
theorem enter_eq_ok {d d' : Nat} : enter d = .ok d' ↔ d = d' + 1 := by
  cases d with
  | zero => simp [enter]
  | succ d => simp [enter]

section

variable {n : Nat} (hvalue : ∀ d cs v rest, value n d cs = .ok (v, rest) → Read d v)
include hvalue

/-- One step of an array. -/
theorem read_items_succ
    (hitems : ∀ d cs vs rest, items n d cs = .ok (vs, rest) → ReadItems d vs)
    {d : Nat} {cs rest : List Char} {vs : List Json} (h : items (n + 1) d cs = .ok (vs, rest)) :
    ReadItems d vs := by
  rw [items] at h
  obtain ⟨⟨v, rest₁⟩, hv, h⟩ := bind_eq_ok.mp h
  dsimp only at h
  split at h
  · exact absurd h (by simp)
  split at h
  · rw [← (pair_of_ok h).1]
    exact .cons (hvalue _ _ _ _ hv) ⟨trivial, Nat.zero_le d⟩
  split at h
  · obtain ⟨⟨vs₁, rest₂⟩, hvs, h⟩ := bind_eq_ok.mp h
    rw [← (pair_of_ok h).1]
    exact .cons (hvalue _ _ _ _ hv) (hitems _ _ _ _ hvs)
  · exact absurd h (by simp)

/-- One step of an object. -/
theorem read_fields_succ
    (hfields : ∀ d cs fs rest, fields n d cs = .ok (fs, rest) → ReadFields d fs)
    {d : Nat} {cs rest : List Char} {fs : List (PyStr × Json)}
    (h : fields (n + 1) d cs = .ok (fs, rest)) : ReadFields d fs := by
  cases cs with
  | nil => exact absurd h (by simp [fields])
  | cons c cs =>
    rw [fields] at h
    split at h
    · exact absurd h (by simp)
    -- the key, then the colon, then the value; where one of them is missing nothing is read
    obtain ⟨⟨k, rest₁⟩, hk, h⟩ := bind_eq_ok.mp h
    have hkey := PyStr.unpaired_ofPoints (isChain_string (decoded_eq_ok.mp hk))
    dsimp only at h
    split at h
    · exact absurd h (by simp)
    split at h
    · exact absurd h (by simp)
    obtain ⟨⟨v, rest₂⟩, hv, h⟩ := bind_eq_ok.mp h
    dsimp only at h
    split at h
    · exact absurd h (by simp)
    -- closed here, or more fields
    split at h
    · rw [← (pair_of_ok h).1]
      exact .cons hkey (hvalue _ _ _ _ hv) ⟨by simp, trivial, Nat.zero_le d⟩
    split at h
    · obtain ⟨⟨fs₁, rest₃⟩, hfs, h⟩ := bind_eq_ok.mp h
      rw [← (pair_of_ok h).1]
      exact .cons hkey (hvalue _ _ _ _ hv) (hfields _ _ _ _ hfs)
    · exact absurd h (by simp)

end

/-- One step for each way a value can begin, in the order they are tried. -/
theorem read_value_succ {n : Nat}
    (hitems : ∀ d cs vs rest, items n d cs = .ok (vs, rest) → ReadItems d vs)
    (hfields : ∀ d cs fs rest, fields n d cs = .ok (fs, rest) → ReadFields d fs)
    {d : Nat} {cs rest : List Char} {v : Json} (h : value (n + 1) d cs = .ok (v, rest)) :
    Read d v := by
  cases cs with
  | nil => exact absurd h (by simp [value])
  | cons c cs =>
    rw [value] at h
    split at h
    · obtain ⟨⟨s, rest₁⟩, hs, h⟩ := bind_eq_ok.mp h
      rw [← (pair_of_ok h).1]
      exact ⟨PyStr.unpaired_ofPoints (isChain_string (decoded_eq_ok.mp hs)), Nat.zero_le d⟩
    split at h
    · obtain ⟨d', hd, h⟩ := bind_eq_ok.mp h
      rw [enter_eq_ok.mp hd]
      split at h
      · rw [← (pair_of_ok h).1]
        exact ⟨trivial, Nat.succ_le_succ (Nat.zero_le d')⟩
      · obtain ⟨⟨vs, rest₁⟩, hvs, h⟩ := bind_eq_ok.mp h
        rw [← (pair_of_ok h).1]
        have hread := hitems _ _ _ _ hvs
        exact ⟨hread.written, Nat.succ_le_succ hread.nesting⟩
    split at h
    · obtain ⟨d', hd, h⟩ := bind_eq_ok.mp h
      rw [enter_eq_ok.mp hd]
      split at h
      · rw [← (pair_of_ok h).1]
        exact ⟨written_obj_nil, Nat.succ_le_succ (Nat.zero_le d')⟩
      · -- the fields are set one by one, a repeated key in its first place
        obtain ⟨⟨fs, rest₁⟩, hfs, h⟩ := bind_eq_ok.mp h
        rw [← (pair_of_ok h).1]
        have hread := hfields _ _ _ _ hfs
        exact ⟨written_foldl_setField written_obj_nil hread.keys hread.written,
          Nat.succ_le_succ (nestingFields_foldl_setField (Nat.zero_le d') hread.nesting)⟩
    split at h
    · next r hword =>
      rw [Except.ok.inj h] at hword
      exact ⟨written_word hword, by rw [nesting_word hword]; exact Nat.zero_le d⟩
    split at h
    · exact ⟨written_unsigned (Or.inr rfl) h, by rw [nesting_unsigned h]; exact Nat.zero_le d⟩
    · exact ⟨written_unsigned (Or.inl rfl) h, by rw [nesting_unsigned h]; exact Nat.zero_le d⟩

/-- The three functions together, by induction on the fuel. -/
theorem read_all (n : Nat) :
    (∀ d cs v rest, value n d cs = .ok (v, rest) → Read d v) ∧
    (∀ d cs vs rest, items n d cs = .ok (vs, rest) → ReadItems d vs) ∧
    ∀ d cs fs rest, fields n d cs = .ok (fs, rest) → ReadFields d fs := by
  induction n with
  | zero =>
    refine ⟨?_, ?_, ?_⟩
    · intro d cs v rest h
      exact absurd h (by simp [value])
    · intro d cs vs rest h
      exact absurd h (by simp [items])
    · intro d cs fs rest h
      exact absurd h (by simp [fields])
  | succ n ih =>
    obtain ⟨ihvalue, ihitems, ihfields⟩ := ih
    refine ⟨?_, ?_, ?_⟩
    · intro d cs v rest h
      exact read_value_succ ihitems ihfields h
    · intro d cs vs rest h
      exact read_items_succ ihvalue ihitems h
    · intro d cs fs rest h
      exact read_fields_succ ihvalue ihfields h

theorem read_loads [Nesting] {text : List Char} {v : Json} (h : loads text = .ok v) :
    Read Nesting.limit v := by
  obtain ⟨⟨v', rest⟩, hread, h⟩ := bind_eq_ok.mp h
  dsimp only at h
  split at h
  · rw [← Except.ok.inj h]
    exact (read_all _).1 _ _ _ _ hread
  · exact absurd h (by simp)

/-- **What is read can be written and read back.** -/
theorem loads_written [Nesting] {text : List Char} {v : Json} (h : loads text = .ok v) :
    Written v :=
  (read_loads h).written

/-- A document that has been read is nested within the limit. -/
theorem loads_nesting [Nesting] {text : List Char} {v : Json} (h : loads text = .ok v) :
    v.nesting ≤ Nesting.limit :=
  (read_loads h).nesting

/-- Two values with one text are read from it, with nesting enough for both. -/
theorem dumps_injective {style : JsonStyle} {v w : Json} (hv : Written v) (hw : Written w)
    (h : dumps style v = dumps style w) : v = w := by
  have hread : ∀ u, Written u → u.nesting ≤ max v.nesting w.nesting →
      value (dumps style u).length (max v.nesting w.nesting) (dumps style u) = .ok (u, []) := by
    intro u hu hd
    have h := value_dumps style u 0 _ _ [] hu hd (Nat.le_refl _) numberEnds_nil
    rw [List.append_nil] at h
    exact h
  have hv := hread v hv (Nat.le_max_left _ _)
  rw [h, hread w hw (Nat.le_max_right _ _)] at hv
  exact (pair_of_ok hv).1.symm

/-! ## Sorted keys

The canonical form that two manifests are compared by. Sorting changes neither what can be written
nor the keys. -/

mutual

/-- The value that `dumps` with `sort_keys` writes. -/
def sortKeys : Json → Json
  | arr vs => arr (sortKeysItems vs)
  | obj fs => obj ((sortKeysFields fs).insertionSort fun f g => f.1 ≤ g.1)
  | v => v

def sortKeysItems : List Json → List Json
  | [] => []
  | v :: vs => sortKeys v :: sortKeysItems vs

def sortKeysFields : List (PyStr × Json) → List (PyStr × Json)
  | [] => []
  | (k, v) :: fs => (k, sortKeys v) :: sortKeysFields fs

end

/-- Equal to Python, for which the fields of an object have no order. -/
def Same (v w : Json) : Prop :=
  sortKeys v = sortKeys w

/-- The values of the fields are sorted one by one. -/
theorem sortKeysFields_eq (fs : List (PyStr × Json)) :
    sortKeysFields fs = fs.map fun f => (f.1, sortKeys f.2) := by
  induction fs with
  | nil => rfl
  | cons f fs ih => rw [sortKeysFields, ih, List.map_cons]

theorem map_fst_sortKeysFields (fs : List (PyStr × Json)) :
    (sortKeysFields fs).map Prod.fst = fs.map Prod.fst := by
  rw [sortKeysFields_eq, List.map_map]
  rfl

/-- The order of the fields does not matter. -/
theorem written_obj_perm {fs gs : List (PyStr × Json)} (h : fs.Perm gs)
    (hfs : Written (obj fs)) : Written (obj gs) := by
  have hkeys : WrittenKeys (gs.map Prod.fst) :=
    ⟨((h.map Prod.fst).nodup_iff).mp hfs.1.1, fun k hk => hfs.1.2 k ((h.map Prod.fst).mem_iff.mpr hk)⟩
  refine ⟨hkeys, writtenFields_iff.mpr ?_⟩
  intro g hg
  exact writtenFields_iff.mp hfs.2 g (h.mem_iff.mpr hg)

mutual

/-- A value with sorted keys can be written where the value can. -/
theorem Written.sortKeys : ∀ {v : Json}, Written v → Written (sortKeys v)
  | null, _ => trivial
  | bool _, _ => trivial
  | int _, h => h
  | float _, h => h
  | str _, h => h
  | arr _, h => WrittenItems.sortKeys h
  | obj fs, h => by
    have hfields : Written (obj (sortKeysFields fs)) :=
      ⟨by rw [map_fst_sortKeysFields]; exact h.1, WrittenFields.sortKeys h.2⟩
    exact written_obj_perm (List.perm_insertionSort _ _).symm hfields

theorem WrittenItems.sortKeys : ∀ {vs : List Json}, WrittenItems vs →
    WrittenItems (sortKeysItems vs)
  | [], _ => trivial
  | _ :: _, h => ⟨Written.sortKeys h.1, WrittenItems.sortKeys h.2⟩

theorem WrittenFields.sortKeys : ∀ {fs : List (PyStr × Json)}, WrittenFields fs →
    WrittenFields (sortKeysFields fs)
  | [], _ => trivial
  | (_, _) :: _, h => ⟨Written.sortKeys h.1, WrittenFields.sortKeys h.2⟩

end

/-- Objects with the same keys and values that are the same under each key are the same. -/
theorem same_obj {fs gs : List (PyStr × Json)} (hfs : (fs.map Prod.fst).Nodup)
    (hgs : (gs.map Prod.fst).Nodup) (hkeys : ∀ k ∈ fs.map Prod.fst, k ∈ gs.map Prod.fst)
    (h : ∀ g ∈ gs, ∃ f ∈ fs, f.1 = g.1 ∧ Same f.2 g.2) : Same (obj fs) (obj gs) := by
  have hsub : ∀ g ∈ sortKeysFields gs, g ∈ sortKeysFields fs := by
    rw [sortKeysFields_eq, sortKeysFields_eq]
    intro g hg
    obtain ⟨g', hg', rfl⟩ := List.mem_map.mp hg
    obtain ⟨f, hf, hkey, hsame⟩ := h g' hg'
    exact List.mem_map.mpr ⟨f, hf, Prod.ext hkey hsame⟩
  have hnodup : ∀ es : List (PyStr × Json), (es.map Prod.fst).Nodup → (sortKeysFields es).Nodup := by
    intro es hes
    apply List.Nodup.of_map Prod.fst
    rw [map_fst_sortKeysFields]
    exact hes
  -- no key is missing, so no field of the first is without its counterpart
  have hlen : (sortKeysFields fs).length ≤ (sortKeysFields gs).length := by
    have hle := hfs.length_le_of_subset hkeys
    rwa [← map_fst_sortKeysFields, ← map_fst_sortKeysFields gs, List.length_map,
      List.length_map] at hle
  have hperm : (sortKeysFields gs).Perm (sortKeysFields fs) :=
    ((List.subperm_of_subset (hnodup gs hgs) hsub).perm_of_length_le hlen)
  show obj _ = obj _
  congr 1
  refine @List.Perm.eq_of_pairwise _ (fun f g => f.1 ≤ g.1) _ _ ?_ ?_ ?_ ?_
  · intro f g hf hg hle hge
    have hkey : f.1 = g.1 := le_antisymm hle hge
    have hf' := (List.mem_insertionSort _).mp hf
    have hg' := hperm.mem_iff.mp ((List.mem_insertionSort _).mp hg)
    have hinj : (sortKeysFields fs).map Prod.fst |>.Nodup := by
      rw [map_fst_sortKeysFields]
      exact hfs
    exact List.inj_on_of_nodup_map hinj hf' hg' hkey
  · exact List.pairwise_insertionSort _ _
  · exact List.pairwise_insertionSort _ _
  · exact (List.perm_insertionSort _ _).trans
      (hperm.symm.trans (List.perm_insertionSort _ _).symm)

end Json

end Rave
