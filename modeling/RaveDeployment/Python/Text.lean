import Mathlib.Data.List.DropRight
import Mathlib.Data.List.Sort
import Mathlib.Tactic.Common

/-!
# Python text operations

The `str` methods the program calls, on `List Char` where they are computed and on `String`
where they are called. The finite tables (line boundaries, white space) are spelled out. The
operations that read the whole Unicode database (`upper`, `lower`, `casefold`, the value of a
decimal digit) are the class `PyUnicode`, so that every result holds for any such database;
`asciiUnicode` is its ASCII part.
-/

namespace Rave

/-- The operations of `str` and `int` that consult the Unicode database. -/
class PyUnicode where
  upper : String → String
  lower : String → String
  casefold : String → String
  /-- The value of a character of category `Nd`, as `int` reads it. -/
  decimal : Char → Option Nat

@[reducible] def asciiUnicode : PyUnicode where
  upper s := s.map Char.toUpper
  lower s := s.map Char.toLower
  casefold s := s.map Char.toLower
  decimal c := if c.isDigit then some (c.toNat - '0'.toNat) else none

namespace Py

/-- The characters of a literal, which the kernel reads off it faster than it computes them. -/
theorem toList_of_eq {s : String} {l : List Char} (h : s = String.ofList l) : s.toList = l := by
  rw [h, String.toList_ofList]

/-! ## Lines

`str.splitlines` and the line ends of text mode. -/

/-- The line boundaries of `str.splitlines`. -/
def isLineBreak (c : Char) : Bool :=
  [0x0a, 0x0b, 0x0c, 0x0d, 0x1c, 0x1d, 0x1e, 0x85, 0x2028, 0x2029].contains c.toNat

def consLine (c : Char) : List (List Char) → List (List Char)
  | [] => [[c]]
  | l :: ls => (c :: l) :: ls

/-- `str.splitlines()`: `\r\n` is one boundary, and a final boundary opens no empty line. -/
def splitLines : List Char → List (List Char)
  | [] => []
  | '\r' :: '\n' :: cs => [] :: splitLines cs
  | c :: cs => if isLineBreak c then [] :: splitLines cs else consLine c (splitLines cs)

/-- `str.splitlines`. -/
def splitlines (s : String) : List String :=
  (splitLines s.toList).map String.ofList

/-- A character that ends no line belongs to the first one. -/
theorem splitLines_cons {c : Char} (hc : isLineBreak c = false) (cs : List Char) :
    splitLines (c :: cs) = consLine c (splitLines cs) := by
  rw [splitLines]
  · simp [hc]
  · rintro cs' rfl rfl
    exact absurd hc (by decide)

/-- A line without boundaries, ended by a newline, is the first line. -/
theorem splitLines_append_newline (l rest : List Char)
    (hl : ∀ c ∈ l, isLineBreak c = false) :
    splitLines (l ++ '\n' :: rest) = l :: splitLines rest := by
  induction l with
  | nil =>
    rw [List.nil_append, splitLines]
    · simp [isLineBreak]
    · rintro cs h _
      exact absurd h (by decide)
  | cons c l ih =>
    rw [List.cons_append, splitLines_cons (hl c (by simp)),
      ih fun d hd => hl d (List.mem_cons_of_mem c hd)]
    rfl

/-- Lines without boundaries, each ended by a newline, are read back. -/
theorem splitLines_flatMap (ls : List (List Char)) (h : ∀ l ∈ ls, ∀ c ∈ l, isLineBreak c = false) :
    splitLines (ls.flatMap fun l => l ++ ['\n']) = ls := by
  induction ls with
  | nil => rfl
  | cons l ls ih =>
    rw [List.flatMap_cons, List.append_assoc, List.singleton_append,
      splitLines_append_newline l _ (h l (by simp)), ih fun l' hl' => h l' (by simp [hl'])]

/-- The lines of a text have no line boundaries. -/
theorem isLineBreak_of_mem_splitLines (text : List Char) :
    ∀ l ∈ splitLines text, ∀ c ∈ l, isLineBreak c = false := by
  have hcons : ∀ {c : Char} {ls : List (List Char)}, isLineBreak c = false →
      (∀ l ∈ ls, ∀ d ∈ l, isLineBreak d = false) →
      ∀ l ∈ consLine c ls, ∀ d ∈ l, isLineBreak d = false := by
    intro c ls hc hls l hl d hd
    cases ls with
    | nil =>
      rw [List.mem_singleton.mp hl] at hd
      rw [List.mem_singleton.mp hd]
      exact hc
    | cons first ls =>
      rcases List.mem_cons.mp hl with heq | hl
      · rw [heq] at hd
        rcases List.mem_cons.mp hd with heq | hd
        · rw [heq]
          exact hc
        · exact hls first (by simp) d hd
      · exact hls l (by simp [hl]) d hd
  fun_induction splitLines text with
  | case1 => simp
  -- two cases for the line boundaries, of two characters and of one, each of which ends a line
  | case2 cs ih =>
    intro l hl
    rcases List.mem_cons.mp hl with heq | hl
    · rw [heq]
      simp
    · exact ih l hl
  | case3 c cs _ hbreak ih =>
    intro l hl
    rcases List.mem_cons.mp hl with heq | hl
    · rw [heq]
      simp
    · exact ih l hl
  | case4 c cs _ hbreak ih => exact hcons (by simpa using hbreak) ih

/-- A text without boundaries is one line. -/
theorem splitLines_of_unbroken {l : List Char} (hne : l ≠ [])
    (hl : ∀ c ∈ l, isLineBreak c = false) : splitLines l = [l] := by
  induction l with
  | nil => exact absurd rfl hne
  | cons c cs ih =>
    rw [splitLines_cons (hl c (by simp))]
    cases cs with
    | nil => rfl
    | cons d ds =>
      rw [ih (List.cons_ne_nil d ds) fun e he => hl e (List.mem_cons_of_mem c he)]
      rfl

/-- The newline translation of `Path.read_text`. -/
def universalNewlines : List Char → List Char
  | [] => []
  | '\r' :: '\n' :: cs => '\n' :: universalNewlines cs
  | '\r' :: cs => '\n' :: universalNewlines cs
  | c :: cs => c :: universalNewlines cs

/-- Without carriage returns nothing is translated. -/
theorem universalNewlines_of_not_mem {l : List Char} (h : '\r' ∉ l) : universalNewlines l = l := by
  induction l with
  | nil => rfl
  | cons c cs ih =>
    rw [List.mem_cons, not_or] at h
    rw [universalNewlines, ih h.2]
    · exact fun cs' hc _ => h.1 hc.symm
    · exact fun hc => h.1 hc.symm

/-! ## White space

`str.strip` and its two halves, `str.split`. -/

/-- The characters `str.strip()` and `int` drop at both ends. -/
def isSpace (c : Char) : Bool :=
  [0x09, 0x0a, 0x0b, 0x0c, 0x0d, 0x1c, 0x1d, 0x1e, 0x1f, 0x20, 0x85, 0xa0, 0x1680, 0x2000,
    0x2001, 0x2002, 0x2003, 0x2004, 0x2005, 0x2006, 0x2007, 0x2008, 0x2009, 0x200a, 0x2028,
    0x2029, 0x202f, 0x205f, 0x3000].contains c.toNat

/-- Drop the characters satisfying `p` at both ends. -/
def stripChars (p : Char → Bool) (l : List Char) : List Char :=
  ((l.dropWhile p).reverse.dropWhile p).reverse

/-- `str.lstrip()`. -/
def lstrip (l : List Char) : List Char :=
  l.dropWhile isSpace

/-- `str.rstrip()`. -/
def rstrip (l : List Char) : List Char :=
  (l.reverse.dropWhile isSpace).reverse

theorem stripChars_isSpace (l : List Char) : stripChars isSpace l = rstrip (lstrip l) := rfl

/-- What does not begin with a blank is not stripped. -/
theorem lstrip_cons_of_not_isSpace {c : Char} (h : isSpace c = false) (l : List Char) :
    lstrip (c :: l) = c :: l := by
  simp [lstrip, h]

/-- What follows a character that is no white space stays as it is. -/
theorem lstrip_append_cons (l : List Char) {c : Char} (h : isSpace c = false) (rest : List Char) :
    lstrip (l ++ c :: rest) = lstrip l ++ c :: rest := by
  induction l with
  | nil => simp [lstrip, h]
  | cons d l ih =>
    simp only [lstrip, List.cons_append, List.dropWhile_cons] at ih ⊢
    split
    · exact ih
    · rfl

/-- `rstrip` reads no further than the last character that is no white space. -/
theorem rstrip_append_cons (l : List Char) {c : Char} (h : isSpace c = false) (rest : List Char) :
    rstrip (l ++ c :: rest) = l ++ c :: rstrip rest := by
  have hdrop : (rest.reverse ++ c :: l.reverse).dropWhile isSpace
      = rest.reverse.dropWhile isSpace ++ c :: l.reverse := by
    rw [List.dropWhile_append]
    split
    · next hempty =>
      rw [List.isEmpty_iff.mp hempty, List.dropWhile_cons_of_neg (by simp [h]), List.nil_append]
    · rfl
  simp [rstrip, hdrop]

/-- White space at the end is dropped. -/
theorem rstrip_append_space (l : List Char) {c : Char} (h : isSpace c = true) :
    rstrip (l ++ [c]) = rstrip l := by
  simp [rstrip, h]

/-- A blank at the end is stripped. -/
theorem stripChars_append_space (l : List Char) {c : Char} (h : isSpace c = true) :
    stripChars isSpace (l ++ [c]) = stripChars isSpace l := by
  rw [stripChars_isSpace, stripChars_isSpace, lstrip, lstrip, List.dropWhile_append]
  split
  · next hempty =>
    rw [List.isEmpty_iff.mp hempty, List.dropWhile_cons_of_pos h]
    rfl
  · exact rstrip_append_space _ h

/-- What is stripped is stripped. -/
theorem stripChars_idem (l : List Char) :
    stripChars isSpace (stripChars isSpace l) = stripChars isSpace l := by
  rw [stripChars_isSpace l]
  cases hl : lstrip l with
  | nil => rfl
  | cons c rest =>
    have hc : isSpace c = false := by
      have hhead := List.head?_dropWhile_not isSpace l
      rw [← lstrip, hl] at hhead
      simpa using hhead
    have hkept : rstrip (c :: rest) = c :: rstrip rest := rstrip_append_cons [] hc rest
    have hrstrip : rstrip (rstrip rest) = rstrip rest := by
      simp only [rstrip, List.reverse_reverse]
      rw [List.dropWhile_idempotent]
    rw [hkept, stripChars_isSpace, lstrip_cons_of_not_isSpace hc]
    have hagain : rstrip (c :: rstrip rest) = c :: rstrip (rstrip rest) :=
      rstrip_append_cons [] hc (rstrip rest)
    rw [hagain, hrstrip]

theorem length_rstrip_le (l : List Char) : (rstrip l).length ≤ l.length := by
  have h := (List.dropWhile_suffix (l := l.reverse) isSpace).length_le
  simpa [rstrip] using h

/-- `str.strip()`. -/
def strip (s : String) : String :=
  String.ofList (stripChars isSpace s.toList)

/-- The loop of `str.split()`: the word under construction. -/
def splitWords (current : List Char) : List Char → List (List Char)
  | [] => if current = [] then [] else [current]
  | c :: cs =>
    if isSpace c then
      if current = [] then splitWords [] cs else current :: splitWords [] cs
    else splitWords (current ++ [c]) cs

/-- The loop of `str.split(maxsplit=n)`: the last part keeps the white space at its end. -/
def splitMax : Nat → List Char → List (List Char)
  | 0, l => if lstrip l = [] then [] else [lstrip l]
  | n + 1, l =>
    if lstrip l = [] then []
    else
      (lstrip l).takeWhile (fun c => !isSpace c) ::
        splitMax n ((lstrip l).dropWhile fun c => !isSpace c)

/-- A word in front of white space is split off. -/
theorem splitMax_word (n : Nat) {word rest : List Char} (hne : word ≠ [])
    (hword : ∀ c ∈ word, isSpace c = false) :
    splitMax (n + 1) (word ++ ' ' :: rest) = word :: splitMax n (' ' :: rest) := by
  cases word with
  | nil => exact absurd rfl hne
  | cons c cs =>
    have hlstrip : lstrip (c :: cs ++ ' ' :: rest) = c :: cs ++ ' ' :: rest :=
      lstrip_cons_of_not_isSpace (hword c (by simp)) _
    have hplain : ∀ d ∈ c :: cs, (!isSpace d) = true := by
      intro d hd
      rw [hword d hd]
      rfl
    rw [splitMax, hlstrip, if_neg (by simp), List.takeWhile_append_of_pos hplain,
      List.dropWhile_append_of_pos hplain]
    rw [List.takeWhile_cons_of_neg (by decide), List.dropWhile_cons_of_neg (by decide),
      List.append_nil]

/-- Blanks before the first word do not count. -/
theorem splitMax_lstrip (n : Nat) (l : List Char) : splitMax n (' ' :: l) = splitMax n l := by
  have hspace : lstrip (' ' :: l) = lstrip l := List.dropWhile_cons_of_pos (by decide)
  cases n with
  | zero => rw [splitMax, splitMax, hspace]
  | succ n => rw [splitMax, splitMax, hspace]

/-- Every part is a part of the text, and begins with no white space. -/
theorem splitMax_parts (n : Nat) (l : List Char) :
    ∀ part ∈ splitMax n l, part <:+: l ∧ ∀ c ∈ part.head?, isSpace c = false := by
  have hhead : ∀ l : List Char, ∀ c ∈ (lstrip l).head?, isSpace c = false := by
    intro l c hc
    have hdrop := List.head?_dropWhile_not isSpace l
    rw [← lstrip, Option.mem_def.mp hc] at hdrop
    simpa using hdrop
  have hsuffix : ∀ l : List Char, lstrip l <:+ l := fun l => List.dropWhile_suffix isSpace
  induction n generalizing l with
  | zero =>
    intro part hpart
    rw [splitMax] at hpart
    split at hpart
    · exact absurd hpart (by simp)
    · rw [List.mem_singleton.mp hpart]
      exact ⟨(hsuffix l).isInfix, hhead l⟩
  | succ n ih =>
    intro part hpart
    rw [splitMax] at hpart
    split at hpart
    · exact absurd hpart (by simp)
    · rcases List.mem_cons.mp hpart with heq | hrest
      · rw [heq]
        refine ⟨(List.takeWhile_prefix _).isInfix.trans (hsuffix l).isInfix, ?_⟩
        intro c hc
        cases hl : lstrip l with
        | nil =>
          rw [hl] at hc
          exact absurd hc (by simp)
        | cons d ds =>
          -- a field begins where the blanks before it end
          have hd : isSpace d = false := hhead l d (by rw [hl]; rfl)
          rw [hl, List.takeWhile_cons_of_pos (by simp [hd])] at hc
          rw [← Option.some.inj hc]
          exact hd
      · obtain ⟨hwithin, hfirst⟩ := ih _ part hrest
        have htail : (lstrip l).dropWhile (fun c => !isSpace c) <:+ lstrip l :=
          List.dropWhile_suffix _
        exact ⟨hwithin.trans (htail.isInfix.trans (hsuffix l).isInfix), hfirst⟩

/-- What is left after `n` splits ends the text. -/
theorem splitMax_last {n : Nat} {l part : List Char} (h : (splitMax n l)[n]? = some part) :
    part <:+ l := by
  have hsuffix : ∀ l : List Char, lstrip l <:+ l := fun l => List.dropWhile_suffix isSpace
  induction n generalizing l with
  | zero =>
    rw [splitMax] at h
    split at h
    · exact absurd h (by simp)
    · rw [← Option.some.inj h]
      exact hsuffix l
  | succ n ih =>
    rw [splitMax] at h
    split at h
    · exact absurd h (by simp)
    · have hrest : part <:+ (lstrip l).dropWhile fun c => !isSpace c := ih h
      exact hrest.trans ((List.dropWhile_suffix _).trans (hsuffix l))

/-- `" ".join(s.split())`. -/
def squeeze (l : List Char) : List Char :=
  List.intercalate [' '] (splitWords [] l)

/-- What has no such character at its ends is not stripped. -/
theorem stripChars_of_ends {p : Char → Bool} {l : List Char}
    (hh : ∀ c ∈ l.head?, p c = false) (ht : ∀ c ∈ l.getLast?, p c = false) :
    stripChars p l = l := by
  cases l with
  | nil => rfl
  | cons c cs =>
    have h1 : (c :: cs).dropWhile p = c :: cs := by
      simp [hh c (by simp)]
    have h2 : (c :: cs).reverse.dropWhile p = (c :: cs).reverse := by
      obtain ⟨d, hd⟩ : ∃ d, (c :: cs).getLast? = some d := by
        simp [List.getLast?_eq_some_getLast (List.cons_ne_nil c cs)]
      have hrev : (c :: cs).reverse = d :: (c :: cs).dropLast.reverse := by
        conv_lhs => rw [← List.dropLast_append_getLast? d hd]
        simp
      rw [hrev, List.dropWhile_cons, ht d hd]
      rfl
    rw [stripChars, h1, h2, List.reverse_reverse]

/-! ## Searching

`str.partition` and `str.replace`. -/

/-- `str.partition(sep)` at a one-character separator: what precedes the first one, whether
there is one, what follows it. -/
def partitionAt (sep : Char) : List Char → List Char × Bool × List Char
  | [] => ([], false, [])
  | c :: cs =>
    if c = sep then ([], true, cs)
    else
      let (before, found, after) := partitionAt sep cs
      (c :: before, found, after)

/-- A text is cut at the first separator. -/
theorem partitionAt_append (sep : Char) (l rest : List Char) (h : sep ∉ l) :
    partitionAt sep (l ++ sep :: rest) = (l, true, rest) := by
  induction l with
  | nil => simp [partitionAt]
  | cons c cs ih =>
    rw [List.mem_cons, not_or] at h
    rw [List.cons_append, partitionAt, if_neg (Ne.symm h.1), ih h.2]

/-- `sub in s`. -/
def containsChars (sub l : List Char) : Bool :=
  l.tails.any fun t => sub.isPrefixOf t

/-- `sub in s`. -/
def contains (sub s : String) : Bool :=
  containsChars sub.toList s.toList

/-- `str.replace(sub, "")`: drop the occurrences of `sub`, from the left. The number counts
the characters of the occurrence still to drop. -/
def removeAll (sub : List Char) : Nat → List Char → List Char
  | _, [] => []
  | n + 1, _ :: cs => removeAll sub n cs
  | 0, c :: cs =>
    if sub.isPrefixOf (c :: cs) then removeAll sub (sub.length - 1) cs
    else c :: removeAll sub 0 cs

/-- Where the first character does not occur, nothing is removed. -/
theorem removeAll_of_not_mem {d : Char} {sub l : List Char} (h : d ∉ l) :
    removeAll (d :: sub) 0 l = l := by
  induction l with
  | nil => rfl
  | cons c cs ih =>
    rw [List.mem_cons, not_or] at h
    have hp : (d :: sub).isPrefixOf (c :: cs) = false := by
      simp [List.isPrefixOf, h.1]
    rw [removeAll, hp, ih h.2]
    rfl

/-- `a or b` on an optional string: the empty string counts as absent. -/
def orElse (a : Option String) (b : String) : String :=
  match a with
  | some s => if s = "" then b else s
  | none => b

/-! ## Numbers

`int` of a text. -/

/-- The digits of an `int` literal, with single underscores between them. -/
def intDigits [PyUnicode] : List Char → Option (List Nat)
  | [] => some []
  | '_' :: c :: cs => do
    let d ← PyUnicode.decimal c
    let ds ← intDigits cs
    return d :: ds
  | c :: cs => do
    let d ← PyUnicode.decimal c
    let ds ← intDigits cs
    return d :: ds

/-- The limit of the interpreter on the digits of a decimal literal. -/
def maxIntDigits : Nat := 4300

/-- `int(s)`, or nothing where it raises `ValueError`. -/
def int? [PyUnicode] (s : String) : Option Int := do
  let (negative, body) := match stripChars isSpace s.toList with
    | '-' :: cs => (true, cs)
    | '+' :: cs => (false, cs)
    | cs => (false, cs)
  if body.head? = some '_' ∨ body = [] then none
  let digits ← intDigits body
  if digits.length > maxIntDigits then none
  let value : Int := digits.foldl (fun n d => 10 * n + d) 0
  return if negative then -value else value

/-- The characters that `str.isdigit` admits beyond the decimal ones: superscripts, circled digits
and the like. -/
def otherDigits : List (Nat × Nat) :=
  [(0xb2, 0xb3), (0xb9, 0xb9), (0x1369, 0x1371), (0x19da, 0x19da), (0x2070, 0x2070),
    (0x2074, 0x2079), (0x2080, 0x2089), (0x2460, 0x2468), (0x2474, 0x247c), (0x2488, 0x2490),
    (0x24ea, 0x24ea), (0x24f5, 0x24fd), (0x24ff, 0x24ff), (0x2776, 0x277e), (0x2780, 0x2788),
    (0x278a, 0x2792), (0x10a40, 0x10a43), (0x10e60, 0x10e68), (0x11052, 0x1105a),
    (0x1f100, 0x1f10a)]

/-- `s.isdigit()`. -/
def isdigit [PyUnicode] (s : String) : Bool :=
  s ≠ "" && s.toList.all fun c => (PyUnicode.decimal c).isSome ||
    otherDigits.any fun (first, last) => first ≤ c.toNat && c.toNat ≤ last

end Py

end Rave
