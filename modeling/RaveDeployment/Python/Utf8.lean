import RaveDeployment.Lib.Json
import Mathlib.Algebra.GroupWithZero.Nat

/-!
# UTF-8

`str.encode()` and `bytes.decode()` on the characters and the bytes as lists, over the codec of
Lean's `String`. An ASCII byte in a text stands for that character and for nothing else
(`ascii_mem_encode`). A JSON string takes at most six bytes for each of its own (`length_quote_le`),
which bounds the size of a compact JSON text (`length_dumps_le`).
-/

namespace Rave.Py

/-- `text.encode()`. -/
def encodeUtf8 (text : List Char) : List UInt8 :=
  text.flatMap String.utf8EncodeChar

/-- `data.decode()`, or nothing where it raises `UnicodeDecodeError`. -/
def decodeUtf8 (data : List UInt8) : Option (List Char) :=
  data.toByteArray.utf8Decode?.map Array.toList

@[simp] theorem encodeUtf8_nil : encodeUtf8 [] = [] := rfl

@[simp] theorem encodeUtf8_cons (c : Char) (text : List Char) :
    encodeUtf8 (c :: text) = String.utf8EncodeChar c ++ encodeUtf8 text := rfl

@[simp] theorem encodeUtf8_append (a b : List Char) :
    encodeUtf8 (a ++ b) = encodeUtf8 a ++ encodeUtf8 b :=
  List.flatMap_append

theorem decodeUtf8_encodeUtf8 (text : List Char) : decodeUtf8 (encodeUtf8 text) = some text := by
  have hbytes : (encodeUtf8 text).toByteArray = text.utf8Encode := rfl
  rw [decodeUtf8, hbytes, List.utf8Decode?_utf8Encode]
  rfl

/-! ## Lengths

Each character takes one to four bytes. -/

theorem length_encodeUtf8_singleton (c : Char) : (encodeUtf8 [c]).length = c.utf8Size := by
  rw [encodeUtf8_cons, encodeUtf8_nil, List.append_nil, String.length_utf8EncodeChar]

/-- At most four bytes for each character. -/
theorem length_encodeUtf8_le (text : List Char) : (encodeUtf8 text).length ≤ 4 * text.length := by
  induction text with
  | nil => exact Nat.le_refl _
  | cons c text ih =>
    have hc := c.utf8Size_le_four
    rw [encodeUtf8_cons, List.length_append, String.length_utf8EncodeChar, List.length_cons]
    omega

/-- The bytes of a string. -/
theorem length_encodeUtf8_toList (s : String) :
    (encodeUtf8 s.toList).length = s.utf8ByteSize := by
  have hbytes : (encodeUtf8 s.toList).toByteArray = s.toByteArray := String.utf8Encode_toList
  rw [← List.size_toByteArray, hbytes]
  rfl

/-- A text of ASCII characters takes one byte for each. -/
theorem length_encodeUtf8_ascii {text : List Char} (h : ∀ c ∈ text, c.toNat ≤ 0x7f) :
    (encodeUtf8 text).length = text.length := by
  induction text with
  | nil => rfl
  | cons c text ih =>
    have hc : c.utf8Size = 1 := Char.utf8Size_eq_one_iff.mpr (h c (by simp))
    have ht := ih fun d hd => h d (by simp [hd])
    rw [encodeUtf8_cons, List.length_append, String.length_utf8EncodeChar, hc, ht,
      List.length_cons, Nat.add_comm]

/-! ## ASCII bytes

What is below 128 stands for itself, and for nothing else. -/

/-- The bytes of a character beyond ASCII are all beyond ASCII. -/
theorem ascii_mem_utf8EncodeChar {c : Char} {b : UInt8} (hb : b.toNat ≤ 0x7f)
    (h : b ∈ String.utf8EncodeChar c) : c.toNat = b.toNat := by
  have hlead : ∀ n m, 0x80 ≤ n + m → n + m < 256 → b ≠ UInt8.ofNat (n + m) := by
    rintro n m hlow hhigh rfl
    rw [UInt8.toNat_ofNat_of_lt' hhigh] at hb
    omega
  unfold String.utf8EncodeChar at h
  dsimp only at h
  split at h
  · next hc =>
    rw [List.mem_singleton.mp h, UInt8.toNat_ofNat_of_lt' (show _ < 256 by omega)]
    rfl
  split at h
  · simp only [List.mem_cons, List.not_mem_nil, or_false] at h
    rcases h with h | h <;> exact absurd h (hlead _ _ (by omega) (by omega))
  split at h
  · simp only [List.mem_cons, List.not_mem_nil, or_false] at h
    rcases h with h | h | h <;> exact absurd h (hlead _ _ (by omega) (by omega))
  · simp only [List.mem_cons, List.not_mem_nil, or_false] at h
    rcases h with h | h | h | h <;> exact absurd h (hlead _ _ (by omega) (by omega))

/-- **An ASCII byte of a text is one of its characters.** -/
theorem ascii_mem_encode {text : List Char} {b : UInt8} (hb : b.toNat ≤ 0x7f)
    (h : b ∈ encodeUtf8 text) : ∃ c ∈ text, c.toNat = b.toNat := by
  obtain ⟨c, hc, hbc⟩ := List.mem_flatMap.mp h
  exact ⟨c, hc, ascii_mem_utf8EncodeChar hb hbc⟩

/-! ## The size of a JSON text

A bound on the bytes of a document that is written without blanks, by recursion over the document.
-/

/-- An escape takes six characters, or twice six. -/
theorem length_unicodeEscape_le (c : Char) :
    (encodeUtf8 (Json.unicodeEscape c.toNat)).length ≤ 6 * c.utf8Size := by
  have hascii : ∀ d ∈ Json.unicodeEscape c.toNat, d.toNat ≤ 0x7f := fun d hd =>
    Nat.le_trans ((Json.unicodeEscape_printable true _ d hd).2 rfl) (by decide)
  have hpos : 0 < c.utf8Size := c.utf8Size_pos
  rw [length_encodeUtf8_ascii hascii]
  unfold Json.unicodeEscape
  split
  · show 6 ≤ _
    omega
  · next hbig =>
    -- a surrogate pair stands for four bytes
    have hval : (0xffff : UInt32).toNat < c.val.toNat := Nat.not_lt.mp hbig
    have hfour : c.utf8Size = 4 := Char.utf8Size_eq_four_iff.mpr (UInt32.lt_iff_toNat_lt.mpr hval)
    show 12 ≤ _
    omega

/-- A character in a JSON text takes at most six bytes for each of its own. -/
theorem length_escapeChar_le (ascii : Bool) (c : Char) :
    (encodeUtf8 (Json.escapeChar ascii c)).length ≤ 6 * c.utf8Size := by
  have hpos : 0 < c.utf8Size := c.utf8Size_pos
  unfold Json.escapeChar
  -- the seven short escapes take two bytes, and a character takes at least one
  split
  · show 2 ≤ _
    omega
  split
  · show 2 ≤ _
    omega
  split
  · show 2 ≤ _
    omega
  split
  · show 2 ≤ _
    omega
  split
  · show 2 ≤ _
    omega
  split
  · show 2 ≤ _
    omega
  split
  · show 2 ≤ _
    omega
  split
  -- the long one takes six for each half of a pair
  · exact length_unicodeEscape_le c
  · rw [length_encodeUtf8_singleton]
    omega

/-- The bytes of a code point, a surrogate as `surrogatepass` has it. -/
def pointSize : CodePoint → Nat
  | .char c => c.utf8Size
  | .surrogate _ => 3

/-- The bytes of a string, as far as it has any. -/
def strSize : PyStr → Nat
  | .text s => s.utf8ByteSize
  | .surrogates points _ => (points.map pointSize).sum

@[simp] theorem strSize_text (s : String) : strSize (.text s) = s.utf8ByteSize := rfl

theorem sum_pointSize_points (s : PyStr) : (s.points.map pointSize).sum = strSize s := by
  cases s with
  | surrogates points h => rfl
  | text s =>
    have hsum : ∀ cs : List Char, ((cs.map CodePoint.char).map pointSize).sum =
        (encodeUtf8 cs).length := by
      intro cs
      induction cs with
      | nil => rfl
      | cons c cs ih =>
        rw [encodeUtf8_cons, List.length_append, String.length_utf8EncodeChar, ← ih]
        rfl
    show _ = s.utf8ByteSize
    rw [← length_encodeUtf8_toList]
    exact hsum s.toList

/-- A code point in a JSON text. -/
theorem length_escapePoint_le (ascii : Bool) (p : CodePoint) :
    (encodeUtf8 (Json.escapePoint ascii p)).length ≤ 6 * pointSize p := by
  cases p with
  | char c => exact length_escapeChar_le ascii c
  | surrogate n =>
    have hascii : ∀ d ∈ Json.escapePoint true (.surrogate n), d.toNat ≤ 0x7f := fun d hd =>
      Nat.le_trans ((Json.escapePoint_printable true _ d hd).2 rfl) (by decide)
    rw [show Json.escapePoint ascii (.surrogate n) = Json.escapePoint true (.surrogate n) from rfl,
      length_encodeUtf8_ascii hascii]
    show 6 ≤ 18
    decide

/-- **A JSON string takes at most six bytes for each byte of its text**, and its quotes. -/
theorem length_quote_le (ascii : Bool) (s : PyStr) :
    (encodeUtf8 (Json.quote ascii s)).length ≤ 6 * strSize s + 2 := by
  have hbody : ∀ ps : List CodePoint, (encodeUtf8 (ps.flatMap (Json.escapePoint ascii))).length ≤
      6 * (ps.map pointSize).sum := by
    intro ps
    induction ps with
    | nil => simp
    | cons p ps ih =>
      have hp := length_escapePoint_le ascii p
      rw [List.flatMap_cons, encodeUtf8_append, List.length_append, List.map_cons, List.sum_cons]
      omega
  have hs := hbody s.points
  rw [sum_pointSize_points] at hs
  have hquote : (encodeUtf8 ['"']).length = 1 := rfl
  have hsplit : Json.quote ascii s = ['"'] ++ s.points.flatMap (Json.escapePoint ascii) ++ ['"'] :=
    rfl
  rw [hsplit, encodeUtf8_append, encodeUtf8_append, List.length_append, List.length_append, hquote]
  omega

mutual

def weight : Json → Nat
  | .null => 4
  | .bool _ => 5
  | .int n => (Json.dumpsInt n).length
  | .float lexeme => (encodeUtf8 lexeme).length
  | .str s => 6 * strSize s + 2
  | .arr vs => 2 + weightItems vs
  | .obj fs => 2 + weightFields fs

def weightItems : List Json → Nat
  | [] => 0
  | v :: vs => weight v + 1 + weightItems vs

def weightFields : List (PyStr × Json) → Nat
  | [] => 0
  | (k, v) :: fs => 6 * strSize k + 4 + weight v + weightFields fs

end

def Compact (style : JsonStyle) : Prop :=
  style.itemGap = 0 ∧ style.keyGap = 0 ∧ style.indent = none

section

variable {style : JsonStyle} (hstyle : Compact style)
include hstyle

theorem newline_compact (depth : Nat) : Json.newline style depth = [] := by
  rw [Json.newline, hstyle.2.2]

theorem itemSeparator_compact (depth : Nat) : Json.itemSeparator style depth = [','] := by
  rw [Json.itemSeparator, newline_compact hstyle, hstyle.1]
  rfl

theorem keySeparator_compact : Json.keySeparator style = [':'] := by
  rw [Json.keySeparator, hstyle.2.1]
  rfl

omit hstyle in
theorem length_encodeUtf8_dumpsInt (n : Int) :
    (encodeUtf8 (Json.dumpsInt n)).length = (Json.dumpsInt n).length :=
  length_encodeUtf8_ascii fun c hc =>
    Nat.le_trans ((Json.dumpsInt_printable true n c hc).2 rfl) (by decide)

mutual

/-- A document takes no more bytes than its weight. -/
theorem length_dumpsAt_le : ∀ (v : Json) (depth : Nat),
    (encodeUtf8 (Json.dumpsAt style depth v)).length ≤ weight v
  | .null, _ => by simp only [Json.dumpsAt, weight]; decide
  | .bool true, _ => by simp only [Json.dumpsAt, weight]; decide
  | .bool false, _ => by simp only [Json.dumpsAt, weight]; decide
  | .int n, _ => Nat.le_of_eq (length_encodeUtf8_dumpsInt n)
  | .float _, _ => Nat.le_refl _
  | .str s, _ => length_quote_le style.ascii s
  | .arr [], _ => by simp only [Json.dumpsAt, weight, weightItems]; decide
  | .arr (v :: vs), depth => by
    have hv := length_dumpsAt_le v (depth + 1)
    have hvs := length_dumpsItems_le vs (depth + 1)
    -- in the compact style nothing stands between the brackets and the items
    have htext : Json.dumpsAt style depth (.arr (v :: vs)) = ['['] ++
        Json.dumpsAt style (depth + 1) v ++ Json.dumpsItems style (depth + 1) vs ++ [']'] := by
      simp [Json.dumpsAt, newline_compact hstyle]
    have hopen : (encodeUtf8 ['[']).length = 1 := rfl
    have hclose : (encodeUtf8 [']']).length = 1 := rfl
    simp only [htext, encodeUtf8_append, List.length_append, hopen, hclose, weight, weightItems]
    omega
  | .obj [], _ => by simp only [Json.dumpsAt, weight, weightFields]; decide
  | .obj ((k, v) :: fs), depth => by
    have hk := length_quote_le style.ascii k
    have hv := length_dumpsAt_le v (depth + 1)
    have hfs := length_dumpsFields_le fs (depth + 1)
    have htext : Json.dumpsAt style depth (.obj ((k, v) :: fs)) = ['{'] ++
        Json.quote style.ascii k ++ [':'] ++ Json.dumpsAt style (depth + 1) v ++
        Json.dumpsFields style (depth + 1) fs ++ ['}'] := by
      simp [Json.dumpsAt, newline_compact hstyle, keySeparator_compact hstyle]
    have hopen : (encodeUtf8 ['{']).length = 1 := rfl
    have hcolon : (encodeUtf8 [':']).length = 1 := rfl
    have hclose : (encodeUtf8 ['}']).length = 1 := rfl
    simp only [htext, encodeUtf8_append, List.length_append, hopen, hcolon, hclose, weight,
      weightFields]
    omega

theorem length_dumpsItems_le : ∀ (vs : List Json) (depth : Nat),
    (encodeUtf8 (Json.dumpsItems style depth vs)).length ≤ weightItems vs
  | [], _ => by simp [Json.dumpsItems, weightItems]
  | v :: vs, depth => by
    have hv := length_dumpsAt_le v depth
    have hvs := length_dumpsItems_le vs depth
    have hcomma : (encodeUtf8 [',']).length = 1 := rfl
    simp only [Json.dumpsItems, itemSeparator_compact hstyle, encodeUtf8_append, List.length_append,
      hcomma, weightItems]
    omega

theorem length_dumpsFields_le : ∀ (fs : List (PyStr × Json)) (depth : Nat),
    (encodeUtf8 (Json.dumpsFields style depth fs)).length ≤ weightFields fs
  | [], _ => by simp [Json.dumpsFields, weightFields]
  | (k, v) :: fs, depth => by
    have hk := length_quote_le style.ascii k
    have hv := length_dumpsAt_le v depth
    have hfs := length_dumpsFields_le fs depth
    have hcomma : (encodeUtf8 [',']).length = 1 := rfl
    have hcolon : (encodeUtf8 [':']).length = 1 := rfl
    simp only [Json.dumpsFields, itemSeparator_compact hstyle, keySeparator_compact hstyle,
      encodeUtf8_append, List.length_append, hcomma, hcolon, weightFields]
    omega

end

/-- **A compact text is no longer than its weight.** -/
theorem length_dumps_le (v : Json) : (encodeUtf8 (Json.dumps style v)).length ≤ weight v :=
  length_dumpsAt_le hstyle v 0

end

end Rave.Py
