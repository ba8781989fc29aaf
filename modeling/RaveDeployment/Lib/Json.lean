import RaveDeployment.Lib.Checks
import RaveDeployment.Python.Str
import Mathlib.Tactic.Common

/-!
# JSON as Python's `json` reads and writes it

`Json.dumps` for every combination of `ensure_ascii`, separators and `indent`, and `Json.loads`.
Text is `List Char`. An object is a list of fields in insertion order. The strings of a value are
Python's: an escape may leave half of a surrogate pair in one.

Reading fails in three ways, which the callers tell apart (`LoadError`): the text is no JSON, an
integer has more digits than the interpreter converts, or arrays and objects are open within one
another beyond the recursion limit (`Nesting`).

`loads_dumps`: what is written is read back, for every value without floats whose objects have
distinct keys, whose strings are texts and whose integers and nesting stay within the interpreter's
limits. `dumps_printable`: without indentation the text has no control character, and under
`ensure_ascii` it is ASCII.
-/

namespace Rave

inductive Json where
  | null
  | bool (b : Bool)
  | int (n : Int)
  /-- A number with a fraction or an exponent, or one of `NaN` and `Infinity`, as it is written. -/
  | float (lexeme : List Char)
  | str (s : PyStr)
  | arr (items : List Json)
  | obj (fields : List (PyStr × Json))

/-- How `dumps` lays a value out. -/
structure JsonStyle where
  /-- `ensure_ascii`. -/
  ascii : Bool
  /-- The blanks after the comma of the item separator. -/
  itemGap : Nat
  /-- The blanks after the colon of the key separator. -/
  keyGap : Nat
  indent : Option Nat

namespace Json

/-! ## Writing

The text of a value, from its depth on. With an indentation every item and every field stands on a
line of its own, which begins with blanks for the depth. -/

def hexDigits (n : Nat) : List Char :=
  [(n / 4096).digitChar, (n / 256 % 16).digitChar, (n / 16 % 16).digitChar, (n % 16).digitChar]

/-- A character beyond the basic plane is written as a surrogate pair. -/
def unicodeEscape (n : Nat) : List Char :=
  if n < 0x10000 then '\\' :: 'u' :: hexDigits n
  else '\\' :: 'u' :: hexDigits (0xd800 + (n - 0x10000) / 1024) ++
    '\\' :: 'u' :: hexDigits (0xdc00 + (n - 0x10000) % 1024)

def escapeChar (ascii : Bool) (c : Char) : List Char :=
  if c = '"' then ['\\', '"']
  else if c = '\\' then ['\\', '\\']
  else if c = '\n' then ['\\', 'n']
  else if c = '\r' then ['\\', 'r']
  else if c = '\t' then ['\\', 't']
  else if c = '\x08' then ['\\', 'b']
  else if c = '\x0c' then ['\\', 'f']
  else if c.toNat < 0x20 ∨ (ascii ∧ 0x7e < c.toNat) then unicodeEscape c.toNat
  else [c]

/-- A code point. A surrogate is written as its escape; without `ensure_ascii` Python leaves it as it
is, and no caller here writes one so. -/
def escapePoint (ascii : Bool) : CodePoint → List Char
  | .char c => escapeChar ascii c
  | .surrogate n => '\\' :: 'u' :: hexDigits (0xd800 + n)

def quote (ascii : Bool) (s : PyStr) : List Char :=
  '"' :: s.points.flatMap (escapePoint ascii) ++ ['"']

def dumpsInt (n : Int) : List Char :=
  if n < 0 then '-' :: Nat.toDigits 10 n.natAbs else Nat.toDigits 10 n.natAbs

def newline (style : JsonStyle) (depth : Nat) : List Char :=
  match style.indent with
  | none => []
  | some n => '\n' :: List.replicate (n * depth) ' '

def itemSeparator (style : JsonStyle) (depth : Nat) : List Char :=
  ',' :: List.replicate style.itemGap ' ' ++ newline style depth

def keySeparator (style : JsonStyle) : List Char :=
  ':' :: List.replicate style.keyGap ' '

mutual

def dumpsAt (style : JsonStyle) (depth : Nat) : Json → List Char
  | null => ['n', 'u', 'l', 'l']
  | bool true => ['t', 'r', 'u', 'e']
  | bool false => ['f', 'a', 'l', 's', 'e']
  | int n => dumpsInt n
  | float lexeme => lexeme
  | str s => quote style.ascii s
  | arr [] => ['[', ']']
  | arr (v :: vs) =>
    '[' :: newline style (depth + 1) ++ dumpsAt style (depth + 1) v ++
      dumpsItems style (depth + 1) vs ++ newline style depth ++ [']']
  | obj [] => ['{', '}']
  | obj ((k, v) :: fs) =>
    '{' :: newline style (depth + 1) ++ quote style.ascii k ++ keySeparator style ++
      dumpsAt style (depth + 1) v ++ dumpsFields style (depth + 1) fs ++ newline style depth ++ ['}']

def dumpsItems (style : JsonStyle) (depth : Nat) : List Json → List Char
  | [] => []
  | v :: vs => itemSeparator style depth ++ dumpsAt style depth v ++ dumpsItems style depth vs

def dumpsFields (style : JsonStyle) (depth : Nat) : List (PyStr × Json) → List Char
  | [] => []
  | (k, v) :: fs =>
    itemSeparator style depth ++ quote style.ascii k ++ keySeparator style ++
      dumpsAt style depth v ++ dumpsFields style depth fs

end

/-- `json.dumps`. -/
def dumps (style : JsonStyle) (v : Json) : List Char :=
  dumpsAt style 0 v

/-! ## Reading

A function for each production. It takes the text from its first character on and returns what it
has read with the rest, so that the parts are put together as they stand. -/

def isBlank (c : Char) : Bool :=
  c = ' ' || c = '\t' || c = '\n' || c = '\r'

def skipBlank (cs : List Char) : List Char :=
  cs.dropWhile isBlank

def hexDigit? (c : Char) : Option Nat :=
  if '0' ≤ c ∧ c ≤ '9' then some (c.toNat - '0'.toNat)
  else if 'a' ≤ c ∧ c ≤ 'f' then some (c.toNat - 'a'.toNat + 10)
  else if 'A' ≤ c ∧ c ≤ 'F' then some (c.toNat - 'A'.toNat + 10)
  else none

/-- The value of four hexadecimal digits, and what follows them. -/
def hex4 : List Char → Option (Nat × List Char)
  | a :: b :: c :: d :: cs => do
    let a ← hexDigit? a
    let b ← hexDigit? b
    let c ← hexDigit? c
    let d ← hexDigit? d
    return (((a * 16 + b) * 16 + c) * 16 + d, cs)
  | _ => none

def shortEscape (c : Char) : Option Char :=
  if c = '"' then some '"'
  else if c = '\\' then some '\\'
  else if c = '/' then some '/'
  else if c = 'b' then some '\x08'
  else if c = 'f' then some '\x0c'
  else if c = 'n' then some '\n'
  else if c = 'r' then some '\r'
  else if c = 't' then some '\t'
  else none

/-- The escape of the second half of a surrogate pair. -/
def lowHalf : List Char → Option (Nat × List Char)
  | '\\' :: 'u' :: cs => do
    let (m, rest) ← hex4 cs
    if 0xdc00 ≤ m ∧ m < 0xe000 then some (m, rest) else none
  | _ => none

/-- What follows `\u`. The two halves of a pair are one character. A half without the other stays as
it is, and the escape after it is read on its own. -/
def unicodePoint (cs : List Char) : Option (CodePoint × List Char) := do
  let (n, rest) ← hex4 cs
  if 0xd800 ≤ n ∧ n < 0xdc00 then
    match lowHalf rest with
    | some (m, rest) =>
      some (.char (Char.ofNat (0x10000 + (n - 0xd800) * 1024 + (m - 0xdc00))), rest)
    | none => some (.ofNat n, rest)
  else some (.ofNat n, rest)

/-- One code point of a string literal, escaped or not. Control characters are refused. -/
def stringPoint : List Char → Option (CodePoint × List Char)
  | [] => none
  | c :: cs =>
    if c = '\\' then
      match cs with
      | [] => none
      | e :: rest =>
        if e = 'u' then unicodePoint rest else (shortEscape e).map fun c => (.char c, rest)
    else if c.toNat < 0x20 then none
    else some (.char c, cs)

def string : Nat → List Char → Option (List CodePoint × List Char)
  | 0, _ => none
  | n + 1, cs =>
    match cs with
    | [] => none
    | c :: rest =>
      if c = '"' then some ([], rest)
      else do
        let (p, rest) ← stringPoint (c :: rest)
        let (ps, rest) ← string n rest
        return (p :: ps, rest)

/-- Why a document is not read. -/
inductive LoadError where
  /-- `JSONDecodeError`: the text is no JSON. -/
  | decode
  /-- The plain `ValueError` of `int`: more digits than the interpreter converts. -/
  | digits
  /-- `RecursionError`: nested too deep. -/
  | recursion
  deriving DecidableEq

/-- The recursion limit, less what the callers of `loads` take of it. Writing goes no deeper than
reading, so what has been read can be written. -/
class Nesting where
  /-- How many arrays and objects may be open at once. -/
  limit : Nat
  enough : 16 ≤ limit

/-- The limit as it is by default, for a caller a few calls deep. -/
abbrev Nesting.default : Nesting := ⟨990, by decide⟩

/-- A part of a document, or a `JSONDecodeError` where it is not there. -/
def decoded {α : Type} : Option α → Except LoadError α
  | some a => .ok a
  | none => .error .decode

/-- The limit of the interpreter on the digits of an integer. -/
def maxDigits : Nat := 4300

def fraction : List Char → List Char × List Char
  | c :: cs =>
    if c = '.' ∧ cs.takeWhile Char.isDigit ≠ [] then
      (c :: cs.takeWhile Char.isDigit, cs.dropWhile Char.isDigit)
    else ([], c :: cs)
  | [] => ([], [])

/-- The exponent of a number, or nothing. -/
def exponent : List Char → List Char × List Char
  | c :: cs =>
    let (sign, cs') := match cs with
      | '+' :: cs' => (['+'], cs')
      | '-' :: cs' => (['-'], cs')
      | _ => ([], cs)
    if (c = 'e' ∨ c = 'E') ∧ cs'.takeWhile Char.isDigit ≠ [] then
      (c :: sign ++ cs'.takeWhile Char.isDigit, cs'.dropWhile Char.isDigit)
    else ([], c :: cs)
  | [] => ([], [])

/-- A number after its sign. A leading zero ends the integer part, and the digit after it then ends
the reading of the document. -/
def unsigned (sign cs : List Char) : Except LoadError (Json × List Char) :=
  let digits := cs.takeWhile Char.isDigit
  if digits = [] ∨ (digits.head? = some '0' ∧ 1 < digits.length) then .error .decode
  else
    let (frac, rest) := fraction (cs.dropWhile Char.isDigit)
    let (exp, rest) := exponent rest
    if frac = [] ∧ exp = [] then
      if maxDigits < digits.length then .error .digits
      else
        let value : Int := Nat.ofDigitChars 10 digits 0
        .ok (.int (if sign = [] then value else -value), rest)
    else .ok (.float (sign ++ digits ++ frac ++ exp), rest)

def words : List (List Char × Json) :=
  [(['n', 'u', 'l', 'l'], null), (['t', 'r', 'u', 'e'], bool true),
    (['f', 'a', 'l', 's', 'e'], bool false), ("NaN".toList, float "NaN".toList),
    ("Infinity".toList, float "Infinity".toList), ("-Infinity".toList, float "-Infinity".toList)]

/-- The word that the text begins with, and what follows it. -/
def word (cs : List Char) : Option (Json × List Char) :=
  words.findSome? fun (text, v) =>
    if text.isPrefixOf cs then some (v, cs.drop text.length) else none

/-- Set a key, which keeps its place where it is there already. -/
def setField (fields : List (PyStr × Json)) (field : PyStr × Json) : List (PyStr × Json) :=
  if fields.any fun f => f.1 = field.1 then
    fields.map fun f => if f.1 = field.1 then field else f
  else fields ++ [field]

def enter : Nat → Except LoadError Nat
  | 0 => .error .recursion
  | d + 1 => .ok d

mutual

/-- A value, with `d` more arrays and objects allowed to be open within one another. -/
def value : Nat → Nat → List Char → Except LoadError (Json × List Char)
  | 0, _, _ => .error .decode
  | n + 1, d, cs =>
    match cs with
    | [] => .error .decode
    | c :: rest =>
      if c = '"' then do
        let (s, rest) ← decoded (string n rest)
        return (str (.ofPoints s), rest)
      else if c = '[' then do
        let d ← enter d
        if (skipBlank rest).head? = some ']' then return (arr [], (skipBlank rest).tail)
        else do
          let (vs, rest) ← items n d (skipBlank rest)
          return (arr vs, rest)
      else if c = '{' then do
        let d ← enter d
        if (skipBlank rest).head? = some '}' then return (obj [], (skipBlank rest).tail)
        else do
          let (fs, rest) ← fields n d (skipBlank rest)
          return (obj (fs.foldl setField []), rest)
      else
        match word cs with
        | some r => .ok r
        | none => if c = '-' then unsigned ['-'] rest else unsigned [] cs

def items : Nat → Nat → List Char → Except LoadError (List Json × List Char)
  | 0, _, _ => .error .decode
  | n + 1, d, cs => do
    let (v, rest) ← value n d cs
    match skipBlank rest with
    | [] => .error .decode
    | c :: rest =>
      if c = ']' then return ([v], rest)
      else if c = ',' then do
        let (vs, rest) ← items n d (skipBlank rest)
        return (v :: vs, rest)
      else .error .decode

def fields : Nat → Nat → List Char → Except LoadError (List (PyStr × Json) × List Char)
  | 0, _, _ => .error .decode
  | n + 1, d, cs =>
    match cs with
    | [] => .error .decode
    | c :: rest =>
      if c ≠ '"' then .error .decode
      else do
        let (k, rest) ← decoded (string n rest)
        match skipBlank rest with
        | [] => .error .decode
        | c :: rest =>
          if c ≠ ':' then .error .decode
          else do
            let (v, rest) ← value n d (skipBlank rest)
            match skipBlank rest with
            | [] => .error .decode
            | c :: rest =>
              if c = '}' then return ([(.ofPoints k, v)], rest)
              else if c = ',' then do
                let (fs, rest) ← fields n d (skipBlank rest)
                return ((.ofPoints k, v) :: fs, rest)
              else .error .decode

end

/-- Each array or object takes two units of fuel, so there is enough for every text
(`loads_fuel`). -/
def loads [Nesting] (text : List Char) : Except LoadError Json := do
  let (v, rest) ← value (2 * text.length + 2) Nesting.limit (skipBlank text)
  if skipBlank rest = [] then return v else .error .decode

/-- The value of a key, as `dict.get` finds it. -/
def get? (fields : List (PyStr × Json)) (key : String) : Option Json :=
  (fields.find? fun f => f.1 = (key : PyStr)).map Prod.snd

mutual

/-- How many arrays and objects are open at once where a value is deepest. -/
def nesting : Json → Nat
  | arr vs => nestingItems vs + 1
  | obj fs => nestingFields fs + 1
  | _ => 0

def nestingItems : List Json → Nat
  | [] => 0
  | v :: vs => max (nesting v) (nestingItems vs)

def nestingFields : List (PyStr × Json) → Nat
  | [] => 0
  | (_, v) :: fs => max (nesting v) (nestingFields fs)

end

/-! ## Reading back a string

Escaping turns each code point into one to twelve characters, from which the point is read whatever
follows, but for one case: half of a surrogate pair must not be followed by the other half, which
would be read as one character with it. -/

theorem hexDigit?_digitChar : ∀ d < 16, hexDigit? d.digitChar = some d := by
  decide

/-- Four digits are read back, whatever follows. -/
theorem hex4_hexDigits {n : Nat} (hn : n < 0x10000) (rest : List Char) :
    hex4 (hexDigits n ++ rest) = some (n, rest) := by
  have h3 := hexDigit?_digitChar (n / 4096) (by omega)
  have h2 := hexDigit?_digitChar (n / 256 % 16) (by omega)
  have h1 := hexDigit?_digitChar (n / 16 % 16) (by omega)
  have h0 := hexDigit?_digitChar (n % 16) (by omega)
  have hvalue : ((n / 4096 * 16 + n / 256 % 16) * 16 + n / 16 % 16) * 16 + n % 16 = n := by omega
  simp only [hexDigits, List.cons_append, List.nil_append, hex4, h3, h2, h1, h0,
    Option.bind_eq_bind, Option.bind_some, hvalue]
  rfl

/-- One escape is one code point, unless the second half of a pair follows the first. -/
theorem unicodePoint_single {n : Nat} (hn : n < 0x10000) {rest : List Char}
    (hs : 0xd800 ≤ n ∧ n < 0xdc00 → lowHalf rest = none) :
    unicodePoint (hexDigits n ++ rest) = some (.ofNat n, rest) := by
  rw [unicodePoint, hex4_hexDigits hn, Option.bind_eq_bind, Option.bind_some]
  dsimp only
  split
  · next hhigh => rw [hs hhigh]
  · rfl

/-- The second half of a pair is found where it follows. -/
theorem lowHalf_hexDigits {lo : Nat} (hlo : 0xdc00 ≤ lo ∧ lo < 0xe000) (rest : List Char) :
    lowHalf ('\\' :: 'u' :: (hexDigits lo ++ rest)) = some (lo, rest) := by
  rw [lowHalf, hex4_hexDigits (by omega), Option.bind_eq_bind, Option.bind_some]
  dsimp only
  rw [if_pos hlo]

/-- The two halves of a pair are read as the character that they stand for. -/
theorem unicodePoint_pair (hi lo : Nat) (hhi : 0xd800 ≤ hi ∧ hi < 0xdc00)
    (hlo : 0xdc00 ≤ lo ∧ lo < 0xe000) (rest : List Char) :
    unicodePoint (hexDigits hi ++ '\\' :: 'u' :: (hexDigits lo ++ rest)) =
      some (.char (Char.ofNat (0x10000 + (hi - 0xd800) * 1024 + (lo - 0xdc00))), rest) := by
  rw [unicodePoint, hex4_hexDigits (by omega), Option.bind_eq_bind, Option.bind_some]
  dsimp only
  rw [if_pos hhi, lowHalf_hexDigits hlo]

/-- `\u` is read back, as one escape or as a pair. -/
theorem stringPoint_unicodeEscape (c : Char) (rest : List Char) :
    stringPoint (unicodeEscape c.toNat ++ rest) = some (.char c, rest) := by
  have hvalid : c.toNat < 0xd800 ∨ 0xdfff < c.toNat ∧ c.toNat < 0x110000 := c.valid
  have hback : Char.ofNat c.toNat = c := Char.ofNat_toNat c
  have hpoint : CodePoint.ofNat c.toNat = .char c := CodePoint.ofNat_char c
  generalize c.toNat = n at hvalid hback hpoint
  rw [← hpoint]
  unfold unicodeEscape
  split
  · next hn => exact unicodePoint_single hn (fun h => by omega)
  · next hn =>
    obtain ⟨hi, hhi⟩ : ∃ hi, hi = 0xd800 + (n - 0x10000) / 1024 := ⟨_, rfl⟩
    obtain ⟨lo, hlo⟩ : ∃ lo, lo = 0xdc00 + (n - 0x10000) % 1024 := ⟨_, rfl⟩
    rw [← hhi, ← hlo]
    have hpair := unicodePoint_pair hi lo (by omega) (by omega) rest
    have hn' : 0x10000 + (hi - 0xd800) * 1024 + (lo - 0xdc00) = n := by omega
    rw [hn', hback, ← hpoint] at hpair
    rw [← hpair]
    simp [stringPoint]

/-- A character is read back, escaped or not. -/
theorem stringPoint_escapeChar (ascii : Bool) (c : Char) (rest : List Char) :
    stringPoint (escapeChar ascii c ++ rest) = some (.char c, rest) := by
  unfold escapeChar
  split
  · next h => subst h; rfl
  split
  · next h => subst h; rfl
  split
  · next h => subst h; rfl
  split
  · next h => subst h; rfl
  split
  · next h => subst h; rfl
  split
  · next h => subst h; rfl
  split
  · next h => subst h; rfl
  split
  · exact stringPoint_unicodeEscape c rest
  · next hquote hslash _ _ _ _ _ hplain =>
    have hlow : ¬c.toNat < 0x20 := fun h => hplain (.inl h)
    simp [stringPoint, hslash, hlow]

/-- A surrogate is read back, unless what follows is read as its other half. -/
theorem stringPoint_escapePoint (ascii : Bool) (p : CodePoint) {rest : List Char}
    (h : p.IsHigh → lowHalf rest = none) :
    stringPoint (escapePoint ascii p ++ rest) = some (p, rest) := by
  cases p with
  | char c => exact stringPoint_escapeChar ascii c rest
  | surrogate n =>
    have hn := n.isLt
    have hread := unicodePoint_single (n := 0xd800 + n) (by omega) h
    rw [CodePoint.ofNat_surrogate] at hread
    exact hread

/-- An escaped character starts with something else than the closing quote. -/
theorem escapeChar_eq_cons (ascii : Bool) (c : Char) :
    ∃ h t, escapeChar ascii c = h :: t ∧ h ≠ '"' := by
  by_cases hc : c = '"'
  · exact ⟨'\\', ['"'], by simp [escapeChar, hc], by decide⟩
  cases he : escapeChar ascii c with
  | nil =>
    unfold escapeChar unicodeEscape at he
    repeat' split at he
    all_goals cases he
  | cons h t =>
    refine ⟨h, t, rfl, ?_⟩
    unfold escapeChar unicodeEscape at he
    repeat' split at he
    all_goals
      cases he
      first
        | decide
        | exact hc

/-- What a code point is written as does not begin with a quote, which would end the literal. -/
theorem escapePoint_eq_cons (ascii : Bool) (p : CodePoint) :
    ∃ h t, escapePoint ascii p = h :: t ∧ h ≠ '"' := by
  cases p with
  | char c => exact escapeChar_eq_cons ascii c
  | surrogate n => exact ⟨_, _, rfl, by decide⟩

/-- Only a low surrogate is written as one. -/
theorem lowHalf_escapePoint (ascii : Bool) {p : CodePoint} (hp : ¬p.IsLow) (rest : List Char) :
    lowHalf (escapePoint ascii p ++ rest) = none := by
  have hescape : ∀ n < 0x10000, ¬(0xdc00 ≤ n ∧ n < 0xe000) → ∀ more,
      lowHalf ('\\' :: 'u' :: (hexDigits n ++ more)) = none := by
    intro n hn hlow more
    rw [lowHalf, hex4_hexDigits hn, Option.bind_eq_bind, Option.bind_some]
    dsimp only
    rw [if_neg hlow]
  cases p with
  | surrogate n => exact hescape (0xd800 + n) (by have hn := n.isLt; omega) hp rest
  | char c =>
    show lowHalf (escapeChar ascii c ++ rest) = none
    unfold escapeChar
    split
    · rfl
    split
    · rfl
    split
    · rfl
    split
    · rfl
    split
    · rfl
    split
    · rfl
    split
    · rfl
    split
    · unfold unicodeEscape
      have hvalid : c.toNat < 0xd800 ∨ 0xdfff < c.toNat ∧ c.toNat < 0x110000 := c.valid
      split
      · next hn => exact hescape _ hn hp rest
      · rw [List.cons_append, List.cons_append, List.append_assoc]
        exact hescape _ (by omega) (by omega) _
    · next hslash _ _ _ _ _ _ =>
      -- the character stands for itself, and is no backslash
      rw [List.cons_append, List.nil_append]
      unfold lowHalf
      split
      · next heq => exact absurd (List.cons.inj heq).1 hslash
      · rfl

/-- The code points of a literal are read back, if no two of them are the halves of a pair. -/
theorem string_quote (ascii : Bool) {ps : List CodePoint}
    (hps : ps.IsChain fun p q => ¬(p.IsHigh ∧ q.IsLow)) {n : Nat} (hn : ps.length < n)
    (rest : List Char) :
    string n (ps.flatMap (escapePoint ascii) ++ '"' :: rest) = some (ps, rest) := by
  induction ps generalizing n with
  | nil =>
    obtain ⟨m, rfl⟩ : ∃ m, n = m + 1 := ⟨n - 1, by simp at hn; omega⟩
    rfl
  | cons p ps ih =>
    obtain ⟨m, rfl⟩ : ∃ m, n = m + 1 := ⟨n - 1, by omega⟩
    rw [List.length_cons] at hn
    have htail := ih hps.tail (n := m) (by omega)
    -- what follows a high surrogate is no low one: the quote, or the next code point
    have hnext : p.IsHigh → lowHalf (ps.flatMap (escapePoint ascii) ++ '"' :: rest) = none := by
      intro hhigh
      cases ps with
      | nil => rfl
      | cons q ps =>
        rw [List.flatMap_cons, List.append_assoc]
        exact lowHalf_escapePoint ascii (fun hlow => (List.isChain_cons_cons.mp hps).1 ⟨hhigh, hlow⟩) _
    have hpoint := stringPoint_escapePoint ascii p hnext
    obtain ⟨h, t, hcons, hne⟩ := escapePoint_eq_cons ascii p
    rw [List.flatMap_cons, List.append_assoc]
    rw [hcons, List.cons_append] at hpoint ⊢
    rw [string, if_neg hne, hpoint]
    simp only [Option.bind_eq_bind, Option.bind_some, htail]
    rfl

/-- Each code point takes at least one character, so the length of the text bounds their number. -/
theorem length_flatMap_escapePoint (ascii : Bool) (ps : List CodePoint) :
    ps.length ≤ (ps.flatMap (escapePoint ascii)).length := by
  induction ps with
  | nil => simp
  | cons p ps ih =>
    obtain ⟨h, t, hcons, -⟩ := escapePoint_eq_cons ascii p
    rw [List.flatMap_cons, hcons, List.length_append, List.length_cons, List.length_cons]
    omega

/-! ## Reading back a number

A number ends before any character that cannot go on with it. What is written after a number is such
a character, or nothing. -/

/-- The text that follows is no part of a number before it. -/
def NumberEnds (rest : List Char) : Prop :=
  ∀ c, rest.head? = some c → c.isDigit = false ∧ c ≠ '.' ∧ c ≠ 'e' ∧ c ≠ 'E'

theorem numberEnds_nil : NumberEnds [] := by
  intro c hc
  cases hc

/-- A number ends before a character that is no part of one. -/
theorem numberEnds_cons {c : Char} (hc : c.isDigit = false ∧ c ≠ '.' ∧ c ≠ 'e' ∧ c ≠ 'E')
    (rest : List Char) : NumberEnds (c :: rest) := by
  intro c' hc'
  rw [← Option.some.inj hc']
  exact hc

/-- The digits of a number are told from what follows it. -/
theorem takeWhile_digits {ds rest : List Char} (hds : ∀ c ∈ ds, c.isDigit = true)
    (hrest : NumberEnds rest) : (ds ++ rest).takeWhile Char.isDigit = ds ∧
      (ds ++ rest).dropWhile Char.isDigit = rest := by
  rw [List.takeWhile_append_of_pos hds, List.dropWhile_append_of_pos hds]
  cases rest with
  | nil => simp
  | cons c rest =>
    have hc := (hrest c rfl).1
    simp [hc]

/-- There is no fraction where the number has ended. -/
theorem fraction_of_ends {rest : List Char} (h : NumberEnds rest) :
    fraction rest = ([], rest) := by
  cases rest with
  | nil => rfl
  | cons c rest => simp [fraction, (h c rfl).2.1]

theorem exponent_of_ends {rest : List Char} (h : NumberEnds rest) :
    exponent rest = ([], rest) := by
  cases rest with
  | nil => rfl
  | cons c rest => simp [exponent, (h c rfl).2.2]

/-- Only zero is written with a leading zero. -/
theorem eq_zero_of_head_toDigits (n : Nat) (h : (Nat.toDigits 10 n).head? = some '0') :
    n = 0 := by
  induction n using Nat.strongRecOn with
  | ind n ih =>
    by_cases hn : n < 10
    · rw [Nat.toDigits_of_lt_base hn] at h
      exact Nat.digitChar_eq_zero.mp (Option.some.inj h)
    · obtain ⟨d, ds, hds⟩ : ∃ d ds, Nat.toDigits 10 (n / 10) = d :: ds :=
        List.exists_cons_of_ne_nil Nat.toDigits_ne_nil
      rw [Nat.toDigits_of_base_le (by omega) (by omega), hds] at h
      have hdiv := ih (n / 10) (by omega) (by rw [hds]; exact h)
      omega

/-- A natural number is read back, as it is or negated, if its digits stay within the limit. -/
theorem unsigned_toDigits (sign : List Char) {n : Nat}
    (hn : (Nat.toDigits 10 n).length ≤ maxDigits) {rest : List Char} (hrest : NumberEnds rest) :
    unsigned sign (Nat.toDigits 10 n ++ rest) =
      .ok (int (if sign = [] then (n : Int) else -n), rest) := by
  have hdigits : ∀ c ∈ Nat.toDigits 10 n, c.isDigit = true :=
    fun c hc => Nat.isDigit_of_mem_toDigits (by omega) (by omega) hc
  obtain ⟨htake, hdrop⟩ := takeWhile_digits hdigits hrest
  have hzero : ¬((Nat.toDigits 10 n).head? = some '0' ∧ 1 < (Nat.toDigits 10 n).length) := by
    rintro ⟨hhead, hlen⟩
    rw [eq_zero_of_head_toDigits n hhead] at hlen
    exact absurd hlen (by decide)
  have hgood : ¬(Nat.toDigits 10 n = [] ∨
      ((Nat.toDigits 10 n).head? = some '0' ∧ 1 < (Nat.toDigits 10 n).length)) := by
    rintro (h | h)
    · exact Nat.toDigits_ne_nil h
    · exact hzero h
  unfold unsigned
  simp only [htake, hdrop, fraction_of_ends hrest, exponent_of_ends hrest]
  rw [if_neg hgood, if_pos ⟨trivial, trivial⟩, if_neg (by omega), Nat.ofDigitChars_ten_toDigits]

/-! ## Reading back a value

`Written` says what a value has to be like to be read back: distinct keys, integers within the
limit, unpaired halves. `Plain` is the part of it that callers can check, without floats or
surrogates. -/

def PlainKeys (ks : List PyStr) : Prop :=
  ks.Nodup ∧ ∀ k ∈ ks, k.IsText

instance (ks : List PyStr) : Decidable (PlainKeys ks) :=
  inferInstanceAs (Decidable (_ ∧ _))

mutual

/-- No floats, distinct keys, texts only, and no more digits than the interpreter reads. -/
def Plain : Json → Prop
  | float _ => False
  | int n => (Nat.toDigits 10 n.natAbs).length ≤ maxDigits
  | str s => s.IsText
  | arr vs => PlainItems vs
  | obj fs => PlainKeys (fs.map Prod.fst) ∧ PlainFields fs
  | _ => True

def PlainItems : List Json → Prop
  | [] => True
  | v :: vs => Plain v ∧ PlainItems vs

def PlainFields : List (PyStr × Json) → Prop
  | [] => True
  | (_, v) :: fs => Plain v ∧ PlainFields fs

end

/-- The text of a float is read as that float, whatever follows, and starts no bracket. -/
structure FloatText (lexeme : List Char) : Prop where
  starts : ∃ h t, lexeme = h :: t ∧ isBlank h = false ∧ h ≠ ']'
  reads : ∀ n d rest, NumberEnds rest →
    value (n + 1) d (lexeme ++ rest) = .ok (float lexeme, rest)

def WrittenKeys (ks : List PyStr) : Prop :=
  ks.Nodup ∧ ∀ k ∈ ks, k.Unpaired

mutual

/-- What a text can say: `Plain`, and floats as they are written, and lone surrogates. -/
def Written : Json → Prop
  | float lexeme => FloatText lexeme
  | int n => (Nat.toDigits 10 n.natAbs).length ≤ maxDigits
  | str s => s.Unpaired
  | arr vs => WrittenItems vs
  | obj fs => WrittenKeys (fs.map Prod.fst) ∧ WrittenFields fs
  | _ => True

def WrittenItems : List Json → Prop
  | [] => True
  | v :: vs => Written v ∧ WrittenItems vs

def WrittenFields : List (PyStr × Json) → Prop
  | [] => True
  | (_, v) :: fs => Written v ∧ WrittenFields fs

end

theorem PlainKeys.written {ks : List PyStr} (h : PlainKeys ks) : WrittenKeys ks :=
  ⟨h.1, fun k hk => (h.2 k hk).unpaired⟩

mutual

/-- What callers check is enough for reading back. -/
theorem Plain.written : ∀ {v : Json}, Plain v → Written v
  | null, _ => trivial
  | bool _, _ => trivial
  | int _, h => h
  | float _, h => absurd h (by simp [Plain])
  | str _, h => PyStr.IsText.unpaired h
  | arr _, h => PlainItems.written h
  | obj _, h => ⟨h.1.written, PlainFields.written h.2⟩

theorem PlainItems.written : ∀ {vs : List Json}, PlainItems vs → WrittenItems vs
  | [], _ => trivial
  | _ :: _, h => ⟨Plain.written h.1, PlainItems.written h.2⟩

theorem PlainFields.written : ∀ {fs : List (PyStr × Json)}, PlainFields fs → WrittenFields fs
  | [], _ => trivial
  | (_, _) :: _, h => ⟨Plain.written h.1, PlainFields.written h.2⟩

end

/-- A character that is no blank is the next token. -/
theorem skipBlank_cons {c : Char} (hc : isBlank c = false) (cs : List Char) :
    skipBlank (c :: cs) = c :: cs := by
  simp [skipBlank, hc]

theorem skipBlank_append {ws : List Char} (h : ∀ c ∈ ws, isBlank c = true) (cs : List Char) :
    skipBlank (ws ++ cs) = skipBlank cs :=
  List.dropWhile_append_of_pos h

/-- A line break and the indentation after it are blanks. -/
theorem newline_blank (style : JsonStyle) (depth : Nat) :
    ∀ c ∈ newline style depth, isBlank c = true := by
  intro c hc
  unfold newline at hc
  split at hc
  · cases hc
  · rcases List.mem_cons.mp hc with rfl | hc
    · rfl
    · rw [List.eq_of_mem_replicate hc]
      rfl

theorem blanks_blank (n : Nat) : ∀ c ∈ List.replicate n ' ', isBlank c = true := by
  intro c hc
  rw [List.eq_of_mem_replicate hc]
  rfl

/-- No word begins with a digit. -/
theorem word_none_of_isDigit {c : Char} (hc : c.isDigit = true) (cs : List Char) :
    word (c :: cs) = none := by
  have hne : ∀ d : Char, d.isDigit = false → d ≠ c := by
    rintro d hd rfl
    rw [hc] at hd
    cases hd
  have hn := hne 'n' (by decide)
  have ht := hne 't' (by decide)
  have hf := hne 'f' (by decide)
  have hN := hne 'N' (by decide)
  have hI := hne 'I' (by decide)
  have hm := hne '-' (by decide)
  simp [word, words, hn, ht, hf, hN, hI, hm]

/-- A minus sign before a digit does not begin a word either. -/
theorem word_none_of_minus {c : Char} (hc : c.isDigit = true) (cs : List Char) :
    word ('-' :: c :: cs) = none := by
  have hI : 'I' ≠ c := by
    rintro rfl
    cases hc
  simp [word, words, hI]

/-- An integer is read back as a value. -/
theorem value_dumpsInt {i : Int} (hi : (Nat.toDigits 10 i.natAbs).length ≤ maxDigits) (n d : Nat)
    {rest : List Char} (hrest : NumberEnds rest) :
    value (n + 1) d (dumpsInt i ++ rest) = .ok (int i, rest) := by
  obtain ⟨c, cs, hcs⟩ : ∃ c cs, Nat.toDigits 10 i.natAbs = c :: cs :=
    List.exists_cons_of_ne_nil Nat.toDigits_ne_nil
  have hc : c.isDigit = true :=
    Nat.isDigit_of_mem_toDigits (b := 10) (n := i.natAbs) (by omega) (by omega) (by simp [hcs])
  -- a digit is none of the characters tried before a number
  have hne : ∀ e : Char, e.isDigit = false → c ≠ e := by
    rintro e he rfl
    rw [hc] at he
    cases he
  unfold dumpsInt
  split
  · next hneg =>
    have hread := unsigned_toDigits ['-'] hi hrest
    rw [hcs, List.cons_append] at hread ⊢
    rw [List.cons_append, value, if_neg (by decide), if_neg (by decide),
      if_neg (by decide), word_none_of_minus hc]
    dsimp only
    rw [if_pos rfl, hread, if_neg (by simp)]
    have habs : -(i.natAbs : Int) = i := by omega
    rw [habs]
  · next hpos =>
    have hread := unsigned_toDigits [] hi hrest
    rw [hcs, List.cons_append] at hread ⊢
    rw [value, if_neg (hne _ (by decide)), if_neg (hne _ (by decide)), if_neg (hne _ (by decide)),
      word_none_of_isDigit hc]
    dsimp only
    rw [if_neg (hne _ (by decide)), hread, if_pos rfl]
    have habs : (i.natAbs : Int) = i := by omega
    rw [habs]

/-- A string is read back as a value. -/
theorem value_quote (ascii : Bool) {s : PyStr} (hs : s.Unpaired) {n : Nat} (d : Nat)
    (hn : (quote ascii s).length ≤ n) (rest : List Char) :
    value n d (quote ascii s ++ rest) = .ok (str s, rest) := by
  have hlen := length_flatMap_escapePoint ascii s.points
  rw [quote, List.length_append, List.length_cons, List.length_singleton] at hn
  obtain ⟨m, rfl⟩ : ∃ m, n = m + 1 := ⟨n - 1, by omega⟩
  have hread := string_quote ascii hs.points (n := m) (by omega) rest
  rw [quote, List.append_assoc, List.cons_append, List.singleton_append, value, if_pos rfl, hread]
  show Except.ok (str (.ofPoints s.points), rest) = _
  rw [PyStr.ofPoints_points]

/-- A value starts with neither white space nor a closing bracket. -/
theorem dumpsAt_eq_cons (style : JsonStyle) (depth : Nat) (v : Json) (hv : Written v) :
    ∃ h t, dumpsAt style depth v = h :: t ∧ isBlank h = false ∧ h ≠ ']' := by
  cases v with
  | null => exact ⟨_, _, rfl, by decide, by decide⟩
  | bool b => cases b <;> exact ⟨_, _, rfl, by decide, by decide⟩
  | int i =>
    show ∃ h t, dumpsInt i = h :: t ∧ isBlank h = false ∧ h ≠ ']'
    unfold dumpsInt
    split
    · exact ⟨_, _, rfl, by decide, by decide⟩
    · obtain ⟨d, ds, hds⟩ : ∃ d ds, Nat.toDigits 10 i.natAbs = d :: ds :=
        List.exists_cons_of_ne_nil Nat.toDigits_ne_nil
      -- a digit is no blank and no bracket
      have hd : d.isDigit = true :=
        Nat.isDigit_of_mem_toDigits (b := 10) (n := i.natAbs) (by omega) (by omega) (by simp [hds])
      refine ⟨d, ds, hds, ?_, ?_⟩
      · cases hb : isBlank d with
        | false => rfl
        | true =>
          simp only [isBlank, Bool.or_eq_true, decide_eq_true_eq] at hb
          rcases hb with ((rfl | rfl) | rfl) | rfl <;> cases hd
      · rintro rfl
        cases hd
  | float lexeme => exact hv.starts
  | str s => exact ⟨_, _, rfl, by decide, by decide⟩
  | arr vs => cases vs <;> exact ⟨_, _, rfl, by decide, by decide⟩
  | obj fs =>
    cases fs with
    | nil => exact ⟨_, _, rfl, by decide, by decide⟩
    | cons f fs =>
      obtain ⟨k, v⟩ := f
      exact ⟨_, _, rfl, by decide, by decide⟩

/-! ## Reading back arrays and objects

Between the items stand separators and blanks, which reading passes over. The step lemmas read one
item or field and what follows it. -/

def itemsText (style : JsonStyle) (depth : Nat) : List Json → List Char
  | [] => []
  | v :: vs => dumpsAt style depth v ++ dumpsItems style depth vs

def fieldsText (style : JsonStyle) (depth : Nat) : List (PyStr × Json) → List Char
  | [] => []
  | (k, v) :: fs =>
    quote style.ascii k ++ keySeparator style ++ dumpsAt style depth v ++
      dumpsFields style depth fs

/-- The gap and the line break after a comma are passed over. -/
theorem skipBlank_separator (style : JsonStyle) (depth : Nat) (cs : List Char) :
    skipBlank (List.replicate style.itemGap ' ' ++ newline style depth ++ cs) = skipBlank cs := by
  rw [List.append_assoc, skipBlank_append (blanks_blank _), skipBlank_append (newline_blank _ _)]

theorem numberEnd_of_isBlank {c : Char} (hc : isBlank c = true) :
    c.isDigit = false ∧ c ≠ '.' ∧ c ≠ 'e' ∧ c ≠ 'E' := by
  simp only [isBlank, Bool.or_eq_true, decide_eq_true_eq] at hc
  rcases hc with ((rfl | rfl) | rfl) | rfl <;> decide

/-- A number ends before blanks and the character after them. -/
theorem numberEnds_blank {ws : List Char} (hws : ∀ c ∈ ws, isBlank c = true) {c : Char}
    (hc : c.isDigit = false ∧ c ≠ '.' ∧ c ≠ 'e' ∧ c ≠ 'E') (rest : List Char) :
    NumberEnds (ws ++ c :: rest) := by
  cases ws with
  | nil => exact numberEnds_cons hc rest
  | cons d ws => exact numberEnds_cons (numberEnd_of_isBlank (hws d (by simp))) _

/-- One item has been read, and the array ends. -/
theorem items_last {n d : Nat} {v : Json} {cs rest ws : List Char}
    (hws : ∀ c ∈ ws, isBlank c = true) (hv : value n d cs = .ok (v, ws ++ ']' :: rest)) :
    items (n + 1) d cs = .ok ([v], rest) := by
  rw [items, hv, ok_bind]
  simp only [skipBlank_append hws, skipBlank_cons (show isBlank ']' = false by decide)]
  rw [if_pos trivial]
  rfl

/-- One item has been read, and another one follows. -/
theorem items_more {n d : Nat} {v : Json} {vs : List Json} {cs more rest : List Char}
    (hv : value n d cs = .ok (v, ',' :: more))
    (hvs : items n d (skipBlank more) = .ok (vs, rest)) :
    items (n + 1) d cs = .ok (v :: vs, rest) := by
  rw [items, hv, ok_bind]
  simp only [skipBlank_cons (show isBlank ',' = false by decide)]
  rw [if_neg (by decide), if_pos trivial, hvs]
  rfl

/-- The key and the value of a field have been read, and the object ends. -/
theorem fields_last {n d : Nat} {k : List CodePoint} {v : Json} {cs more rest ws : List Char}
    (hws : ∀ c ∈ ws, isBlank c = true) (hk : string n cs = some (k, ':' :: more))
    (hv : value n d (skipBlank more) = .ok (v, ws ++ '}' :: rest)) :
    fields (n + 1) d ('"' :: cs) = .ok ([(.ofPoints k, v)], rest) := by
  rw [fields, if_neg (by decide), hk, decoded, ok_bind]
  simp only [skipBlank_cons (show isBlank ':' = false by decide)]
  rw [if_neg (by decide), hv, ok_bind]
  simp only [skipBlank_append hws, skipBlank_cons (show isBlank '}' = false by decide)]
  rw [if_pos trivial]
  rfl

/-- The key and the value of a field have been read, and another field follows. -/
theorem fields_more {n d : Nat} {k : List CodePoint} {v : Json} {fs : List (PyStr × Json)}
    {cs more more' rest : List Char} (hk : string n cs = some (k, ':' :: more))
    (hv : value n d (skipBlank more) = .ok (v, ',' :: more'))
    (hfs : fields n d (skipBlank more') = .ok (fs, rest)) :
    fields (n + 1) d ('"' :: cs) = .ok ((.ofPoints k, v) :: fs, rest) := by
  rw [fields, if_neg (by decide), hk, decoded, ok_bind]
  simp only [skipBlank_cons (show isBlank ':' = false by decide)]
  rw [if_neg (by decide), hv, ok_bind]
  simp only [skipBlank_cons (show isBlank ',' = false by decide)]
  rw [if_neg (by decide), if_pos trivial, hfs]
  rfl

/-- A new key goes to the end. -/
theorem setField_of_not_mem {fs : List (PyStr × Json)} {f : PyStr × Json}
    (h : f.1 ∉ fs.map Prod.fst) : setField fs f = fs ++ [f] := by
  have hany : (fs.any fun g => g.1 = f.1) = false := by
    rw [List.any_eq_false]
    intro g hg
    simp only [decide_eq_true_eq]
    rintro heq
    exact h (heq ▸ List.mem_map_of_mem hg)
  rw [setField, hany]
  rfl

/-- Fields with distinct keys stay as they are read. -/
theorem foldl_setField (done fs : List (PyStr × Json)) (h : ((done ++ fs).map Prod.fst).Nodup) :
    fs.foldl setField done = done ++ fs := by
  induction fs generalizing done with
  | nil => simp
  | cons f fs ih =>
    have hf : f.1 ∉ done.map Prod.fst := by
      rw [List.map_append, List.map_cons] at h
      have hdisj := (List.nodup_append.mp h).2.2
      intro hmem
      exact hdisj _ hmem _ (by simp) rfl
    have happ : done ++ f :: fs = (done ++ [f]) ++ fs := by simp
    rw [happ] at h
    rw [List.foldl_cons, setField_of_not_mem hf, ih _ h, happ]

variable (style : JsonStyle)

mutual

/-- **A value is read back**, whatever follows it. The fuel is bounded by the length of the text, and
the nesting that is allowed by that of the value. -/
theorem value_dumps : ∀ (v : Json) (depth n d : Nat) (rest : List Char), Written v →
    v.nesting ≤ d → (dumpsAt style depth v).length ≤ n → NumberEnds rest →
    value n d (dumpsAt style depth v ++ rest) = .ok (v, rest)
  | null, depth, 0, d, rest, _, _, hn, _ => by simp [dumpsAt] at hn
  | null, depth, n + 1, d, rest, _, _, _, _ => by rfl
  | bool true, depth, 0, d, rest, _, _, hn, _ => by simp [dumpsAt] at hn
  | bool true, depth, n + 1, d, rest, _, _, _, _ => by rfl
  | bool false, depth, 0, d, rest, _, _, hn, _ => by simp [dumpsAt] at hn
  | bool false, depth, n + 1, d, rest, _, _, _, _ => by rfl
  | int i, depth, n, d, rest, hv, _, hn, hrest => by
    obtain ⟨h, t, hcons, -⟩ := dumpsAt_eq_cons style depth (int i) hv
    rw [hcons, List.length_cons] at hn
    obtain ⟨m, rfl⟩ : ∃ m, n = m + 1 := ⟨n - 1, by omega⟩
    exact value_dumpsInt hv m d hrest
  | float lexeme, depth, n, d, rest, hv, _, hn, hrest => by
    obtain ⟨h, t, hcons, -⟩ := dumpsAt_eq_cons style depth (float lexeme) hv
    rw [hcons, List.length_cons] at hn
    obtain ⟨m, rfl⟩ : ∃ m, n = m + 1 := ⟨n - 1, by omega⟩
    exact hv.reads m d rest hrest
  | str s, depth, n, d, rest, hv, _, hn, _ => value_quote style.ascii hv d hn rest
  | arr [], depth, 0, d, rest, _, _, hn, _ => by simp [dumpsAt] at hn
  | arr [], depth, n + 1, 0, rest, _, hd, _, _ => by simp [nesting] at hd
  | arr [], depth, n + 1, d + 1, rest, _, _, _, _ => by rfl
  | arr (v :: vs), depth, 0, d, rest, _, _, hn, _ => by simp [dumpsAt] at hn
  | arr (v :: vs), depth, n + 1, 0, rest, _, hd, _, _ => by simp [nesting] at hd
  | arr (v :: vs), depth, n + 1, d + 1, rest, hv, hd, hn, _ => by
    have hlen : (itemsText style (depth + 1) (v :: vs)).length < n := by
      simp only [dumpsAt, List.length_append, List.length_cons, List.length_nil] at hn
      simp only [itemsText, List.length_append]
      omega
    -- the items are read by the mutual lemma, with one unit of fuel less
    have hread := items_dumps (v :: vs) (depth + 1) n d rest (newline style depth)
      (newline_blank style depth) (by simp) hv (Nat.le_of_succ_le_succ hd) hlen
    obtain ⟨h, t, hcons, hblank, hne⟩ := dumpsAt_eq_cons style (depth + 1) v hv.1
    have hskip : skipBlank (newline style (depth + 1) ++ (itemsText style (depth + 1) (v :: vs) ++
        (newline style depth ++ ']' :: rest))) =
          itemsText style (depth + 1) (v :: vs) ++ (newline style depth ++ ']' :: rest) := by
      rw [skipBlank_append (newline_blank _ _), itemsText, hcons]
      exact skipBlank_cons hblank _
    have htext : dumpsAt style depth (arr (v :: vs)) ++ rest =
        '[' :: (newline style (depth + 1) ++ (itemsText style (depth + 1) (v :: vs) ++
          (newline style depth ++ ']' :: rest))) := by
      simp [dumpsAt, itemsText]
    have hhead : (itemsText style (depth + 1) (v :: vs) ++
        (newline style depth ++ ']' :: rest)).head? ≠ some ']' := by
      rw [itemsText, hcons]
      exact fun heq => hne (Option.some.inj heq)
    rw [htext, value, if_neg (by decide), if_pos rfl, enter, ok_bind, hskip, if_neg hhead, hread]
    rfl
  | obj [], depth, 0, d, rest, _, _, hn, _ => by simp [dumpsAt] at hn
  | obj [], depth, n + 1, 0, rest, _, hd, _, _ => by simp [nesting] at hd
  | obj [], depth, n + 1, d + 1, rest, _, _, _, _ => by rfl
  | obj (f :: fs), depth, 0, d, rest, _, _, hn, _ => by
    obtain ⟨k, v⟩ := f
    simp [dumpsAt] at hn
  | obj (f :: fs), depth, n + 1, 0, rest, _, hd, _, _ => by simp [nesting] at hd
  | obj (f :: fs), depth, n + 1, d + 1, rest, hv, hd, hn, _ => by
    obtain ⟨k, v⟩ := f
    have hlen : (fieldsText style (depth + 1) ((k, v) :: fs)).length < n := by
      simp only [dumpsAt, List.length_append, List.length_cons, List.length_nil] at hn
      simp only [fieldsText, List.length_append]
      omega
    have hread := fields_dumps ((k, v) :: fs) (depth + 1) n d rest (newline style depth)
      (newline_blank style depth) (by simp) hv.1.2 hv.2 (Nat.le_of_succ_le_succ hd) hlen
    have hskip : skipBlank (newline style (depth + 1) ++
        (fieldsText style (depth + 1) ((k, v) :: fs) ++ (newline style depth ++ '}' :: rest))) =
          fieldsText style (depth + 1) ((k, v) :: fs) ++ (newline style depth ++ '}' :: rest) := by
      rw [skipBlank_append (newline_blank _ _)]
      simp only [fieldsText, quote, List.cons_append]
      exact skipBlank_cons (by decide) _
    have htext : dumpsAt style depth (obj ((k, v) :: fs)) ++ rest =
        '{' :: (newline style (depth + 1) ++ (fieldsText style (depth + 1) ((k, v) :: fs) ++
          (newline style depth ++ '}' :: rest))) := by
      simp [dumpsAt, fieldsText]
    have hhead : (fieldsText style (depth + 1) ((k, v) :: fs) ++
        (newline style depth ++ '}' :: rest)).head? ≠ some '}' := by
      simp [fieldsText, quote]
    rw [htext, value, if_neg (by decide), if_neg (by decide), if_pos rfl, enter, ok_bind, hskip,
      if_neg hhead, hread, ok_bind]
    -- keys that differ are set one after the other, so the object comes back as it was
    have hfold := foldl_setField [] ((k, v) :: fs) hv.1.1
    dsimp only
    rw [hfold]
    rfl

/-- The items of a non-empty array, up to its closing bracket. -/
theorem items_dumps : ∀ (vs : List Json) (depth n d : Nat) (rest ws : List Char),
    (∀ c ∈ ws, isBlank c = true) → vs ≠ [] → WrittenItems vs → nestingItems vs ≤ d →
    (itemsText style depth vs).length < n →
    items n d (itemsText style depth vs ++ (ws ++ ']' :: rest)) = .ok (vs, rest)
  | [], _, _, _, _, _, _, hne, _, _, _ => absurd rfl hne
  | v :: vs, depth, n, d, rest, ws, hws, _, hv, hd, hn => by
    obtain ⟨hdv, hdvs⟩ := Nat.max_le.mp hd
    obtain ⟨m, rfl⟩ : ∃ m, n = m + 1 := ⟨n - 1, by omega⟩
    simp only [itemsText, List.length_append] at hn
    have hends := numberEnds_blank hws (c := ']') (by decide) rest
    -- the last item is followed by the bracket, any other by a comma
    match vs, hv with
    | [], hv =>
      have hread := value_dumps v depth m d (ws ++ ']' :: rest) hv.1 hdv (by omega) hends
      rw [itemsText, dumpsItems, List.append_nil]
      exact items_last hws hread
    | v' :: vs, hv =>
      obtain ⟨more, hmore⟩ : ∃ more, more = List.replicate style.itemGap ' ' ++
          newline style depth ++ (itemsText style depth (v' :: vs) ++ (ws ++ ']' :: rest)) :=
        ⟨_, rfl⟩
      have htext : itemsText style depth (v :: v' :: vs) ++ (ws ++ ']' :: rest) =
          dumpsAt style depth v ++ ',' :: more := by
        simp [itemsText, dumpsItems, itemSeparator, hmore]
      have hread := value_dumps v depth m d (',' :: more) hv.1 hdv (by omega)
        (numberEnds_cons (by decide) more)
      have hrest := items_dumps (v' :: vs) depth m d rest ws hws (by simp) hv.2 hdvs (by
        simp only [dumpsItems, itemSeparator, List.length_append, List.length_cons] at hn
        simp only [itemsText, List.length_append]
        omega)
      have hskip : skipBlank more = itemsText style depth (v' :: vs) ++ (ws ++ ']' :: rest) := by
        obtain ⟨h, t, hcons, hb, -⟩ := dumpsAt_eq_cons style depth v' hv.2.1
        rw [hmore, skipBlank_separator, itemsText, hcons]
        exact skipBlank_cons hb _
      rw [htext]
      exact items_more hread (by rw [hskip]; exact hrest)

/-- The fields of a non-empty object, up to its closing brace. -/
theorem fields_dumps : ∀ (fs : List (PyStr × Json)) (depth n d : Nat) (rest ws : List Char),
    (∀ c ∈ ws, isBlank c = true) → fs ≠ [] → (∀ k ∈ fs.map Prod.fst, k.Unpaired) →
    WrittenFields fs → nestingFields fs ≤ d → (fieldsText style depth fs).length < n →
    fields n d (fieldsText style depth fs ++ (ws ++ '}' :: rest)) = .ok (fs, rest)
  | [], _, _, _, _, _, _, hne, _, _, _, _ => absurd rfl hne
  | (k, v) :: fs, depth, n, d, rest, ws, hws, _, hkeys, hv, hd, hn => by
    obtain ⟨hdv, hdfs⟩ := Nat.max_le.mp hd
    obtain ⟨hk, hks⟩ : k.Unpaired ∧ _ := List.forall_mem_cons.mp hkeys
    obtain ⟨m, rfl⟩ : ∃ m, n = m + 1 := ⟨n - 1, by omega⟩
    have hkey := length_flatMap_escapePoint style.ascii k.points
    simp only [fieldsText, quote, keySeparator, List.length_append, List.length_cons,
      List.length_nil] at hn
    -- what follows the colon after the key
    obtain ⟨after, hafter⟩ : ∃ after, after = dumpsAt style depth v ++
        (dumpsFields style depth fs ++ (ws ++ '}' :: rest)) := ⟨_, rfl⟩
    have htext : fieldsText style depth ((k, v) :: fs) ++ (ws ++ '}' :: rest) =
        '"' :: (k.points.flatMap (escapePoint style.ascii) ++
          '"' :: ':' :: (List.replicate style.keyGap ' ' ++ after)) := by
      simp [fieldsText, quote, keySeparator, hafter]
    have hstring := string_quote style.ascii hk.points (n := m) (by omega)
      (':' :: (List.replicate style.keyGap ' ' ++ after))
    have hskip : skipBlank (List.replicate style.keyGap ' ' ++ after) = after := by
      obtain ⟨h, t, hcons, hb, -⟩ := dumpsAt_eq_cons style depth v hv.1
      rw [skipBlank_append (blanks_blank _), hafter, hcons]
      exact skipBlank_cons hb _
    rw [htext]
    match fs, hv, hks, hdfs with
    | [], hv, _, _ =>
      have hends := numberEnds_blank hws (c := '}') (by decide) rest
      have hread := value_dumps v depth m d (ws ++ '}' :: rest) hv.1 hdv (by omega) hends
      have hvalue : value m d (skipBlank (List.replicate style.keyGap ' ' ++ after)) =
          .ok (v, ws ++ '}' :: rest) := by
        rw [hskip, hafter]
        exact hread
      rw [fields_last hws hstring hvalue, PyStr.ofPoints_points]
    | (k', v') :: fs, hv, hks, hdfs =>
      obtain ⟨more, hmore⟩ : ∃ more, more = List.replicate style.itemGap ' ' ++
          newline style depth ++ (fieldsText style depth ((k', v') :: fs) ++ (ws ++ '}' :: rest)) :=
        ⟨_, rfl⟩
      have hafter' : after = dumpsAt style depth v ++ ',' :: more := by
        simp [hafter, hmore, dumpsFields, itemSeparator, fieldsText]
      have hread := value_dumps v depth m d (',' :: more) hv.1 hdv (by omega)
        (numberEnds_cons (by decide) more)
      have hrest := fields_dumps ((k', v') :: fs) depth m d rest ws hws (by simp) hks hv.2 hdfs (by
        simp only [dumpsFields, itemSeparator, List.length_append, List.length_cons] at hn
        simp only [fieldsText, List.length_append]
        omega)
      have hskip' : skipBlank more =
          fieldsText style depth ((k', v') :: fs) ++ (ws ++ '}' :: rest) := by
        rw [hmore, skipBlank_separator]
        simp only [fieldsText, quote, List.cons_append]
        exact skipBlank_cons (by decide) _
      have hvalue : value m d (skipBlank (List.replicate style.keyGap ' ' ++ after)) =
          .ok (v, ',' :: more) := by
        rw [hskip, hafter']
        exact hread
      rw [fields_more hstring hvalue (hskip' ▸ hrest), PyStr.ofPoints_points]

end

section

variable [Nesting]

/-- Blanks after the value, such as the end of a line, are passed over. -/
theorem loads_dumps_blank (v : Json) (hv : Written v) (hd : v.nesting ≤ Nesting.limit)
    {ws : List Char} (hws : ∀ c ∈ ws, isBlank c = true) : loads (dumps style v ++ ws) = .ok v := by
  obtain ⟨h, t, hcons, hblank, -⟩ := dumpsAt_eq_cons style 0 v hv
  have hskip : skipBlank (dumps style v ++ ws) = dumps style v ++ ws := by
    rw [dumps, hcons, List.cons_append]
    exact skipBlank_cons hblank _
  have hends : NumberEnds ws := by
    cases ws with
    | nil => exact numberEnds_nil
    | cons c ws => exact numberEnds_cons (numberEnd_of_isBlank (hws c (by simp))) ws
  have hlen : (dumpsAt style 0 v).length ≤ 2 * (dumps style v ++ ws).length + 2 := by
    rw [List.length_append, dumps]
    omega
  have hread := value_dumps style v 0 _ Nesting.limit ws hv hd hlen hends
  have hrest : skipBlank ws = [] := by
    have hnil := skipBlank_append hws []
    rw [List.append_nil] at hnil
    exact hnil
  rw [loads, hskip]
  unfold dumps at hread ⊢
  rw [hread, ok_bind]
  dsimp only
  rw [if_pos hrest]
  rfl

/-- A value that can be read back is, from a text with nothing after it. -/
theorem loads_dumps_written (v : Json) (hv : Written v) (hd : v.nesting ≤ Nesting.limit) :
    loads (dumps style v) = .ok v := by
  have h : loads (dumps style v ++ []) = .ok v := loads_dumps_blank style v hv hd (by simp)
  rw [List.append_nil] at h
  exact h

/-- **What is written is read back.** -/
theorem loads_dumps (v : Json) (hv : Plain v) (hd : v.nesting ≤ 16) :
    loads (dumps style v) = .ok v :=
  loads_dumps_written style v hv.written (Nat.le_trans hd Nesting.enough)

end

/-! ## The characters of a text on one line

Nothing that is written without indentation is a control character, so that such a text is one line.
-/

/-- Neither a control character nor, under `ensure_ascii`, one that is not ASCII. -/
def Printable (ascii : Bool) (c : Char) : Prop :=
  0x20 ≤ c.toNat ∧ (ascii = true → c.toNat ≤ 0x7e)

/-- The printable characters of ASCII are so in either mode. -/
theorem printable_of_ascii {c : Char} (hlow : 0x20 ≤ c.toNat) (hhigh : c.toNat ≤ 0x7e)
    (ascii : Bool) : Printable ascii c :=
  ⟨hlow, fun _ => hhigh⟩

theorem digitChar_printable (ascii : Bool) (d : Nat) : Printable ascii d.digitChar := by
  have hsmall : ∀ d < 16, 0x20 ≤ d.digitChar.toNat ∧ d.digitChar.toNat ≤ 0x7e := by decide
  by_cases hd : d < 16
  · exact printable_of_ascii (hsmall d hd).1 (hsmall d hd).2 ascii
  · have hstar : d.digitChar = '*' := by
      unfold Nat.digitChar
      iterate 16 rw [if_neg (by omega)]
    rw [hstar]
    exact printable_of_ascii (by decide) (by decide) ascii

/-- An escape is made of ASCII characters. -/
theorem unicodeEscape_printable (ascii : Bool) (n : Nat) :
    ∀ c ∈ unicodeEscape n, Printable ascii c := by
  have hslash : Printable ascii '\\' := printable_of_ascii (by decide) (by decide) ascii
  have hu : Printable ascii 'u' := printable_of_ascii (by decide) (by decide) ascii
  have hhex : ∀ m, ∀ c ∈ hexDigits m, Printable ascii c := by
    intro m c hc
    simp only [hexDigits, List.mem_cons, List.not_mem_nil, or_false] at hc
    rcases hc with rfl | rfl | rfl | rfl <;> exact digitChar_printable ascii _
  intro c hc
  unfold unicodeEscape at hc
  split at hc
  · rcases List.mem_cons.mp hc with rfl | hc
    · exact hslash
    rcases List.mem_cons.mp hc with rfl | hc
    · exact hu
    exact hhex _ c hc
  · simp only [List.cons_append, List.mem_cons, List.mem_append] at hc
    rcases hc with rfl | rfl | hc | rfl | rfl | hc
    · exact hslash
    · exact hu
    · exact hhex _ c hc
    · exact hslash
    · exact hu
    · exact hhex _ c hc

/-- A character is written as printable ones. -/
theorem escapeChar_printable (ascii : Bool) (c : Char) :
    ∀ d ∈ escapeChar ascii c, Printable ascii d := by
  have hpair : ∀ {e : Char}, 0x20 ≤ e.toNat → e.toNat ≤ 0x7e →
      ∀ d ∈ ['\\', e], Printable ascii d := by
    intro e hlow hhigh d hd
    simp only [List.mem_cons, List.not_mem_nil, or_false] at hd
    rcases hd with rfl | rfl
    · exact printable_of_ascii (by decide) (by decide) ascii
    · exact printable_of_ascii hlow hhigh ascii
  unfold escapeChar
  split
  · exact hpair (by decide) (by decide)
  split
  · exact hpair (by decide) (by decide)
  split
  · exact hpair (by decide) (by decide)
  split
  · exact hpair (by decide) (by decide)
  split
  · exact hpair (by decide) (by decide)
  split
  · exact hpair (by decide) (by decide)
  split
  · exact hpair (by decide) (by decide)
  split
  · exact unicodeEscape_printable ascii _
  · next hplain =>
    -- the character stands for itself
    intro d hd
    rw [List.mem_singleton.mp hd]
    rw [not_or, not_and] at hplain
    exact ⟨by omega, fun h => Nat.not_lt.mp (hplain.2 h)⟩

theorem escapePoint_printable (ascii : Bool) (p : CodePoint) :
    ∀ d ∈ escapePoint ascii p, Printable ascii d := by
  cases p with
  | char c => exact escapeChar_printable ascii c
  | surrogate n =>
    have hn := n.isLt
    have h := unicodeEscape_printable ascii (0xd800 + n)
    rw [unicodeEscape, if_pos (by omega)] at h
    exact h

theorem quote_printable (ascii : Bool) (s : PyStr) : ∀ c ∈ quote ascii s, Printable ascii c := by
  have hquote : Printable ascii '"' := printable_of_ascii (by decide) (by decide) ascii
  intro c hc
  simp only [quote, List.cons_append, List.mem_cons, List.mem_append, List.mem_flatMap,
    List.not_mem_nil, or_false] at hc
  rcases hc with rfl | ⟨d, -, hd⟩ | rfl
  · exact hquote
  · exact escapePoint_printable ascii d c hd
  · exact hquote

/-- The text of an integer is printable. -/
theorem dumpsInt_printable (ascii : Bool) (i : Int) : ∀ c ∈ dumpsInt i, Printable ascii c := by
  have hdigits : ∀ n, ∀ c ∈ Nat.toDigits 10 n, Printable ascii c := by
    intro n c hc
    have hdigit : c.isDigit = true := Nat.isDigit_of_mem_toDigits (by omega) (by omega) hc
    simp only [Char.isDigit, Bool.and_eq_true, decide_eq_true_eq, ge_iff_le,
      UInt32.le_iff_toNat_le] at hdigit
    have hlow : 48 ≤ c.toNat := hdigit.1
    have hhigh : c.toNat ≤ 57 := hdigit.2
    exact printable_of_ascii (by omega) (by omega) ascii
  intro c hc
  unfold dumpsInt at hc
  split at hc
  · rcases List.mem_cons.mp hc with rfl | hc
    · exact printable_of_ascii (by decide) (by decide) ascii
    · exact hdigits _ c hc
  · exact hdigits _ c hc

/-- The characters of arrays and objects are printable. -/
theorem punctuation_printable (ascii : Bool) :
    ∀ c ∈ [',', ':', '[', ']', '{', '}'], Printable ascii c := by
  intro c hc
  simp only [List.mem_cons, List.not_mem_nil, or_false] at hc
  rcases hc with rfl | rfl | rfl | rfl | rfl | rfl <;>
    exact printable_of_ascii (by decide) (by decide) ascii

theorem blanks_printable (ascii : Bool) (n : Nat) :
    ∀ c ∈ List.replicate n ' ', Printable ascii c := by
  intro c hc
  rw [List.eq_of_mem_replicate hc]
  exact printable_of_ascii (by decide) (by decide) ascii

/-- A word of printable ASCII characters. -/
theorem word_printable (ascii : Bool) (text : List Char)
    (h : (text.all fun c => 0x20 ≤ c.toNat ∧ c.toNat ≤ 0x7e) = true) :
    ∀ c ∈ text, Printable ascii c := by
  intro c hc
  have hc := of_decide_eq_true (List.all_eq_true.mp h c hc)
  exact printable_of_ascii hc.1 hc.2 ascii

section

variable {style : JsonStyle} (hindent : style.indent = none)
include hindent

/-- Without indentation there is no line break. -/
theorem newline_printable (depth : Nat) :
    ∀ c ∈ newline style depth, Printable style.ascii c := by
  intro c hc
  simp [newline, hindent] at hc

theorem itemSeparator_printable (depth : Nat) :
    ∀ c ∈ itemSeparator style depth, Printable style.ascii c := by
  rw [itemSeparator, List.cons_append, List.forall_mem_cons, List.forall_mem_append]
  exact ⟨punctuation_printable _ ',' (by simp), blanks_printable _ _,
    newline_printable hindent depth⟩

omit hindent in
theorem keySeparator_printable : ∀ c ∈ keySeparator style, Printable style.ascii c := by
  rw [keySeparator, List.forall_mem_cons]
  exact ⟨punctuation_printable _ ':' (by simp), blanks_printable _ _⟩

mutual

/-- A value is written in printable characters, at any depth. -/
theorem dumpsAt_printable : ∀ (v : Json) (depth : Nat), Plain v →
    ∀ c ∈ dumpsAt style depth v, Printable style.ascii c
  | null, _, _ => word_printable _ ['n', 'u', 'l', 'l'] (by decide)
  | bool true, _, _ => word_printable _ ['t', 'r', 'u', 'e'] (by decide)
  | bool false, _, _ => word_printable _ ['f', 'a', 'l', 's', 'e'] (by decide)
  | int i, _, _ => dumpsInt_printable _ i
  | float _, _, hv => absurd hv (by simp [Plain])
  | str s, _, _ => quote_printable _ s
  | arr [], _, _ => word_printable _ ['[', ']'] (by decide)
  | arr (v :: vs), depth, hv => by
    simp only [dumpsAt, List.cons_append, List.forall_mem_cons, List.forall_mem_append]
    have hopen := punctuation_printable style.ascii '[' (by simp)
    have hclose := punctuation_printable style.ascii ']' (by simp)
    exact ⟨hopen, ⟨⟨⟨newline_printable hindent _, dumpsAt_printable v _ hv.1⟩,
      dumpsItems_printable vs _ hv.2⟩, newline_printable hindent _⟩, hclose, by simp⟩
  | obj [], _, _ => word_printable _ ['{', '}'] (by decide)
  | obj ((k, v) :: fs), depth, hv => by
    simp only [dumpsAt, List.cons_append, List.forall_mem_cons, List.forall_mem_append]
    have hopen := punctuation_printable style.ascii '{' (by simp)
    have hclose := punctuation_printable style.ascii '}' (by simp)
    exact ⟨hopen, ⟨⟨⟨⟨⟨newline_printable hindent _, quote_printable _ k⟩,
      keySeparator_printable⟩, dumpsAt_printable v _ hv.2.1⟩, dumpsFields_printable fs _ hv.2.2⟩,
      newline_printable hindent _⟩, hclose, by simp⟩

theorem dumpsItems_printable : ∀ (vs : List Json) (depth : Nat), PlainItems vs →
    ∀ c ∈ dumpsItems style depth vs, Printable style.ascii c
  | [], _, _ => by simp [dumpsItems]
  | v :: vs, depth, hv => by
    simp only [dumpsItems, List.forall_mem_append]
    exact ⟨⟨itemSeparator_printable hindent _, dumpsAt_printable v _ hv.1⟩,
      dumpsItems_printable vs _ hv.2⟩

theorem dumpsFields_printable : ∀ (fs : List (PyStr × Json)) (depth : Nat), PlainFields fs →
    ∀ c ∈ dumpsFields style depth fs, Printable style.ascii c
  | [], _, _ => by simp [dumpsFields]
  | (k, v) :: fs, depth, hv => by
    simp only [dumpsFields, List.forall_mem_append]
    exact ⟨⟨⟨⟨itemSeparator_printable hindent _, quote_printable _ k⟩, keySeparator_printable⟩,
      dumpsAt_printable v _ hv.1⟩, dumpsFields_printable fs _ hv.2⟩

end

/-- **A text without indentation is one line**, and an ASCII one under `ensure_ascii`. -/
theorem dumps_printable {v : Json} (hv : Plain v) :
    ∀ c ∈ dumps style v, Printable style.ascii c :=
  dumpsAt_printable hindent v 0 hv

end

end Json

end Rave
