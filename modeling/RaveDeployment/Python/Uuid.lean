import RaveDeployment.Python.Text

/-!
# UUIDs as text

`uuid.UUID(text)` and `str(uuid)`. A `Uuid` is its 32 hexadecimal digits; `Uuid.text` is the
canonical lower-case form with hyphens, and `uuidOf?` the constructor: URN prefixes, braces and
hyphens are optional, anything else than 32 digits raises `ValueError`.
-/

namespace Rave

open Py

instance neZero_sixteen : @NeZero Nat Zero.ofOfNat0 16 := ⟨by decide⟩

/-- A UUID: 32 hexadecimal digits. -/
structure Uuid where
  digits : List (Fin 16)
  length_eq : digits.length = 32
  deriving DecidableEq

def hexChar (d : Fin 16) : Char :=
  if d.val < 10 then Char.ofNat (48 + d.val) else Char.ofNat (87 + d.val)

def hexValue? (c : Char) : Option (Fin 16) :=
  (List.finRange 16).find? fun d => hexChar d = c ∨ (hexChar d).toUpper = c

theorem hexValue?_hexChar : ∀ d : Fin 16, hexValue? (hexChar d) = some d := by
  decide

namespace Uuid

/-- The canonical form, `8-4-4-4-12`. -/
def chars (u : Uuid) : List Char :=
  let h := u.digits.map hexChar
  h.take 8 ++ '-' :: ((h.drop 8).take 4 ++ '-' :: ((h.drop 12).take 4 ++ '-' ::
    ((h.drop 16).take 4 ++ '-' :: h.drop 20)))

/-- `str(uuid)`. -/
def text (u : Uuid) : String :=
  String.ofList u.chars

@[simp] theorem toList_text (u : Uuid) : u.text.toList = u.chars := by
  simp [text]

/-- `uuid.UUID(text)`, or nothing where it raises `ValueError`. -/
def ofChars? (l : List Char) : Option Uuid :=
  let unprefixed := removeAll "uuid:".toList 0 (removeAll "urn:".toList 0 l)
  let hex := (stripChars (fun c => c = '{' ∨ c = '}') unprefixed).filter (· ≠ '-')
  match hex.mapM hexValue? with
  | none => none
  | some ds => if h : ds.length = 32 then some ⟨ds, h⟩ else none

/-! ## Reading back the canonical form

What `UUID` accepts of the form that `nmcli` prints, and makes of it. -/

/-- Every character of the canonical form is a lower-case digit or a hyphen. -/
theorem mem_chars {u : Uuid} {c : Char} (h : c ∈ u.chars) : c = '-' ∨ ∃ d, c = hexChar d := by
  have hdigit : ∀ l : List Char, l.Sublist (u.digits.map hexChar) → c ∈ l → ∃ d, c = hexChar d := by
    intro l hl hc
    obtain ⟨d, _, hd⟩ := List.mem_map.mp (hl.subset hc)
    exact ⟨d, hd.symm⟩
  simp only [chars, List.mem_append, List.mem_cons] at h
  rcases h with h | h | h | h | h | h | h | h | h
  · exact .inr (hdigit _ (List.take_sublist _ _) h)
  · exact .inl h
  · exact .inr (hdigit _ ((List.take_sublist _ _).trans (List.drop_sublist _ _)) h)
  · exact .inl h
  · exact .inr (hdigit _ ((List.take_sublist _ _).trans (List.drop_sublist _ _)) h)
  · exact .inl h
  · exact .inr (hdigit _ ((List.take_sublist _ _).trans (List.drop_sublist _ _)) h)
  · exact .inl h
  · exact .inr (hdigit _ (List.drop_sublist _ _) h)

theorem not_mem_chars {u : Uuid} {c : Char} (hc : c ≠ '-')
    (hd : ∀ d : Fin 16, hexChar d ≠ c) : c ∉ u.chars := by
  intro h
  rcases mem_chars h with rfl | ⟨d, rfl⟩
  · exact hc rfl
  · exact hd d rfl

/-- None of them ends a line. -/
theorem isLineBreak_of_mem_chars {u : Uuid} {c : Char} (h : c ∈ u.chars) :
    isLineBreak c = false := by
  have hhex : ∀ d : Fin 16, isLineBreak (hexChar d) = false := by decide
  rcases mem_chars h with rfl | ⟨d, rfl⟩
  · decide
  · exact hhex d

/-- Removing the hyphens leaves the 32 digits. -/
theorem filter_chars (u : Uuid) : u.chars.filter (· ≠ '-') = u.digits.map hexChar := by
  have hhex : ∀ d : Fin 16, hexChar d ≠ '-' := by decide
  have hkeep : ∀ l : List Char, l.Sublist (u.digits.map hexChar) →
      l.filter (· ≠ '-') = l := by
    intro l hl
    refine List.filter_eq_self.mpr fun c hc => ?_
    obtain ⟨d, _, rfl⟩ := List.mem_map.mp (hl.subset hc)
    simpa using hhex d
  set h := u.digits.map hexChar with hh
  have e1 := hkeep _ (List.take_sublist 8 h)
  have e2 := hkeep _ ((List.take_sublist 4 _).trans (List.drop_sublist 8 h))
  have e3 := hkeep _ ((List.take_sublist 4 _).trans (List.drop_sublist 12 h))
  have e4 := hkeep _ ((List.take_sublist 4 _).trans (List.drop_sublist 16 h))
  have e5 := hkeep _ (List.drop_sublist 20 h)
  have hsplit : ∀ n, h.drop n = (h.drop n).take 4 ++ h.drop (n + 4) := fun n => by
    rw [← List.drop_drop, List.take_append_drop]
  have hyphen : ∀ l : List Char, ('-' :: l).filter (· ≠ '-') = l.filter (· ≠ '-') := by
    intro l
    simp
  simp only [chars, List.filter_append, hyphen, e1, e2, e3, e4, e5, ← hh]
  rw [← hsplit 16, ← hsplit 12, ← hsplit 8, List.take_append_drop]

theorem mapM_hexValue? (ds : List (Fin 16)) : (ds.map hexChar).mapM hexValue? = some ds := by
  induction ds with
  | nil => rfl
  | cons d ds ih => simp [List.mapM_cons, hexValue?_hexChar, ih]

/-- No brace stands at either end of the canonical form. -/
theorem strip_chars (u : Uuid) :
    stripChars (fun c => c = '{' ∨ c = '}') u.chars = u.chars := by
  have hmem : ∀ c ∈ u.chars, (decide (c = '{' ∨ c = '}')) = false := by
    intro c hc
    have hhex : ∀ d : Fin 16, decide (hexChar d = '{' ∨ hexChar d = '}') = false := by decide
    rcases mem_chars hc with rfl | ⟨d, rfl⟩
    · decide
    · exact hhex d
  exact stripChars_of_ends (fun c hc => hmem c (List.mem_of_mem_head? hc))
    fun c hc => hmem c (List.mem_of_mem_getLast? hc)

/-- **Round trip.** The constructor reads the canonical form back. -/
theorem ofChars?_chars (u : Uuid) : ofChars? u.chars = some u := by
  have hu : ∀ d : Fin 16, hexChar d ≠ 'u' := by decide
  have hmem : 'u' ∉ u.chars := not_mem_chars (by decide) hu
  have hurn : removeAll "urn:".toList 0 u.chars = u.chars := removeAll_of_not_mem hmem
  have huuid : removeAll "uuid:".toList 0 u.chars = u.chars := removeAll_of_not_mem hmem
  unfold ofChars?
  simp only [hurn, huuid, strip_chars, filter_chars, mapM_hexValue?, u.length_eq, dif_pos]

/-- The canonical forms of two UUIDs differ. -/
theorem text_injective : Function.Injective text := by
  intro u v h
  have hc : u.chars = v.chars := by
    rw [← toList_text, ← toList_text, h]
  have hs : some u = some v := by
    rw [← ofChars?_chars u, ← ofChars?_chars v, hc]
  exact Option.some.inj hs

end Uuid

end Rave
