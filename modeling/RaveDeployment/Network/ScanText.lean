import RaveDeployment.Network.Scan
import RaveDeployment.Python.Decimal

/-!
# A scan and the rows that were printed

How `nmcli` prints access points with `--terse --escape yes`, and what the scan reads back.
`readBack_iff`: every row is read back as itself if and only if no field contains a character at
which `str.splitlines` ends a line.
-/

namespace Rave

open Py

/-- A row of `nmcli device wifi list`. -/
structure Row where
  ssid : String
  signal : Int
  security : String
  inUse : String

namespace Row

/-- The four fields of a row, as they are printed. -/
def fields (r : Row) : List (List Char) :=
  [r.ssid.toList, decimalText r.signal, r.security.toList, r.inUse.toList]

end Row

/-- Each `:` and `\` is preceded by `\`. -/
def escapeField (field : List Char) : List Char :=
  field.flatMap fun c => if c = ':' ∨ c = '\\' then ['\\', c] else [c]

/-- The line that `nmcli` prints. -/
def Row.line (r : Row) : List Char :=
  List.intercalate [':'] (r.fields.map escapeField)

def printedRows (rows : List Row) : List Char :=
  rows.flatMap fun r => r.line ++ ['\n']

/-! ## One line

A row is printed field by field and split into the fields it was printed from. -/

/-- An escaped field is read back behind what has been read. -/
theorem splitEscapedChars_escapeField (field current rest : List Char) :
    splitEscapedChars current false (escapeField field ++ rest)
      = splitEscapedChars (current ++ field) false rest := by
  induction field generalizing current with
  | nil => rw [List.append_nil]; rfl
  | cons c field ih =>
    have hcurrent : current ++ c :: field = current ++ [c] ++ field := by
      rw [List.append_assoc]
      rfl
    have hcons : escapeField (c :: field)
        = (if c = ':' ∨ c = '\\' then ['\\', c] else [c]) ++ escapeField field := by
      rw [escapeField, List.flatMap_cons]
      rfl
    rw [hcons, hcurrent, ← ih]
    split
    · -- the backslash makes the character a plain one
      show splitEscapedChars current false ('\\' :: c :: (escapeField field ++ rest)) = _
      rw [splitEscapedChars, if_neg (by decide), if_pos rfl, splitEscapedChars, if_pos rfl]
    · next hplain =>
      obtain ⟨hcolon, hbackslash⟩ := not_or.mp hplain
      show splitEscapedChars current false (c :: (escapeField field ++ rest)) = _
      rw [splitEscapedChars, if_neg (by decide), if_neg hbackslash, if_neg hcolon]

theorem splitEscapedChars_colon (current rest : List Char) :
    splitEscapedChars current false (':' :: rest) = current :: splitEscapedChars [] false rest := by
  rw [splitEscapedChars, if_neg (by decide), if_neg (by decide), if_pos rfl]

/-- **The fields of a line are the fields that were printed.** -/
theorem splitEscapedChars_intercalate (fields : List (List Char)) (hne : fields ≠ []) :
    splitEscapedChars [] false (List.intercalate [':'] (fields.map escapeField)) = fields := by
  induction fields with
  | nil => exact absurd rfl hne
  | cons field fields ih =>
    cases fields with
    | nil =>
      have hfield := splitEscapedChars_escapeField field [] []
      rw [List.append_nil] at hfield
      rw [List.map_singleton, List.intercalate_singleton, hfield]
      rfl
    | cons next fields =>
      have hrest := ih (List.cons_ne_nil next fields)
      rw [List.map_cons, List.map_cons, List.intercalate_cons_cons, ← List.map_cons,
        List.append_assoc, splitEscapedChars_escapeField, List.singleton_append,
        splitEscapedChars_colon, hrest]
      rfl

/-- A line is split into the fields of its row. -/
theorem splitEscapedFields_line (r : Row) : splitEscapedFields (String.ofList r.line)
    = [r.ssid, String.ofList (decimalText r.signal), r.security, r.inUse] := by
  unfold splitEscapedFields Row.line
  have hne : r.fields ≠ [] := List.cons_ne_nil _ _
  rw [String.toList_ofList, splitEscapedChars_intercalate _ hne]
  simp only [Row.fields, List.map_cons, List.map_nil, String.ofList_toList]

section

variable [PyUnicode]

/-- The access point of a row, if the row is one. -/
def Row.accessPoint (r : Row) : Option AccessPoint :=
  match validateSsid r.ssid with
  | .ok _ =>
    if 0 ≤ r.signal ∧ r.signal ≤ 100 then
      some
        { ssid := r.ssid
          signalPercent := r.signal
          security := (classifySecurity r.security).1
          connected := r.inUse = "*"
          keyManagement := (classifySecurity r.security).2 }
    else none
  | .error _ => none

omit [PyUnicode] in
/-- A percentage is short enough for `int`. -/
theorem length_toDigits_of_signal {n : Int} (h : 0 ≤ n ∧ n ≤ 100) :
    (Nat.toDigits 10 n.natAbs).length ≤ maxIntDigits := by
  have hsmall : n.natAbs < 10 ^ 3 := by omega
  have hlen := (Nat.length_toDigits_le_iff (b := 10) (by decide) (show 0 < 3 by decide)).mpr hsmall
  exact Nat.le_trans hlen (by decide)

/-- The line of a row is parsed as its access point. -/
theorem parseAccessPoint_line (hascii : AsciiDecimals) (r : Row) :
    parseAccessPoint (String.ofList r.line) = r.accessPoint := by
  unfold parseAccessPoint Row.accessPoint
  rw [splitEscapedFields_line]
  dsimp only
  rw [int?_decimalText hascii]
  cases hssid : validateSsid r.ssid with
  | error e => rfl
  | ok ssid =>
    have heq : ssid = r.ssid := (validateSsid_eq_ok hssid).1
    by_cases hsignal : 0 ≤ r.signal ∧ r.signal ≤ 100
    · have hlen := length_toDigits_of_signal hsignal
      rw [if_neg (by omega)]
      dsimp only
      rw [if_pos hsignal, if_pos hsignal, heq]
    · -- a signal out of range is dropped, whether or not its digits can be read
      rw [if_neg hsignal]
      split
      · next n hssid' hn =>
        split at hn
        · exact absurd hn (by simp)
        · rw [← Option.some.inj hn]
          exact if_neg hsignal
      · rfl

end

/-! ## The lines

The printed rows are the lines again, unless a field holds a character that Python takes for the end
of a line. -/

theorem mem_escapeField {field : List Char} {c : Char} (hc : c ∈ field) :
    c ∈ escapeField field := by
  unfold escapeField
  rw [List.mem_flatMap]
  refine ⟨c, hc, ?_⟩
  split
  · simp
  · simp

theorem mem_escapeField_cases {field : List Char} {c : Char} (hc : c ∈ escapeField field) :
    c ∈ field ∨ c = '\\' := by
  obtain ⟨d, hd, hcd⟩ := List.mem_flatMap.mp hc
  split at hcd
  · rcases List.mem_cons.mp hcd with heq | hcd
    · exact Or.inr heq
    · rw [List.mem_singleton.mp hcd]
      exact Or.inl hd
  · rw [List.mem_singleton.mp hcd]
    exact Or.inl hd

/-- The characters of a line are those of its fields, with colons. -/
theorem mem_line_iff {r : Row} {c : Char} : c ∈ r.line ↔
    (∃ f ∈ r.fields, c ∈ escapeField f) ∨ c = ':' := by
  simp only [Row.line, Row.fields, List.map_cons, List.map_nil, List.intercalate_cons_cons,
    List.intercalate_singleton, List.mem_append, List.mem_cons, List.not_mem_nil, or_false]
  constructor
  · intro h
    rcases h with (h | h) | (h | h) | (h | h) | h
    · exact Or.inl ⟨r.ssid.toList, by simp, h⟩
    · exact Or.inr h
    · exact Or.inl ⟨decimalText r.signal, by simp, h⟩
    · exact Or.inr h
    · exact Or.inl ⟨r.security.toList, by simp, h⟩
    · exact Or.inr h
    · exact Or.inl ⟨r.inUse.toList, by simp, h⟩
  · intro h
    rcases h with ⟨f, hf, h⟩ | h
    · rcases hf with rfl | rfl | rfl | rfl <;> simp [h]
    · simp [h]

/-- A line has a boundary just where a field has. -/
theorem line_unbroken_iff {r : Row} : (∀ c ∈ r.line, isLineBreak c = false) ↔
    ∀ f ∈ r.fields, ∀ c ∈ f, isLineBreak c = false := by
  constructor
  · intro h f hf c hc
    exact h c (mem_line_iff.mpr (Or.inl ⟨f, hf, mem_escapeField hc⟩))
  · intro h c hc
    rcases mem_line_iff.mp hc with ⟨f, hf, hcf⟩ | heq
    · rcases mem_escapeField_cases hcf with hcf | heq
      · exact h f hf c hcf
      · rw [heq]
        decide
    · rw [heq]
      decide

variable [PyUnicode]

/-- What a scan reads back from printed rows: each row is one line, and the access points are the
rows that are access points, in order. -/
structure ReadBack (rows : List Row) : Prop where
  lines : splitLines (printedRows rows) = rows.map Row.line
  accessPoints : parsedAccessPoints (String.ofList (printedRows rows))
    = rows.filterMap Row.accessPoint

/-- **When a scan reads back what was printed.** -/
theorem readBack_iff (hascii : AsciiDecimals) (rows : List Row) :
    ReadBack rows ↔ ∀ r ∈ rows, ∀ f ∈ r.fields, ∀ c ∈ f, isLineBreak c = false := by
  constructor
  -- read back, each row is one line
  · intro h r hr
    apply line_unbroken_iff.mp
    apply isLineBreak_of_mem_splitLines (printedRows rows)
    rw [h.lines]
    exact List.mem_map_of_mem hr
  -- without breaks inside, the lines of the text are the lines of the rows
  · intro h
    have hlines : splitLines (printedRows rows) = rows.map Row.line := by
      have hflat : printedRows rows = (rows.map Row.line).flatMap fun l => l ++ ['\n'] := by
        rw [List.flatMap_map]
        rfl
      rw [hflat]
      apply splitLines_flatMap
      intro l hl
      obtain ⟨r, hr, rfl⟩ := List.mem_map.mp hl
      exact line_unbroken_iff.mpr (h r hr)
    refine ⟨hlines, ?_⟩
    unfold parsedAccessPoints splitlines
    rw [String.toList_ofList, hlines, List.map_map, List.filterMap_map]
    apply List.filterMap_congr
    intro r _
    simp only [Function.comp_apply]
    exact parseAccessPoint_line hascii r

omit [PyUnicode] in
/-- In the model of Unicode that has ASCII only, the digits are the ten. -/
theorem asciiDecimals_asciiUnicode : @AsciiDecimals asciiUnicode := by
  intro c hc
  exact if_pos hc

/-- A row with an escape, and one whose signal is no percentage. -/
def labRows : List Row :=
  [⟨"lab:net", 70, "WPA2", "*"⟩, ⟨"guest", 101, "", " "⟩]

omit [PyUnicode] in
theorem readBack_labRows : @ReadBack asciiUnicode labRows := by
  apply (@readBack_iff asciiUnicode asciiDecimals_asciiUnicode labRows).mpr
  intro r hr f hf c hc
  have hall : (labRows.all fun r => r.fields.all fun f => f.all fun c => !isLineBreak c) = true := by
    decide
  have hfields := List.all_eq_true.mp hall r hr
  have hchars := List.all_eq_true.mp hfields f hf
  have hchar := List.all_eq_true.mp hchars c hc
  simpa using hchar

/-- An SSID with a line separator is a legal one; what follows the separator is read as a network
of its own. -/
def separatorRow : Row :=
  ⟨"cafe\u2028guest", 50, "WPA2", "*"⟩

omit [PyUnicode] in
/-- A row that holds a line separator is not read back. -/
theorem not_readBack_separatorRow : ¬∀ (_ : PyUnicode), AsciiDecimals → ∀ rows : List Row,
    (∀ r ∈ rows, ∀ f ∈ r.fields, '\n' ∉ f ∧ '\r' ∉ f) →
    parsedAccessPoints (String.ofList (printedRows rows)) = rows.filterMap Row.accessPoint := by
  intro h
  have hrow := h asciiUnicode asciiDecimals_asciiUnicode [separatorRow] (by decide)
  exact absurd hrow (by decide)

end Rave
