import RaveDeployment.Lib.Dict
import RaveDeployment.Python.Text

/-!
# The package status file

The stanzas that `verify_hailo_stack` of `scripts/verify_rave_image.py` reads from the text of
`var/lib/dpkg/status`. Stanzas that are written one field a line with an empty line after each are
read back (`packageEntries_render`).
-/

namespace Rave

namespace Hailo

open Py

/-- `text.split("\n\n")`. -/
def splitBlank : List Char → List (List Char)
  | [] => [[]]
  | '\n' :: '\n' :: cs => [] :: splitBlank cs
  | c :: cs => consLine c (splitBlank cs)

/-- `line.split(": ", 1)`, where `": " in line`. -/
def splitField : List Char → Option (List Char × List Char)
  | [] => none
  | ':' :: ' ' :: value => some ([], value)
  | c :: cs => (splitField cs).map fun field => (c :: field.1, field.2)

def readField : List Char → Option (List Char × List Char)
  | [] => none
  | c :: cs => if isSpace c then none else splitField (c :: cs)

abbrev Fields : Type := List (List Char × List Char)

def packageKey : List Char := "Package".toList

/-- `fields`, of one block. -/
def readFields (block : List Char) : Fields := dictOf ((splitLines block).filterMap readField)

/-- A block that has the field `Package`, with its name. -/
def packageEntry (fields : Fields) : Option (List Char × Fields) :=
  (fields.lookup packageKey).map fun name => (name, fields)

/-- The assignments to `packages`. -/
def packageEntries (text : List Char) : List (List Char × Fields) :=
  (splitBlank text).filterMap fun block => packageEntry (readFields block)

/-- `packages`. -/
def readPackages (text : List Char) : List (List Char × Fields) := dictOf (packageEntries text)

/-! ## Writing and reading back

Stanzas of plain fields are written with a blank line between them and are read back as they were,
so that a `status` file can be given by its stanzas. -/

/-- A field that stays in its line and is found again. -/
structure FieldPlain (field : List Char × List Char) : Prop where
  key_unbroken : ∀ c ∈ field.1, isLineBreak c = false
  value_unbroken : ∀ c ∈ field.2, isLineBreak c = false
  no_colon : ':' ∉ field.1
  head : ∃ c cs, field.1 = c :: cs ∧ isSpace c = false

def renderField (field : List Char × List Char) : List Char := field.1 ++ ':' :: ' ' :: field.2

/-- The lines of a stanza, without the newline of the last one. -/
def renderLines : List (List Char × List Char) → List Char
  | [] => []
  | [field] => renderField field
  | field :: fields => renderField field ++ '\n' :: renderLines fields

/-- A field that another one follows ends with a line break. -/
theorem renderLines_cons_cons (field next : List Char × List Char)
    (rest : List (List Char × List Char)) : renderLines (field :: next :: rest) =
      renderField field ++ '\n' :: renderLines (next :: rest) := rfl

/-- A status file: each stanza, and an empty line after it. -/
def renderStanzas (stanzas : List (List (List Char × List Char))) : List Char :=
  stanzas.flatMap fun fields => renderLines fields ++ ['\n', '\n']

/-- The first colon ends the key. -/
theorem splitField_append {key : List Char} (hkey : ':' ∉ key) (value : List Char) :
    splitField (key ++ ':' :: ' ' :: value) = some (key, value) := by
  induction key with
  | nil => rfl
  | cons c cs ih =>
    rw [List.mem_cons, not_or] at hkey
    rw [List.cons_append, splitField, ih hkey.2]
    · rfl
    · intro rest hc
      exact absurd hc.symm hkey.1

variable {field : List Char × List Char}

/-- A plain field stands on one line. -/
theorem FieldPlain.unbroken (h : FieldPlain field) :
    ∀ c ∈ renderField field, isLineBreak c = false := by
  intro c hc
  rcases List.mem_append.mp hc with hc | hc
  · exact h.key_unbroken c hc
  · rcases List.mem_cons.mp hc with rfl | hc
    · rfl
    · rcases List.mem_cons.mp hc with rfl | hc
      · rfl
      · exact h.value_unbroken c hc

/-- A plain field is read back. -/
theorem FieldPlain.readField (h : FieldPlain field) :
    readField (renderField field) = some field := by
  obtain ⟨c, cs, hkey, hc⟩ := h.head
  have hsplit := splitField_append h.no_colon field.2
  rw [renderField, hkey, List.cons_append, Hailo.readField, if_neg (by simp [hc])]
  rw [hkey, List.cons_append] at hsplit
  rw [hsplit, ← hkey]

theorem renderField_ne_nil (field : List Char × List Char) : renderField field ≠ [] := by
  simp [renderField]

/-- The lines of a stanza are its fields. -/
theorem splitLines_renderLines {fields : List (List Char × List Char)}
    (h : ∀ field ∈ fields, FieldPlain field) :
    splitLines (renderLines fields) = fields.map renderField := by
  induction fields with
  | nil => rfl
  | cons field fields ih =>
    have hfield := (h field List.mem_cons_self).unbroken
    have hrest := ih fun f hf => h f (List.mem_cons_of_mem _ hf)
    cases fields with
    | nil => exact splitLines_of_unbroken (renderField_ne_nil field) hfield
    | cons next rest =>
      rw [renderLines_cons_cons, splitLines_append_newline _ _ hfield, hrest]
      rfl

/-- A stanza of plain fields is read back as a dictionary. -/
theorem readFields_renderLines {fields : List (List Char × List Char)}
    (h : ∀ field ∈ fields, FieldPlain field) : readFields (renderLines fields) = dictOf fields := by
  have hread : (fields.map renderField).filterMap readField = fields := by
    rw [List.filterMap_map]
    have hsome : ∀ field ∈ fields, (readField ∘ renderField) field = some field :=
      fun field hfield => (h field hfield).readField
    rw [List.filterMap_congr hsome, List.filterMap_some]
  rw [readFields, splitLines_renderLines h, hread]

/-- A text without newlines stays in front of what follows. -/
theorem splitBlank_append {l : List Char} (hl : '\n' ∉ l) (rest : List Char) :
    splitBlank (l ++ rest) = l.foldr consLine (splitBlank rest) := by
  induction l with
  | nil => rfl
  | cons c cs ih =>
    rw [List.mem_cons, not_or] at hl
    rw [List.cons_append, splitBlank, ih hl.2, List.foldr_cons]
    intro cs' hc
    exact absurd hc.symm hl.1

/-- Lines go to the stanza that is open. -/
theorem foldr_consLine (l block : List Char) (blocks : List (List Char)) :
    l.foldr consLine (block :: blocks) = (l ++ block) :: blocks := by
  induction l with
  | nil => rfl
  | cons c cs ih =>
    rw [List.foldr_cons, ih]
    rfl

theorem newline_not_mem {l : List Char} (h : ∀ c ∈ l, isLineBreak c = false) : '\n' ∉ l := by
  intro hmem
  exact absurd (h _ hmem) (by decide)

/-- A stanza does not begin with a line break, which would end it. -/
theorem renderLines_head {next : List Char × List Char} {rest : List (List Char × List Char)}
    (h : ∀ field ∈ next :: rest, FieldPlain field) :
    ∃ c cs, renderLines (next :: rest) = c :: cs ∧ c ≠ '\n' := by
  obtain ⟨c, cs, hkey, hc⟩ := (h next List.mem_cons_self).head
  have hnewline : c ≠ '\n' := by
    rintro rfl
    exact absurd hc (by decide)
  cases rest with
  | nil => exact ⟨c, _, by rw [renderLines, renderField, hkey, List.cons_append], hnewline⟩
  | cons field fields =>
    exact ⟨c, _, by rw [renderLines_cons_cons, renderField, hkey, List.cons_append,
      List.cons_append], hnewline⟩

/-- A stanza is the first block. -/
theorem splitBlank_renderLines {fields : List (List Char × List Char)} (hne : fields ≠ [])
    (h : ∀ field ∈ fields, FieldPlain field) (rest : List Char) :
    splitBlank (renderLines fields ++ '\n' :: '\n' :: rest) =
      renderLines fields :: splitBlank rest := by
  induction fields with
  | nil => exact absurd rfl hne
  | cons field fields ih =>
    have hfield := newline_not_mem (h field List.mem_cons_self).unbroken
    -- the last field is followed by the blank line, any other one by a line that is not blank
    cases fields with
    | nil =>
      rw [renderLines, splitBlank_append hfield]
      show (renderField field).foldr consLine ([] :: splitBlank rest) = _
      rw [foldr_consLine, List.append_nil]
    | cons next more =>
      have hrest := ih (List.cons_ne_nil _ _) fun f hf => h f (List.mem_cons_of_mem _ hf)
      obtain ⟨c, cs, hhead, hc⟩ := renderLines_head
        fun f (hf : f ∈ next :: more) => h f (List.mem_cons_of_mem _ hf)
      rw [renderLines_cons_cons, List.append_assoc, splitBlank_append hfield, List.cons_append]
      have hcons : splitBlank ('\n' :: (renderLines (next :: more) ++ '\n' :: '\n' :: rest)) =
          consLine '\n' (splitBlank (renderLines (next :: more) ++ '\n' :: '\n' :: rest)) := by
        rw [hhead, List.cons_append, splitBlank]
        intro cs' _ hcs
        exact hc (List.cons.inj hcs).1
      rw [hcons, hrest]
      show (renderField field).foldr consLine (('\n' :: renderLines (next :: more)) :: splitBlank rest)
        = _
      rw [foldr_consLine]

/-- **Written stanzas are read back**, up to the ones without a name. -/
theorem packageEntries_render {stanzas : List (List (List Char × List Char))}
    (hne : ∀ fields ∈ stanzas, fields ≠ [])
    (h : ∀ fields ∈ stanzas, ∀ field ∈ fields, FieldPlain field) :
    packageEntries (renderStanzas stanzas) =
      stanzas.filterMap fun fields => packageEntry (dictOf fields) := by
  induction stanzas with
  | nil => rfl
  | cons fields stanzas ih =>
    have hfields := h fields List.mem_cons_self
    have hrest := ih (fun f hf => hne f (List.mem_cons_of_mem _ hf))
      fun f hf => h f (List.mem_cons_of_mem _ hf)
    have hsplit : splitBlank (renderStanzas (fields :: stanzas)) =
        renderLines fields :: splitBlank (renderStanzas stanzas) := by
      rw [renderStanzas, List.flatMap_cons, List.append_assoc]
      exact splitBlank_renderLines (hne fields List.mem_cons_self) hfields _
    rw [packageEntries, hsplit, List.filterMap_cons, List.filterMap_cons,
      readFields_renderLines hfields, ← hrest]
    rfl

end Hailo

end Rave
