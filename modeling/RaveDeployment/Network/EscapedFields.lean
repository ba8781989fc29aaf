import RaveDeployment.Network.ScanText

/-!
# Splitting and escaping of terse fields

`_split_escaped_fields` on any line at all. `splitEscapedFields_inverse`: it undoes the escaping of
any fields, ends a field at every separator and at no other character, and drops no character but
separators and active escapes.
-/

namespace Rave

open Py

/-- The last of the characters before a position, which come last first, is an active escape: a
backslash that is not itself escaped. -/
def escaping : List Char → Bool
  | [] => false
  | c :: before => c = '\\' && !escaping before

def separators (before : List Char) : List Char → Nat
  | [] => 0
  | c :: cs => (if c = ':' ∧ escaping before = false then 1 else 0) + separators (c :: before) cs

/-- The text without its active escapes. One at the very end escapes nothing and stays. -/
def withoutEscapes (before : List Char) : List Char → List Char
  | [] => []
  | c :: cs =>
    (if c = '\\' ∧ escaping before = false ∧ cs ≠ [] then [] else [c]) ++
      withoutEscapes (c :: before) cs

/-- The fields with each `:` and `\` escaped, joined with colons. -/
def escapedLine (fields : List String) : String :=
  String.ofList (List.intercalate [':'] (fields.map fun field => escapeField field.toList))

theorem escaping_of_escaped {before : List Char} (h : escaping before = true) (c : Char) :
    escaping (c :: before) = false := by
  rw [escaping, h]
  simp

/-- A backslash that is not escaped does. -/
theorem escaping_backslash {before : List Char} (h : escaping before = false) :
    escaping ('\\' :: before) = true := by
  rw [escaping, h]
  rfl

theorem escaping_of_ne {c : Char} (h : c ≠ '\\') (before : List Char) :
    escaping (c :: before) = false := by
  rw [escaping]
  simp [h]

/-- There is at least one field. -/
theorem splitEscapedChars_ne_nil (current : List Char) (escaped : Bool) (cs : List Char) :
    splitEscapedChars current escaped cs ≠ [] := by
  fun_induction splitEscapedChars current escaped cs with
  | case1 => exact List.cons_ne_nil _ _
  | case2 => assumption
  | case3 => assumption
  | case4 => exact List.cons_ne_nil _ _
  | case5 => assumption

/-- One field more than separators. -/
theorem length_splitEscapedChars (cs current before : List Char) :
    (splitEscapedChars current (escaping before) cs).length = separators before cs + 1 := by
  induction cs generalizing current before with
  | nil => rfl
  | cons c cs ih =>
    rw [splitEscapedChars, separators]
    cases hescaping : escaping before with
    | true =>
      -- an escaped colon ends no field
      have hrest := ih (current ++ [c]) (c :: before)
      rw [escaping_of_escaped hescaping] at hrest
      rw [if_pos rfl, hrest, if_neg (by simp)]
      omega
    | false =>
      rw [if_neg (by simp)]
      by_cases hslash : c = '\\'
      · have hrest := ih current ('\\' :: before)
        rw [escaping_backslash hescaping] at hrest
        rw [if_pos hslash, hslash, hrest, if_neg (by decide)]
        omega
      · rw [if_neg hslash]
        have hplain := escaping_of_ne hslash before
        by_cases hcolon : c = ':'
        · have hrest := ih [] (c :: before)
          rw [hplain] at hrest
          rw [if_pos hcolon, List.length_cons, hrest, if_pos ⟨hcolon, rfl⟩]
          omega
        · have hrest := ih (current ++ [c]) (c :: before)
          rw [hplain] at hrest
          rw [if_neg hcolon, hrest, if_neg (fun h => hcolon h.1)]
          omega

/-- Fields joined by a separator, from the first one on. -/
theorem intercalate_cons_of_ne_nil (sep field : List Char) {fields : List (List Char)}
    (h : fields ≠ []) :
    List.intercalate sep (field :: fields) = field ++ sep ++ List.intercalate sep fields := by
  cases fields with
  | nil => exact absurd rfl h
  | cons next fields => rw [List.intercalate_cons_cons]

/-- Joined again, the fields are the text without its escapes; a backslash that is pending belongs
to what comes next. -/
theorem intercalate_splitEscapedChars (cs current before : List Char) :
    List.intercalate [':'] (splitEscapedChars current (escaping before) cs)
      = current ++ (if escaping before = true ∧ cs = [] then ['\\'] else []) ++
        withoutEscapes before cs := by
  induction cs generalizing current before with
  | nil =>
    rw [splitEscapedChars, List.intercalate_singleton, withoutEscapes, List.append_nil]
    cases escaping before with
    | true => rfl
    | false => simp
  | cons c cs ih =>
    have hpending : ¬(escaping before = true ∧ c :: cs = []) := by simp
    rw [splitEscapedChars, withoutEscapes, if_neg hpending, List.append_nil]
    cases hescaping : escaping before with
    | true =>
      -- an escaped character stands for itself, be it a colon or a backslash
      have hrest := ih (current ++ [c]) (c :: before)
      rw [escaping_of_escaped hescaping, if_neg (by simp), List.append_nil] at hrest
      rw [if_pos rfl, hrest, if_neg (by simp), List.append_assoc]
    | false =>
      rw [if_neg (by simp)]
      by_cases hslash : c = '\\'
      · have hrest := ih current ('\\' :: before)
        rw [escaping_backslash hescaping] at hrest
        rw [if_pos hslash, hslash, hrest]
        by_cases hend : cs = []
        · rw [if_pos ⟨rfl, hend⟩, if_neg (by simp [hend]), List.append_assoc]
        · rw [if_neg (fun h => hend h.2), if_pos ⟨rfl, rfl, hend⟩, List.append_nil]
          rfl
      · have hkept : ¬(c = '\\' ∧ false = false ∧ cs ≠ []) := fun h => hslash h.1
        rw [if_neg hslash, if_neg hkept]
        have hplain := escaping_of_ne hslash before
        by_cases hcolon : c = ':'
        · have hrest := ih [] (c :: before)
          rw [hplain, if_neg (by simp), List.append_nil, List.nil_append] at hrest
          rw [if_pos hcolon, intercalate_cons_of_ne_nil _ _ (splitEscapedChars_ne_nil _ _ _),
            hrest, hcolon, List.append_assoc]
        · have hrest := ih (current ++ [c]) (c :: before)
          rw [hplain, if_neg (by simp), List.append_nil] at hrest
          rw [if_neg hcolon, hrest, List.append_assoc]

/-- What was escaped is split into the fields it was made of. -/
theorem splitEscapedFields_escapedLine {fields : List String} (hne : fields ≠ []) :
    splitEscapedFields (escapedLine fields) = fields := by
  have hchars : fields.map (fun field => escapeField field.toList)
      = (fields.map String.toList).map escapeField := by
    rw [List.map_map]
    rfl
  have hne' : fields.map String.toList ≠ [] := by simpa using hne
  unfold splitEscapedFields escapedLine
  rw [String.toList_ofList, hchars, splitEscapedChars_intercalate _ hne', List.map_map]
  have hid : String.ofList ∘ String.toList = id := funext fun s => String.ofList_toList
  rw [hid, List.map_id]

theorem splitEscapedFields_ne_nil (line : String) : splitEscapedFields line ≠ [] := by
  unfold splitEscapedFields
  simpa using splitEscapedChars_ne_nil [] false line.toList

/-- **Splitting inverts escaping, and loses nothing but escapes on any line.** -/
theorem splitEscapedFields_inverse :
    (∀ fields : List String, fields ≠ [] → splitEscapedFields (escapedLine fields) = fields) ∧
    ∀ line : String, (splitEscapedFields line).length = separators [] line.toList + 1 ∧
      splitEscapedFields (escapedLine (splitEscapedFields line)) = splitEscapedFields line ∧
      List.intercalate [':'] ((splitEscapedFields line).map String.toList)
        = withoutEscapes [] line.toList := by
  refine ⟨fun fields hne => splitEscapedFields_escapedLine hne, ?_⟩
  intro line
  refine ⟨?_, splitEscapedFields_escapedLine (splitEscapedFields_ne_nil line), ?_⟩
  · have hlength := length_splitEscapedChars line.toList [] []
    rw [splitEscapedFields, List.length_map]
    exact hlength
  · have hjoined := intercalate_splitEscapedChars line.toList [] []
    have hid : String.toList ∘ String.ofList = id := funext fun l => String.toList_ofList
    rw [splitEscapedFields, List.map_map, hid, List.map_id]
    exact hjoined

/-- Fields with a colon and with a backslash at the end. -/
theorem splitEscapedFields_inverse_labNet :
    splitEscapedFields (escapedLine ["lab:net", "", "70\\"]) = ["lab:net", "", "70\\"] :=
  splitEscapedFields_inverse.1 _ (by simp)

end Rave
