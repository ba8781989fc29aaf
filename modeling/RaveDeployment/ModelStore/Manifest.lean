import RaveDeployment.Lib.JsonRead
import RaveDeployment.Python.Utf8

/-!
# The manifest of the selected model

`SELECTED` and the checks of `load_manifest`. A manifest that passes them is `SELECTED`, up to the
order in which the fields of its objects are written (`checkManifest_same`).
-/

namespace Rave

namespace ModelStore

inductive OSError where
  | fileNotFound
  | other
  deriving DecidableEq

inductive ModelError where
  | osError (e : OSError)
  | valueError (message : PyStr)
  | unicodeDecodeError
  | jsonDecodeError
  | recursionError
  deriving DecidableEq

/-- `MODEL_ID`. -/
def modelId : String := "RAVE-2026.09.02-001"

/-- `ARTIFACT_NAME`. -/
def artifactName : String := "rave_yolo26n_960.hef"

/-- `SELECTED`, for an artifact of a given digest. -/
def selected (digest : String) : List (PyStr × Json) :=
  [("schema_version", .int 1),
    ("model_id", .str modelId),
    ("artifact", .str artifactName),
    ("sha256", .str digest),
    ("accelerator", .str "hailo8"),
    ("hailort", .str "4.23.0"),
    ("input", .obj [("width", .int 960), ("height", .int 960), ("dtype", .str "UINT8"),
      ("layout", .str "NHWC")]),
    ("classes", .arr [.str "vehicle", .str "motorcycle"]),
    ("output_abi", .null)]

def SELECTED : List (PyStr × Json) :=
  selected "913053bb96815b16b79093924ed563844f8edbc02ef6d40129a290eff3e32aea"

/-- `json.dumps(value, sort_keys=True)`. -/
def canonicalText (v : Json) : List Char :=
  Json.dumps ⟨true, 1, 1, none⟩ v.sortKeys

/-- `manifest[key]`, where the key is there. -/
def field (fields : List (PyStr × Json)) (key : PyStr) : Option Json :=
  (fields.find? fun f => f.1 = key).map Prod.snd

/-- `manifest.keys() == SELECTED.keys()`. -/
def sameKeys (fields expected : List (PyStr × Json)) : Bool :=
  (fields.all fun f => (expected.map Prod.fst).contains f.1) &&
    expected.all fun e => (fields.map Prod.fst).contains e.1

/-- The loop of `load_manifest` over the selected fields, in their order. -/
def checkFields (fields : List (PyStr × Json)) : List (PyStr × Json) → Except ModelError Unit
  | [] => .ok ()
  | (key, expected) :: rest =>
    if (field fields key).map canonicalText ≠ some (canonicalText expected) then
      .error (.valueError (key.prepend "invalid manifest field: "))
    else checkFields fields rest

/-- What `json.loads` raises. -/
def ModelError.ofLoad : Json.LoadError → ModelError
  | .decode => .jsonDecodeError
  | .digits => .valueError "Exceeds the limit (4300 digits) for integer string conversion"
  | .recursion => .recursionError

variable (digest : String)

/-- `load_manifest` on the content of the file. -/
def checkManifest [Json.Nesting] (content : List UInt8) :
    Except ModelError (List (PyStr × Json)) :=
  match Py.decodeUtf8 content with
  | none => .error .unicodeDecodeError
  | some text =>
    match Json.loads text with
    | .error e => .error (.ofLoad e)
    | .ok (.obj fields) =>
      if sameKeys fields (selected digest) then
        (checkFields fields (selected digest)).map fun _ => fields
      else .error (.valueError "invalid manifest fields")
    | .ok _ => .error (.valueError "invalid manifest fields")

/-- `manifest[key]` where the value is a text. -/
def textField (fields : List (PyStr × Json)) (key : String) : String :=
  match field fields key with
  | some (.str (.text s)) => s
  | _ => ""

/-! ## What passes

A manifest passes when it has the selected keys and each value has the canonical text of the
selected one. -/

variable {digest}

/-- After the loop every selected field is there with the canonical text that was selected. -/
theorem checkFields_eq_ok {fields expected : List (PyStr × Json)}
    (h : checkFields fields expected = .ok ()) :
    ∀ e ∈ expected, ∃ v, field fields e.1 = some v ∧ canonicalText v = canonicalText e.2 := by
  induction expected with
  | nil =>
    intro e he
    exact absurd he (by simp)
  | cons e rest ih =>
    rw [checkFields] at h
    split at h
    · exact absurd h (by simp)
    next hsame =>
    intro e' he'
    rcases List.mem_cons.mp he' with heq | hin
    · rw [heq]
      exact Option.map_eq_some_iff.mp (not_not.mp hsame)
    · exact ih h e' hin

/-- A field that is found is one of the manifest's. -/
theorem field_mem {fields : List (PyStr × Json)} {key : PyStr} {v : Json}
    (h : field fields key = some v) : (key, v) ∈ fields := by
  obtain ⟨f, hf, rfl⟩ := Option.map_eq_some_iff.mp h
  have hkey : f.1 = key := by simpa using List.find?_some hf
  rw [← hkey]
  exact List.mem_of_find?_eq_some hf

/-- The selected manifest is built of objects, texts, whole numbers and truth values. -/
theorem plain_selected (digest : String) : (Json.obj (selected digest)).Plain := by
  have hint : ∀ n : Int, n.natAbs < 10 ^ 4 → (Json.int n).Plain := by
    intro n hn
    have hlen := (Nat.length_toDigits_le_iff (b := 10) (by decide) (show 0 < 4 by decide)).mpr hn
    exact Nat.le_trans hlen (by decide)
  have hkeys : Json.PlainKeys ((selected digest).map Prod.fst) := by
    show Json.PlainKeys ["schema_version", "model_id", "artifact", "sha256", "accelerator",
      "hailort", "input", "classes", "output_abi"]
    decide
  refine ⟨hkeys, ?_⟩
  refine ⟨hint 1 (by decide), trivial, trivial, trivial, trivial, trivial, ?_, ?_, trivial, trivial⟩
  · refine ⟨by decide, hint 960 (by decide), hint 960 (by decide), trivial, trivial, trivial⟩
  · exact ⟨trivial, trivial, trivial⟩

/-- Nothing in the selected manifest lies deeper than one list in one object. -/
theorem nesting_selected (digest : String) : (Json.obj (selected digest)).nesting = 2 := rfl

theorem written_of_mem {fields : List (PyStr × Json)} (h : (Json.obj fields).Written)
    {key : PyStr} {v : Json} (hmem : (key, v) ∈ fields) : v.Written :=
  Json.writtenFields_iff.mp h.2 (key, v) hmem

/-- Values with one canonical text are the same value. -/
theorem same_of_canonicalText {v w : Json} (hv : v.Written) (hw : w.Written)
    (h : canonicalText v = canonicalText w) : v.Same w :=
  Json.dumps_injective hv.sortKeys hw.sortKeys h

/-- A file that passes is UTF-8 and JSON, an object with the selected keys, and passes field by
field. -/
theorem checkManifest_cases [Json.Nesting] {content : List UInt8} {fields : List (PyStr × Json)}
    (h : checkManifest digest content = .ok fields) :
    ∃ text, Py.decodeUtf8 content = some text ∧ Json.loads text = .ok (.obj fields) ∧
      sameKeys fields (selected digest) = true ∧
      checkFields fields (selected digest) = .ok () := by
  unfold checkManifest at h
  split at h
  · exact absurd h (by simp)
  next text htext =>
  split at h
  · exact absurd h (by simp)
  -- an object with the keys of the record, each field of which is checked
  · next fields' hloads =>
    split at h
    · next hkeys =>
      cases hcheck : checkFields fields' (selected digest) with
      | error e =>
        rw [hcheck] at h
        exact absurd h (by simp [Except.map])
      | ok _ =>
        rw [hcheck] at h
        have heq : fields' = fields := Except.ok.inj h
        rw [← heq]
        exact ⟨text, htext, hloads, hkeys, hcheck⟩
    · exact absurd h (by simp)
  · exact absurd h (by simp)

/-- **A manifest that passes is the selected one.** -/
theorem checkManifest_same [Json.Nesting] {content : List UInt8} {fields : List (PyStr × Json)}
    (h : checkManifest digest content = .ok fields) :
    (Json.obj fields).Same (.obj (selected digest)) := by
  obtain ⟨text, -, hloads, hkeys, hcheck⟩ := checkManifest_cases h
  have hwritten : (Json.obj fields).Written := Json.loads_written hloads
  have hselected := (plain_selected digest).written
  apply Json.same_obj hwritten.1.1 hselected.1.1
  · intro k hk
    obtain ⟨f, hf, rfl⟩ := List.mem_map.mp hk
    have hall := List.all_eq_true.mp (Bool.and_eq_true_iff.mp hkeys).1 f hf
    simpa using hall
  · intro e he
    obtain ⟨v, hv, htext⟩ := checkFields_eq_ok hcheck e he
    have hmem := field_mem hv
    exact ⟨(e.1, v), hmem, rfl, same_of_canonicalText (written_of_mem hwritten hmem)
      (written_of_mem hselected he) htext⟩

/-- The texts that the caller takes from the manifest. -/
theorem checkManifest_textField [Json.Nesting] {content : List UInt8} {fields : List (PyStr × Json)}
    (h : checkManifest digest content = .ok fields) {key text : String}
    (hkey : ((key : PyStr), .str text) ∈ selected digest) : textField fields key = text := by
  obtain ⟨_, -, hloads, -, hcheck⟩ := checkManifest_cases h
  have hwritten : (Json.obj fields).Written := Json.loads_written hloads
  obtain ⟨v, hv, htext⟩ := checkFields_eq_ok hcheck _ hkey
  have hplain : (Json.str text).Written := trivial
  have hsame : v.sortKeys = .str text :=
    same_of_canonicalText (written_of_mem hwritten (field_mem hv)) hplain htext
  have hstr : v = .str text := by
    cases v <;> simp_all [Json.sortKeys]
  unfold textField
  rw [hv, hstr]

end ModelStore

end Rave
