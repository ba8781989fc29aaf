import RaveDeployment.Lib.JsonEqual
import RaveDeployment.Lib.Replay
import RaveDeployment.ModelStore.Verified

/-!
# What `load_manifest` accepts

`checkManifest_eq_ok_iff`: a document passes exactly when the value it reads as equals `SELECTED`.
What `install_model` writes from a manifest that has passed passes again
(`checkManifest_written`).
-/

namespace Rave

namespace ModelStore

open Prog

/-- The key sets agree when the same keys are in both. -/
theorem sameKeys_iff {fields expected : List (PyStr × Json)} :
    sameKeys fields expected = true ↔
      ∀ k, k ∈ fields.map Prod.fst ↔ k ∈ expected.map Prod.fst := by
  simp only [sameKeys, Bool.and_eq_true, List.all_eq_true, List.contains_iff_mem]
  constructor
  · intro ⟨hfields, hexpected⟩ k
    constructor
    · intro hk
      obtain ⟨f, hf, rfl⟩ := List.mem_map.mp hk
      exact hfields f hf
    · intro hk
      obtain ⟨e, he, rfl⟩ := List.mem_map.mp hk
      exact hexpected e he
  · intro h
    exact ⟨fun f hf => (h f.1).mp (List.mem_map_of_mem hf),
      fun e he => (h e.1).mpr (List.mem_map_of_mem he)⟩

/-- The loop passes where every selected field has the canonical text that was selected. -/
theorem checkFields_ok {fields expected : List (PyStr × Json)}
    (h : ∀ e ∈ expected, ∃ v, field fields e.1 = some v ∧ canonicalText v = canonicalText e.2) :
    checkFields fields expected = .ok () := by
  induction expected with
  | nil => rfl
  | cons e rest ih =>
    obtain ⟨v, hv, htext⟩ := h e List.mem_cons_self
    have hsame : (field fields e.1).map canonicalText = some (canonicalText e.2) := by
      rw [hv, Option.map_some, htext]
    rw [checkFields, if_neg (not_not.mpr hsame)]
    exact ih fun e' he' => h e' (List.mem_cons_of_mem _ he')

/-- A key that is there has a value. -/
theorem field_of_mem {fields : List (PyStr × Json)} {key : PyStr}
    (h : key ∈ fields.map Prod.fst) :
    ∃ v, field fields key = some v ∧ (key, v) ∈ fields := by
  cases hfield : field fields key with
  | some v => exact ⟨v, rfl, field_mem hfield⟩
  | none =>
    obtain ⟨f, hf, rfl⟩ := List.mem_map.mp h
    simp only [field, Option.map_eq_none_iff, List.find?_eq_none] at hfield
    exact absurd (hfield f hf) (by simp)

/-- An operation returns what the world answers. -/
theorem outcome_perform_eq_ok {world : (o : StoreOp) → o.Ans} {o : StoreOp} {a : o.Result} :
    (perform o).outcome world = .ok a ↔ world o = .ok a := by
  rw [perform, outcome]
  cases world o <;> simp [outcome]

/-- A check passes exactly when its condition holds. -/
theorem outcome_require_eq_ok {world : (o : StoreOp) → o.Ans} {c : Prop} [Decidable c]
    {message : String} {u : Unit} :
    (require c message).outcome world = .ok u ↔ c := by
  by_cases hc : c <;> simp [require, hc, outcome]

variable [Json.Nesting] {digest : String}

/-- **A document passes exactly when it reads as the selected manifest.** -/
theorem checkManifest_eq_ok_iff {content : List UInt8} {fields : List (PyStr × Json)} :
    checkManifest digest content = .ok fields ↔
      ∃ text, Py.decodeUtf8 content = some text ∧ Json.loads text = .ok (.obj fields) ∧
        (Json.obj fields).Equal (.obj (selected digest)) := by
  have hselected := (plain_selected digest).written
  constructor
  · intro h
    -- what passes field by field is equal as Python compares it
    obtain ⟨text, htext, hloads, -, -⟩ := checkManifest_cases h
    have hwritten := Json.loads_written hloads
    exact ⟨text, htext, hloads, (Json.equal_iff_same hwritten hselected).mpr (checkManifest_same h)⟩
  · intro ⟨text, htext, hloads, hequal⟩
    have hwritten : (Json.obj fields).Written := Json.loads_written hloads
    -- equal objects have the same keys, and values with the same canonical text
    cases hequal with
    | obj hkeys hvalues =>
      have hcheck : checkFields fields (selected digest) = .ok () := by
        apply checkFields_ok
        intro e he
        obtain ⟨v, hv, hmem⟩ := field_of_mem ((hkeys e.1).mpr (List.mem_map_of_mem he))
        refine ⟨v, hv, ?_⟩
        exact (Json.equal_iff_dumps (written_of_mem hwritten hmem)
          (written_of_mem hselected he)).mp (hvalues e.1 v e.2 hmem he)
      unfold checkManifest
      rw [htext]
      dsimp only
      rw [hloads]
      dsimp only
      rw [if_pos (sameKeys_iff.mpr hkeys), hcheck]
      rfl

/-- The text that `install_model` writes. -/
def manifestText (fields : List (PyStr × Json)) : List Char :=
  Json.dumps ⟨true, 0, 1, some 2⟩ (.obj fields) ++ ['\n']

/-- What `install_model` writes is read back as the manifest. -/
theorem loads_manifestText {fields : List (PyStr × Json)} (h : (Json.obj fields).Written)
    (hnesting : (Json.obj fields).nesting ≤ Json.Nesting.limit) :
    Json.loads (manifestText fields) = .ok (.obj fields) := by
  apply Json.loads_dumps_blank _ _ h hnesting
  intro c hc
  rw [List.mem_singleton.mp hc]
  decide

/-- What is written from a manifest that has passed passes, as the same value. -/
theorem checkManifest_written {content : List UInt8} {fields : List (PyStr × Json)}
    (h : checkManifest digest content = .ok fields) :
    checkManifest digest (Py.encodeUtf8 (manifestText fields)) = .ok fields := by
  obtain ⟨text, -, hloads, hequal⟩ := checkManifest_eq_ok_iff.mp h
  exact checkManifest_eq_ok_iff.mpr ⟨_, Py.decodeUtf8_encodeUtf8 _,
    loads_manifestText (Json.loads_written hloads) (Json.loads_nesting hloads), hequal⟩

/-- `SELECTED` itself passes. -/
theorem checkManifest_selected (digest : String) :
    checkManifest digest (Py.encodeUtf8 (manifestText (selected digest)))
      = .ok (selected digest) := by
  have hwritten := (plain_selected digest).written
  have hnesting : (Json.obj (selected digest)).nesting ≤ Json.Nesting.limit := by
    rw [nesting_selected]
    exact Nat.le_trans (by decide) Json.Nesting.enough
  exact checkManifest_eq_ok_iff.mpr ⟨_, Py.decodeUtf8_encodeUtf8 _,
    loads_manifestText hwritten hnesting, (Json.equal_iff_same hwritten hwritten).mpr rfl⟩

/-! ## `load_manifest` and `install_model`

The same condition where it is used: on the file that `load_manifest` reads, and on the file that
`install_model` writes. -/

section World

variable {world : (o : StoreOp) → o.Ans}

/-- `load_manifest` where the files stay as they are. -/
theorem outcome_loadManifest_eq_ok {path : Place} {fields : List (PyStr × Json)} :
    (loadManifest digest path).outcome world = .ok fields ↔
      world (.lstat path) = .ok FileKind.regular ∧
        ∃ content : List UInt8, world (.readFile path) = .ok content ∧
          checkManifest digest content = .ok fields := by
  constructor
  -- the file is regular, it can be read, and its content passes
  · intro h
    obtain ⟨(kind : FileKind), hkind, h⟩ := outcome_bind_eq_ok.mp h
    obtain ⟨_, hregular, h⟩ := outcome_bind_eq_ok.mp h
    obtain ⟨(content : List UInt8), hcontent, h⟩ := outcome_bind_eq_ok.mp h
    have hkind : world (.lstat path) = .ok kind := outcome_perform_eq_ok.mp hkind
    have hregular : kind = FileKind.regular := outcome_require_eq_ok.mp hregular
    rw [hregular] at hkind
    rw [outcome_ofExcept] at h
    exact ⟨hkind, content, outcome_perform_eq_ok.mp hcontent, h⟩
  · intro ⟨hkind, content, hcontent, hcheck⟩
    apply outcome_bind_eq_ok.mpr
    refine ⟨FileKind.regular, outcome_perform_eq_ok.mpr hkind, ?_⟩
    apply outcome_bind_eq_ok.mpr
    refine ⟨(), outcome_require_eq_ok.mpr rfl, ?_⟩
    apply outcome_bind_eq_ok.mpr
    refine ⟨content, outcome_perform_eq_ok.mpr hcontent, ?_⟩
    rw [outcome_ofExcept]
    exact hcheck

end World

/-- A write of the manifest writes what passes as the same value. -/
def WritesManifest (digest : String) (fields : List (PyStr × Json)) : StoreOp → Prop
  | .append _ name data => name = "manifest.json" → checkManifest digest data = .ok fields
  | _ => True

/-- A quiet operation writes nothing. -/
theorem Quiet.writesManifest {fields : List (PyStr × Json)} {o : StoreOp} (ho : Quiet o) :
    WritesManifest digest fields o := by
  cases o with
  | append => exact ho.elim
  | _ => trivial

/-- Publishing writes the manifest that was checked. -/
theorem within_publish (sha256 : List UInt8 → String) {content : List UInt8}
    {manifest : List (PyStr × Json)} (h : checkManifest digest content = .ok manifest)
    (source : Directory) (stage : String) :
    Within (WritesManifest digest manifest) (publish sha256 digest manifest source stage)
      (fun _ => True) := by
  have hname : textField manifest "artifact" = artifactName :=
    checkManifest_textField h (by simp [selected])
  apply within_bind (within_perform (o := .lstat _) trivial)
  intro (kind : FileKind) _
  apply within_bind (within_require _ _)
  intro _ _
  -- the blocks of the artifact go to a file of another name
  have hchunk : ∀ chunk : List UInt8, WritesManifest digest manifest
      (.append stage (textField manifest "artifact") chunk) := by
    intro chunk heq
    rw [hname] at heq
    exact absurd heq (by decide)
  apply within_bind (within_copyfile trivial trivial trivial hchunk)
  intro _ _
  have htext : WritesManifest digest manifest
      (.append stage "manifest.json" (Py.encodeUtf8 (manifestText manifest))) :=
    fun _ => checkManifest_written h
  apply within_bind (within_writeText trivial htext)
  intro _ _
  apply within_bind ((within_validateModel _ _).weaken fun o ho => ho.writesManifest)
  intro _ _
  apply within_bind (within_perform (o := .listdir stage) trivial)
  intro items _
  apply within_bind (within_forEach fun item => within_bind
    (within_perform (o := .chmod (.inside stage item) 0o644) trivial) fun _ _ =>
      within_perform (o := .fsync (.inside stage item)) trivial)
  intro _ _
  apply within_bind (within_perform (o := .chmod _ _) trivial)
  intro _ _
  apply within_bind (within_perform (o := .fsync _) trivial)
  intro _ _
  apply within_bind (within_perform (o := .rename _ _) trivial)
  intro _ _
  exact within_perform (o := .fsync _) trivial

/-- **The gate accepts the selected manifest and nothing else.** Whatever the answers of the file
system, `load_manifest` returns what the document of a regular file reads as, if that equals
`SELECTED`. Of a repeated key of an object the last one is read. What `install_model` then writes
as `manifest.json` passes as the same value. -/
theorem loadManifest_accepts_selected (sha256 : List UInt8 → String) (digest : String)
    (world : (o : StoreOp) → o.Ans) (path : Place) :
    (∀ fields, (loadManifest digest path).outcome world = .ok fields ↔
      world (.lstat path) = .ok FileKind.regular ∧
        ∃ (content : List UInt8) (text : List Char), world (.readFile path) = .ok content ∧
          Py.decodeUtf8 content = some text ∧ Json.loads text = .ok (.obj fields) ∧
          (Json.obj fields).Equal (.obj (selected digest))) ∧
    (∀ (n d : Nat) (cs rest : List Char) (members : List (PyStr × Json)),
      (Json.skipBlank cs).head? ≠ some '}' →
      Json.fields n d (Json.skipBlank cs) = .ok (members, rest) →
        ∃ fields, Json.value (n + 1) (d + 1) ('{' :: cs) = .ok (.obj fields, rest) ∧
          (fields.map Prod.fst).Nodup ∧ ∀ f, f ∈ fields ↔ IsLast members f) ∧
    ∀ fields, (loadManifest digest path).outcome world = .ok fields →
      ∀ (source : Directory) (stage : String),
        Within (WritesManifest digest fields) (publish sha256 digest fields source stage)
          (fun _ => True) := by
  refine ⟨?_, fun n d cs rest members hopen h => Json.value_obj hopen h, ?_⟩
  · intro fields
    -- the manifest that is read
    rw [outcome_loadManifest_eq_ok]
    constructor
    · intro ⟨hkind, content, hcontent, hcheck⟩
      obtain ⟨text, htext, hloads, hequal⟩ := checkManifest_eq_ok_iff.mp hcheck
      exact ⟨hkind, content, text, hcontent, htext, hloads, hequal⟩
    · intro ⟨hkind, content, text, hcontent, htext, hloads, hequal⟩
      exact ⟨hkind, content, hcontent, checkManifest_eq_ok_iff.mpr ⟨text, htext, hloads, hequal⟩⟩
  -- the manifest that is written
  · intro fields hfields source stage
    obtain ⟨-, content, -, hcheck⟩ := outcome_loadManifest_eq_ok.mp hfields
    exact within_publish sha256 hcheck source stage

end ModelStore

end Rave
