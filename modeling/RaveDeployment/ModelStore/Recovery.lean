import RaveDeployment.ModelStore.Undisturbed
import Mathlib.Data.Set.Finite.Range
import Mathlib.Data.Set.Finite.Basic

/-!
# What the store recovers from

Administrators may have been killed between any two operations, and any operation may have failed.
`recovers`: whatever they have left behind, a call that is then served undisturbed returns exactly
when what it needs is there, has then published what it is for, and leaves no temporary directory of
its own.
-/

namespace Rave

namespace ModelStore

open Prog

section

variable {ι : Type} [DecidableEq ι]

/-! ## What is left behind

A command that is killed leaves its temporary directory and at most the lock file. Both leave the
store usable. -/

/-- The lock file is a file, and there are names that are free. -/
structure Usable (s : Store ι) : Prop where
  lock : ∀ node, s.entries ".admin.lock" = some node →
    ∃ content mode, node = .item (.file content mode)
  finite : {name | s.entries name ≠ none}.Finite

omit [DecidableEq ι] in
/-- Any entry but the lock file may change. -/
theorem Usable.setEntry {s : Store ι} (h : Usable s) {name : String}
    (hname : name ≠ ".admin.lock") (node : Option Node) : Usable (s.setEntry name node) := by
  constructor
  · intro node' hnode
    rw [setEntry_of_ne _ _ hname.symm] at hnode
    exact h.lock node' hnode
  · apply (h.finite.insert name).subset
    intro other hother
    by_cases heq : other = name
    · exact Set.mem_insert_iff.mpr (Or.inl heq)
    · apply Set.mem_insert_of_mem
      show s.entries other ≠ none
      rw [← setEntry_of_ne s node heq]
      exact hother

omit [DecidableEq ι] in
/-- Whether a store is usable depends on its entries only. -/
theorem Usable.of_entries {s t : Store ι} (h : Usable s) (heq : t.entries = s.entries) :
    Usable t := by
  constructor
  · rw [heq]
    exact h.lock
  · rw [heq]
    exact h.finite

@[simp] theorem release_entries (s : Store ι) (i : ι) : (s.release i).entries = s.entries := by
  unfold Store.release
  split <;> rfl

omit [DecidableEq ι] in
/-- A change inside a folder keeps the store usable. -/
theorem Usable.inFolder {s : Store ι} (h : Usable s) {folder : String}
    (hfolder : folder ≠ ".admin.lock") (g : Folder → Except OSError Folder) :
    Usable (s.inFolder folder g).2 := by
  rcases inFolder_cases s folder g with ⟨-, hsame⟩ | ⟨f, f', -, -, hchange⟩
  · rw [hsame]
    exact h
  · rw [hchange]
    exact h.setEntry hfolder _

omit [DecidableEq ι] in
/-- A name is free for a temporary directory. -/
theorem Usable.exists_free {s : Store ι} (h : Usable s) (start : String) :
    ∃ suffix, s.entries (start ++ suffix) = none := by
  by_contra hnone
  have hall : ∀ suffix, start ++ suffix ∈ {name | s.entries name ≠ none} :=
    fun suffix hsuffix => hnone ⟨suffix, hsuffix⟩
  have hinjective : Function.Injective fun suffix : String => start ++ suffix := by
    intro a b hab
    have hlist := congrArg String.toList hab
    simp only [String.toList_append] at hlist
    exact String.toList_inj.mp (List.append_cancel_left hlist)
  have hinfinite : (Set.range fun suffix : String => start ++ suffix).Infinite :=
    Set.infinite_range_of_injective hinjective
  apply hinfinite
  apply h.finite.subset
  rintro name ⟨suffix, rfl⟩
  exact hall suffix

/-! ## Single operations

The rules of the operations for a call that runs alone and meets no failure. -/

section Entries

variable {i : ι} {files : String → List UInt8} {s t : Store ι} {f : Folder}
  {R : ModelError → Store ι → Prop}

/-- A regular file that reads as this. -/
structure Readable (files : String → List UInt8) (s : Store ι) (path : Place)
    (content : List UInt8) : Prop where
  kind : ∀ c, Calm files (.lstat path) c → lstat c s path = .ok .regular
  content : ∀ c, Calm files (.readFile path) c → readFile c s path = .ok content

omit [DecidableEq ι] in
/-- A file outside the store has the content that was given. -/
theorem readable_outside (path : String) : Readable files s (.outside path) (files path) := by
  constructor
  · intro c hc
    rw [lstat, hc.kind]
  · intro c hc
    rw [readFile, hc.content path rfl]

omit [DecidableEq ι] in
/-- A file of a folder has the content that the folder says. -/
theorem readable_inside {folder name : String} {content : List UInt8} {mode : Nat}
    (hf : s.folder folder = some f) (hget : f.get name = some (.file content mode)) :
    Readable files s (.inside folder name) content := by
  constructor
  · intro c hc
    rw [lstat, hf, Option.bind_some, hget]
    rfl
  · intro c hc
    rw [readFile, hf, Option.bind_some, hget]
    rfl

/-- `lstat` returns the kind of what is there. -/
theorem wp_lstat {path : Place} {kind : FileKind} {Q : FileKind → Store ι → Prop}
    (h : ∀ c, Calm files (.lstat path) c → lstat c s path = .ok kind) (hQ : Q kind s) :
    (perform (.lstat path)).wp (undisturbed i files) Q R s := by
  apply wp_act (o := .lstat path) (fun _ => by simp)
  intro c hc
  exact ⟨kind, s, congrArg (fun r => some (r, s)) (h c hc), hQ⟩

/-- Reading returns the content of what is there. -/
theorem wp_readFile {path : Place} {content : List UInt8} {Q : List UInt8 → Store ι → Prop}
    (h : ∀ c, Calm files (.readFile path) c → readFile c s path = .ok content)
    (hQ : Q content s) : (perform (.readFile path)).wp (undisturbed i files) Q R s := by
  apply wp_act (o := .readFile path) (fun _ => by simp)
  intro c hc
  exact ⟨content, s, congrArg (fun r => some (r, s)) (h c hc), hQ⟩

omit [DecidableEq ι] in
/-- Changes of two entries commute. -/
theorem setEntry_comm {name other : String} (hne : name ≠ other) (node node' : Option Node) :
    (s.setEntry name node).setEntry other node' = (s.setEntry other node').setEntry name node := by
  unfold Store.setEntry
  dsimp only
  rw [Function.update_comm hne]

omit [DecidableEq ι] in
/-- What is done under one name does not matter once the name is free again. -/
theorem setEntry_clear {name other : String} (hne : name ≠ other) (hfree : s.entries name = none)
    (node node' : Option Node) :
    ((s.setEntry name node).setEntry other node').setEntry name none = s.setEntry other node' := by
  have hclear : s.setEntry name none = s := by
    rw [← hfree]
    exact setEntry_entries s name
  rw [setEntry_comm hne, setEntry_setEntry, ← setEntry_comm hne, hclear]

/-- A name that a folder lists is in it. -/
theorem get_isSome_of_mem {name : String} (h : name ∈ f.items.map Prod.fst) :
    (f.get name).isSome := by
  obtain ⟨item, hitem, rfl⟩ := List.mem_map.mp h
  rw [Folder.get, Option.isSome_map, List.find?_isSome]
  exact ⟨item, hitem, by simp⟩

/-- The store while a call has the lock. -/
structure Underway (i : ι) (s t : Store ι) : Prop where
  free : s.holder = none
  held : Held i t
  entries : ∀ name, name ≠ ".admin.lock" → t.entries name = s.entries name

omit [DecidableEq ι] in
/-- Taking the lock is not seen. -/
theorem Underway.visible (h : Underway i s t) : t.visible = s.visible := by
  apply visible_of_entries
  intro name hname
  apply h.entries
  rintro rfl
  exact hname rfl

omit [DecidableEq ι] in
/-- Taking the lock leaves the folders alone. -/
theorem Underway.folder (h : Underway i s t) {name : String} (hname : name ≠ ".admin.lock") :
    t.folder name = s.folder name := by
  unfold Store.folder
  rw [h.entries name hname]

/-- When the lock is given up, nobody holds it, as before. -/
theorem Underway.release_holder (h : Underway i s t) {name : String} {node : Option Node} :
    ((t.setEntry name node).release i).holder = s.holder := by
  unfold Store.release
  rw [if_pos (show (t.setEntry name node).holder = some i from h.held), h.free]

theorem release_visible (w : Store ι) : (w.release i).visible = w.visible :=
  visible_of_entries fun name _ => by rw [release_entries]

def Installed (s : Store ι) : Prop :=
  (s.folder modelId).isSome

omit [DecidableEq ι] in
/-- The version is visible exactly when it is there. -/
theorem mem_versions_iff : modelId ∈ s.visible.versions ↔ Installed s := by
  have hseen : ¬ hidden modelId := by decide
  simp [Store.visible, Installed, hseen]

end Entries

/-! ## Runs

Every store that is reached in a run is usable. -/

variable [Json.Nesting] {sha256 : List UInt8 → String} {digest : String}

/-- A failing operation leaves the store usable. -/
theorem usable_failed {call : Call} {i : ι} {o : StoreOp} {c : Choice} {s : Store ι}
    (h : Usable s) (hallowed : Allowed sha256 digest call i s o) : Usable (failed i c s o) := by
  cases o with
  | append folder name data => exact h.inFolder hallowed.2.ne_lock _
  | closeLock => exact h.of_entries (release_entries s i)
  | _ => exact h

/-- A successful operation leaves the store usable. -/
theorem usable_effect {call : Call} {i : ι} {o : StoreOp} {c : Choice} {s t : Store ι} {r : o.Ans}
    (h : Usable s) (hallowed : Allowed sha256 digest call i s o)
    (heffect : effect i c s o = some (r, t)) : Usable t := by
  have same : t = s → Usable t := by
    rintro rfl
    exact h
  have changed : ∀ {folder : String} {g : Folder → Except OSError Folder}
      {r' : Except OSError Unit}, Temporary folder → s.inFolder folder g = (r', t) → Usable t := by
    intro folder g r' hfolder hchange
    have ht := h.inFolder hfolder.ne_lock g
    rwa [hchange] at ht
  cases o with
  | lstat p | readFile p | openSource p | readChunks p | storeInfo | fsync p =>
    exact same (Prod.mk.inj (Option.some.inj heffect)).2.symm
  -- the lock file is made where there was none, and is a regular file
  | openLock =>
    simp only [effect] at heffect
    split at heffect
    · obtain ⟨-, rfl⟩ := Prod.mk.inj (Option.some.inj heffect)
      constructor
      · intro node hnode
        rw [setEntry_self] at hnode
        exact ⟨[], 0o600, (Option.some.inj hnode).symm⟩
      · apply (h.finite.insert ".admin.lock").subset
        intro name hname
        by_cases heq : name = ".admin.lock"
        · exact Set.mem_insert_iff.mpr (Or.inl heq)
        · apply Set.mem_insert_of_mem
          rwa [Set.mem_ofPred_eq, setEntry_of_ne _ _ heq] at hname
    · exact same (Prod.mk.inj (Option.some.inj heffect)).2.symm
    · exact same (Prod.mk.inj (Option.some.inj heffect)).2.symm
  | flock =>
    simp only [effect] at heffect
    split at heffect
    · obtain ⟨-, rfl⟩ := Prod.mk.inj (Option.some.inj heffect)
      exact h.of_entries rfl
    · exact same (Prod.mk.inj (Option.some.inj heffect)).2.symm
  | closeLock =>
    obtain ⟨-, rfl⟩ := Prod.mk.inj (Option.some.inj heffect)
    exact h.of_entries (release_entries s i)
  -- a temporary name is not that of the lock file
  | mkdtemp start =>
    simp only [effect] at heffect
    split at heffect
    · obtain ⟨-, rfl⟩ := Prod.mk.inj (Option.some.inj heffect)
      apply h.setEntry
      rcases hallowed.2 with rfl | rfl
      · exact append_ne (by decide)
      · exact append_ne (by decide)
    · exact absurd heffect (by simp)
  | create folder name => exact changed hallowed.2 (Option.some.inj heffect)
  | append folder name data => exact changed hallowed.2 (Option.some.inj heffect)
  | chmod p mode =>
    cases p with
    | outside path | root => exact same (Prod.mk.inj (Option.some.inj heffect)).2.symm
    | entry folder => exact changed hallowed.2 (Option.some.inj heffect)
    | inside folder name => exact changed hallowed.2 (Option.some.inj heffect)
  | symlink folder name target => exact changed hallowed.2 (Option.some.inj heffect)
  | unlink folder name => exact changed hallowed.2 (Option.some.inj heffect)
  | listdir folder =>
    simp only [effect] at heffect
    split at heffect
    · exact same (Prod.mk.inj (Option.some.inj heffect)).2.symm
    · exact same (Prod.mk.inj (Option.some.inj heffect)).2.symm
  | readlink name =>
    simp only [effect] at heffect
    split at heffect
    · exact same (Prod.mk.inj (Option.some.inj heffect)).2.symm
    · exact same (Prod.mk.inj (Option.some.inj heffect)).2.symm
    · exact same (Prod.mk.inj (Option.some.inj heffect)).2.symm
  | rmdir folder =>
    simp only [effect] at heffect
    split at heffect
    · exact same (Prod.mk.inj (Option.some.inj heffect)).2.symm
    split at heffect
    · obtain ⟨-, rfl⟩ := Prod.mk.inj (Option.some.inj heffect)
      exact h.setEntry hallowed.2.ne_lock none
    · exact same (Prod.mk.inj (Option.some.inj heffect)).2.symm
  -- the destination of a rename is the version, that of a replacement a pointer
  | rename folder destination =>
    obtain ⟨-, hfolder, rfl, -⟩ := hallowed
    have heffect' := Option.some.inj heffect
    unfold renameFolder at heffect'
    split at heffect'
    · exact same (Prod.mk.inj heffect').2.symm
    split at heffect'
    · obtain ⟨-, rfl⟩ := Prod.mk.inj heffect'
      exact (h.setEntry hfolder.ne_lock none).setEntry (by decide) _
    · exact same (Prod.mk.inj heffect').2.symm
  | replaceEntry folder name destination =>
    obtain ⟨-, hfolder, hpointer, -⟩ := hallowed
    have hdestination : destination ≠ ".admin.lock" := by
      rcases Call.pointer_cases hpointer with ⟨rfl, -⟩ | ⟨rfl, -⟩ <;> decide
    have heffect' := Option.some.inj heffect
    unfold replaceEntry at heffect'
    split at heffect'
    · exact same (Prod.mk.inj heffect').2.symm
    split at heffect'
    · exact same (Prod.mk.inj heffect').2.symm
    · exact same (Prod.mk.inj heffect').2.symm
    · obtain ⟨-, rfl⟩ := Prod.mk.inj heffect'
      exact (h.setEntry hfolder.ne_lock _).setEntry hdestination _

/-- What the contract lets an operation do leaves the store usable. -/
theorem usable_exec {call : Call} {i : ι} {o : StoreOp} {c : Choice} {s t : Store ι} {r : o.Ans}
    (h : Usable s) (hallowed : Allowed sha256 digest call i s o)
    (hexec : exec i o c s = some (r, t)) : Usable t := by
  unfold exec at hexec
  split at hexec
  · obtain ⟨-, rfl⟩ := Prod.mk.inj (Option.some.inj hexec)
    exact usable_failed h hallowed
  · exact usable_effect h hallowed hexec

/-- In every run the store stays usable. -/
theorem run_usable {as : List (Parallel.Event ι Call Choice)} {c : StoreConfig ι}
    (run : (storeSystem sha256 digest ι).Run (fun _ _ => True)
      (storeSystem sha256 digest ι).init as c) : Usable c.state := by
  -- the invariant: every call keeps to the contract, and the store is usable
  have hinv : Parallel.Safe (contract sha256 digest) machine c ∧ Usable c.state := by
    apply run.invariant
    · constructor
      · intro i
        show (none : Option ι) ≠ some i
        simp
      · constructor
        · exact fun _ h => absurd h (by simp [storeSystem, Parallel.system])
        · simp [storeSystem, Parallel.system]
    · rintro t e w ⟨hsafe, husable⟩ _ h
      refine ⟨safe_step h hsafe, ?_⟩
      rcases hsafe.step_cases h with hsame | ⟨i, call, o, choice, r, k, -, -, hallowed, hexec⟩ |
        ⟨i, -, hleave⟩
      · rw [hsame]
        exact husable
      -- only the holder of the lock acts on the store
      · exact usable_exec husable hallowed hexec
      · rw [hleave]
        exact husable.of_entries (release_entries t.state i)
  exact hinv.2

/-! ## Validation

`load_manifest`, `validate_model` and `installed_version` decide what they are about: they return on
what passes and raise on the rest. -/

section Undisturbed

variable {i : ι} {files : String → List UInt8} {s : Store ι} {f : Folder}
  {R : ModelError → Store ι → Prop}

/-- `load_manifest` returns on a manifest that passes and raises on any other. -/
theorem wp_loadManifest {path : Place} {content : List UInt8}
    {Q : List (PyStr × Json) → Store ι → Prop} (hpath : Readable files s path content)
    (hok : ∀ fields, checkManifest digest content = .ok fields → Q fields s)
    (herror : ∀ e, checkManifest digest content = .error e → R e s) :
    (loadManifest digest path).wp (undisturbed i files) Q R s := by
  apply wp_bind.mpr
  apply wp_lstat hpath.kind
  apply wp_bind.mpr
  apply wp_require _ (fun h => absurd rfl h)
  intro _
  apply wp_bind.mpr
  apply wp_readFile hpath.content
  cases hcheck : checkManifest digest content with
  | ok fields => exact wp_ret_alone (hok fields hcheck)
  | error e => exact wp_raise_alone (herror e hcheck)

/-- A manifest that passes and the artifact beside it. -/
theorem wp_validateModel {path : Place} {directory : Directory} {content artifact : List UInt8}
    {fields : List (PyStr × Json)} {Q : List (PyStr × Json) → Store ι → Prop}
    (hpath : Readable files s path content)
    (hartifact : Readable files s (directory.file artifactName) artifact)
    (hcheck : checkManifest digest content = .ok fields)
    (hok : sha256 artifact = digest → Q fields s)
    (herror : sha256 artifact ≠ digest → ∀ e, R e s) :
    (validateModel sha256 digest path directory).wp (undisturbed i files) Q R s := by
  apply wp_bind.mpr
  apply wp_loadManifest hpath
  -- the manifest names the artifact and its digest
  · intro fields' hcheck'
    rw [hcheck] at hcheck'
    rw [← Except.ok.inj hcheck']
    have hname : textField fields "artifact" = artifactName :=
      checkManifest_textField hcheck (by simp [selected])
    have hsum : textField fields "sha256" = digest :=
      checkManifest_textField hcheck (by simp [selected])
    rw [hname, hsum]
    -- the artifact is there and can be read, so only its digest can be refused
    apply wp_bind.mpr
    apply wp_lstat hartifact.kind
    apply wp_bind.mpr
    apply wp_require _ (fun h => absurd rfl h)
    intro _
    apply wp_bind.mpr
    apply wp_bind.mpr
    apply wp_readFile hartifact.content
    apply wp_ret_alone
    apply wp_bind.mpr
    apply wp_require
    · intro heq
      exact wp_ret_alone (hok heq)
    · intro hne
      exact herror hne _
  -- the manifest passes
  · intro e he
    rw [hcheck] at he
    exact absurd he (by simp)

/-- A folder that holds the model passes validation. -/
theorem HoldsModel.verified (h : HoldsModel sha256 digest f) : Verified sha256 digest f := by
  obtain ⟨content, mode, text, manifest, hget, htext, hloads, hsame⟩ := h.manifest
  have hequal : manifest.Equal (.obj (selected digest)) :=
    (Json.equal_iff_same (Json.loads_written hloads) (plain_selected digest).written).mpr hsame
  -- only an object equals the selected manifest
  have hobj : ∃ fields, manifest = .obj fields := by
    cases hequal with
    | obj _ _ => exact ⟨_, rfl⟩
  obtain ⟨fields, rfl⟩ := hobj
  refine ⟨⟨content, mode, fields, hget, ?_⟩, h.artifact⟩
  exact checkManifest_eq_ok_iff.mpr ⟨text, htext, hloads, hequal⟩

/-- `installed_version` accepts the model's own identity where the version is there, and nothing
else. -/
theorem wp_installedVersion {id : String} {Q : String → Store ι → Prop}
    (hs : Exposed sha256 digest s) (hok : id = modelId → Installed s → Q modelId s)
    (herror : ¬ (id = modelId ∧ Installed s) → ∀ e, R e s) :
    (installedVersion sha256 digest id).wp (undisturbed i files) Q R s := by
  apply wp_bind.mpr
  apply wp_require _ (fun hid => herror (fun h => hid h.1) _)
  rintro rfl
  apply wp_bind.mpr
  cases hentry : s.entries modelId with
  -- there is no version: `lstat` fails, and nothing is installed
  | none =>
    apply wp_refuse (e := .fileNotFound) (fun _ => by simp)
    · intro c _
      have hmissing : lstat c s (.entry modelId) = .error .fileNotFound := by
        rw [lstat, hentry]
      exact congrArg (fun r => some (r, s)) hmissing
    · apply herror
      rintro ⟨_, hthere⟩
      unfold Installed Store.folder at hthere
      rw [hentry] at hthere
      exact absurd hthere (by simp)
  -- there is one: it is exposed, so its folder passes validation
  | some node =>
    obtain ⟨f, rfl, hmodel⟩ := hs.version node hentry
    have hf : s.folder modelId = some f := by
      unfold Store.folder
      rw [hentry]
    obtain ⟨content, mode, fields, hget, hcheck⟩ := hmodel.verified.manifest
    obtain ⟨artifact, mode', hget', hsum⟩ := hmodel.artifact
    have hkind : ∀ c, Calm files (.lstat (.entry modelId)) c →
        lstat c s (.entry modelId) = .ok .directory := by
      intro c _
      rw [lstat, hentry]
    apply wp_lstat hkind
    apply wp_bind.mpr
    apply wp_require _ (fun h => absurd rfl h)
    intro _
    apply wp_bind.mpr
    apply wp_validateModel (readable_inside hf hget) (readable_inside hf hget') hcheck
    · intro _
      apply wp_ret_alone
      apply hok rfl
      unfold Installed
      rw [hf]
      rfl
    · exact fun hne => absurd hsum hne

/-! ## The two commands

The parts of the four calls that publish, at the operations they issue. -/

/-- `replace_pointer` leads the pointer to the version where it is there, and raises otherwise. -/
theorem wp_replacePointer {name id : String} {Q : String → Store ι → Prop}
    (hname : name = "current" ∨ name = "known-good") (hs : Exposed sha256 digest s)
    (hfree : ∃ suffix, s.entries (".pointer-" ++ suffix) = none)
    (hok : id = modelId → Installed s →
      Q modelId (s.setEntry name (some (.item (.link modelId)))))
    (herror : ¬ (id = modelId ∧ Installed s) → ∀ e, R e s) :
    (replacePointer sha256 digest name id).wp (undisturbed i files) Q R s := by
  apply wp_bind.mpr
  apply wp_installedVersion hs _ herror
  intro hid hthere
  apply wp_bind.mpr
  apply wp_temporaryDirectory (Or.inr rfl) hfree
  intro temporary htemp hnone
  have hne : temporary ≠ name := by
    rintro rfl
    apply htemp.not_published
    rcases hname with rfl | rfl <;> decide
  have hlink : symlinkItem modelId "link" ⟨[], 0o700⟩
      = .ok (Folder.put ⟨[], 0o700⟩ "link" (.link modelId)) := rfl
  apply wp_bind.mpr
  apply wp_act (fun _ => by simp)
  intro c hc
  refine ⟨(), _, congrArg some (inFolder_withFolder hlink), ?_⟩
  -- nothing is under the name, or a link
  have hreplace : ∀ f : Folder, f.get "link" = some (.link modelId) →
      replaceEntry (s.withFolder temporary f) temporary "link" name
        = (.ok (), ((s.withFolder temporary f).setEntry temporary
            (some (.folder (f.remove "link")))).setEntry name (some (.item (.link modelId)))) := by
    intro f hget
    have hfolder : (s.withFolder temporary f).folder temporary = some f :=
      folder_setEntry_self s temporary f
    have hold : (s.withFolder temporary f).entries name = s.entries name :=
      setEntry_of_ne s _ hne.symm
    unfold replaceEntry
    rw [hfolder]
    dsimp only
    rw [hget, hold]
    cases hentry : s.entries name with
    | none => rfl
    | some node =>
      rw [(hs.pointers name hname node hentry).1]
  apply wp_bind.mpr
  apply wp_act (fun _ => by simp)
  intro c' hc'
  refine ⟨(), _, congrArg some (hreplace _ (get_put_self _ _ _)), ?_⟩
  apply wp_act (fun _ => by simp)
  intro c'' hc''
  refine ⟨(), _, rfl, ?_, wp_ret_alone ?_⟩
  · intro item
    rw [setEntry_of_ne _ _ hne, setEntry_self]
    simp
  · unfold Store.withFolder
    rw [setEntry_setEntry, setEntry_clear hne hnone]
    exact hok hid hthere

/-- The items of a verified directory get their permissions. -/
theorem wp_permissions {stage : String} {names : List String} {Q : Unit → Store ι → Prop}
    (hf : Verified sha256 digest f) (hnames : ∀ name ∈ names, (f.get name).isSome)
    (hQ : ∀ f', Verified sha256 digest f' → Q () (s.withFolder stage f')) :
    (forEach names fun item => do
      perform (.chmod (.inside stage item) 0o644)
      perform (.fsync (.inside stage item))).wp (undisturbed i files) Q R
        (s.withFolder stage f) := by
  induction names generalizing f with
  | nil => exact wp_ret_alone (hQ f hf)
  | cons name names ih =>
    obtain ⟨item, hitem⟩ := Option.isSome_iff_exists.mp (hnames name List.mem_cons_self)
    -- a file or a link: the names stay what they are
    have hchange : ∃ f', chmodItem 0o644 name f = .ok f' ∧
        ∀ other, (f.get other).isSome → (f'.get other).isSome := by
      unfold chmodItem
      rw [hitem]
      cases item with
      | file content mode =>
        refine ⟨_, rfl, fun other hother => ?_⟩
        by_cases heq : other = name
        · rw [heq, get_put_self]
          rfl
        · rwa [get_put_of_ne f _ heq]
      | link target => exact ⟨f, rfl, fun _ h => h⟩
    obtain ⟨f', hf', hthere⟩ := hchange
    apply wp_bind.mpr
    apply wp_bind.mpr
    apply wp_act (fun _ => by simp)
    intro c hc
    refine ⟨(), _, congrArg some (inFolder_withFolder hf'), ?_⟩
    apply wp_act (fun _ => by simp)
    intro c' hc'
    refine ⟨(), _, rfl, ?_⟩
    apply ih (verified_chmodItem hf hf')
    exact fun other hother => hthere other (hnames other (List.mem_cons_of_mem _ hother))

/-- A manifest that passes and an artifact are published when the artifact has the digest. -/
theorem wp_publish {stage source : String} {content : List UInt8} {fields : List (PyStr × Json)}
    {Q : Unit → Store ι → Prop} (hcheck : checkManifest digest content = .ok fields)
    (hstage : stage ≠ modelId) (hnone : s.entries modelId = none)
    (hok : sha256 (files (source ++ "/" ++ artifactName)) = digest → ∀ f,
      Verified sha256 digest f →
      Q () (((s.withFolder stage f).setEntry stage none).setEntry modelId (some (.folder f))))
    (herror : sha256 (files (source ++ "/" ++ artifactName)) ≠ digest → ∀ e f,
      R e (s.withFolder stage f)) :
    (publish sha256 digest fields (.outside source) stage).wp (undisturbed i files) Q R
      (s.withFolder stage f) := by
  have hname : textField fields "artifact" = artifactName :=
    checkManifest_textField hcheck (by simp [selected])
  have hid : textField fields "model_id" = modelId :=
    checkManifest_textField hcheck (by simp [selected])
  unfold publish
  rw [hname, hid]
  apply wp_bind.mpr
  apply wp_lstat (readable_outside _).kind
  apply wp_bind.mpr
  apply wp_require _ (fun h => absurd rfl h)
  intro _
  apply wp_bind.mpr
  apply wp_copyfile
  intro f₁ mode₁ hartifact _
  apply wp_bind.mpr
  apply wp_writeText
  intro f₂ mode₂ hmanifest hother
  rw [← hother artifactName (by decide)] at hartifact
  have hfolder : ∀ f', (s.withFolder stage f').folder stage = some f' :=
    folder_setEntry_self s stage
  have hwritten := checkManifest_written hcheck
  apply wp_bind.mpr
  apply wp_validateModel (readable_inside (hfolder f₂) hmanifest)
    (readable_inside (hfolder f₂) hartifact) hwritten
  · intro hsum
    have hverified : Verified sha256 digest f₂ :=
      ⟨⟨_, mode₂, fields, hmanifest, hwritten⟩, ⟨_, mode₁, hartifact, hsum⟩⟩
    apply wp_bind.mpr
    apply wp_act (o := .listdir stage) (fun _ => by simp)
    intro c hc
    refine ⟨f₂.items.map Prod.fst, s.withFolder stage f₂, by simp only [effect, hfolder], ?_⟩
    apply wp_bind.mpr
    apply wp_permissions hverified (fun name hmem => get_isSome_of_mem hmem)
    intro f₃ hverified₃
    apply wp_bind.mpr
    apply wp_act (o := .chmod (.entry stage) 0o755) (fun _ => by simp)
    intro c' hc'
    refine ⟨(), s.withFolder stage { f₃ with mode := 0o755 },
      congrArg some (inFolder_withFolder rfl), ?_⟩
    apply wp_bind.mpr
    apply wp_act (o := .fsync (.entry stage)) (fun _ => by simp)
    intro c'' hc''
    refine ⟨(), _, rfl, ?_⟩
    -- there is no version yet, so the name is free
    have hfree : (s.withFolder stage { f₃ with mode := 0o755 }).free modelId = true := by
      unfold Store.free Store.withFolder
      rw [setEntry_of_ne _ _ hstage.symm, hnone]
    have hrename : renameFolder (s.withFolder stage { f₃ with mode := 0o755 }) stage modelId
        = (.ok (), ((s.withFolder stage { f₃ with mode := 0o755 }).setEntry stage none).setEntry
            modelId (some (.folder { f₃ with mode := 0o755 }))) := by
      unfold renameFolder
      rw [hfolder]
      dsimp only
      rw [if_pos hfree]
    apply wp_bind.mpr
    apply wp_act (o := .rename stage modelId) (fun _ => by simp)
    intro c₃ hc₃
    refine ⟨(), _, congrArg some hrename, ?_⟩
    apply wp_act (o := .fsync .root) (fun _ => by simp)
    intro c₄ hc₄
    exact ⟨(), _, rfl, hok hsum _ ⟨hverified₃.manifest, hverified₃.artifact⟩⟩
  · exact fun hne e => herror hne e f₂

/-! ## Calls

Each call, under the lock, with the condition on which it succeeds. -/

/-- What a call needs of the files outside and of what is visible. -/
def Call.Ready (sha256 : List UInt8 → String) (digest : String) (files : String → List UInt8)
    (v : Visible) : Call → Prop
  | .install manifestPath source =>
    (∃ fields, checkManifest digest (files manifestPath) = .ok fields) ∧
      sha256 (files (source ++ "/" ++ artifactName)) = digest
  | .activate id | .qualify id => id = modelId ∧ modelId ∈ v.versions
  | .rollback => v.knownGood.isSome

/-- A call that has been served: it has done what it is for, or nothing. -/
structure Settled (sha256 : List UInt8 → String) (digest : String) (call : Call) (ready : Prop)
    (s : Store ι) (out : Except ModelError String) (t : Store ι) : Prop where
  done : ready → out = .ok modelId ∧ t.visible = call.publish s.visible
  refused : ¬ ready → out.isOk = false ∧ t.visible = s.visible
  holder : t.holder = s.holder
  cleaned : ∀ name, hidden name → name ≠ ".admin.lock" → t.entries name = s.entries name
  exposed : Exposed sha256 digest t

section Served

variable {call : Call} {ready : Prop} {t w : Store ι}

omit [DecidableEq ι] in
/-- Taking the lock exposes nothing. -/
theorem Underway.exposed (h : Underway i s t) (hs : Exposed sha256 digest s) :
    Exposed sha256 digest t := by
  have hpublished : Published sha256 digest .rollback s t := by
    apply published_of_same hs
    intro name hname
    apply h.entries
    rintro rfl
    exact lock_not_published hname
  exact hpublished.exposed

omit [DecidableEq ι] in
/-- A call that raises without a trace is settled, where it was not ready. -/
theorem settled_refused (hs : Exposed sha256 digest s) (hnot : ¬ ready) (e : ModelError) :
    Settled sha256 digest call ready s (.error e) s :=
  ⟨fun h => absurd h hnot, fun _ => ⟨rfl, rfl⟩, rfl, fun _ _ _ => rfl, hs⟩

/-- Giving up the lock exposes nothing. -/
theorem release_exposed (h : Exposed sha256 digest w) : Exposed sha256 digest (w.release i) := by
  constructor
  · rw [release_entries]
    exact h.version
  · rw [release_entries]
    exact h.pointers

/-- The lock is given up, and nothing has changed. -/
theorem Underway.settled (h : Underway i s t) (hs : Exposed sha256 digest s)
    {out : Except ModelError String}
    (hdone : ready → out = .ok modelId ∧ call.publish s.visible = s.visible)
    (hrefused : ¬ ready → out.isOk = false) :
    Settled sha256 digest call ready s out (t.release i) := by
  have hvisible : (t.release i).visible = s.visible := (release_visible t).trans h.visible
  constructor
  · intro hready
    exact ⟨(hdone hready).1, hvisible.trans (hdone hready).2.symm⟩
  · exact fun hnot => ⟨hrefused hnot, hvisible⟩
  · unfold Store.release
    rw [if_pos (show t.holder = some i from h.held), h.free]
  · intro name _ hname
    rw [release_entries]
    exact h.entries name hname
  · exact release_exposed (h.exposed hs)

/-- The lock is given up after a change of what is visible. -/
theorem Underway.settled_change (h : Underway i s t) (hready : ready) {name : String}
    {node : Option Node} (hname : ¬ hidden name)
    (hvisible : (t.setEntry name node).visible = call.publish s.visible)
    (hexposed : Exposed sha256 digest (t.setEntry name node)) :
    Settled sha256 digest call ready s (.ok modelId) ((t.setEntry name node).release i) := by
  constructor
  · exact fun _ => ⟨rfl, (release_visible _).trans hvisible⟩
  · exact fun hnot => absurd hready hnot
  · exact h.release_holder
  · intro other hother hne
    have hdiff : other ≠ name := by
      rintro rfl
      exact hname hother
    rw [release_entries, setEntry_of_ne _ _ hdiff]
    exact h.entries other hne
  · exact release_exposed hexposed

/-- A call takes the lock, is settled by its body, and gives the lock up. -/
theorem wp_locked {body : StoreM String} (husable : Usable s) (hs : Exposed sha256 digest s)
    (hself : s.holder ≠ some i) (hready : ready → s.holder = none)
    (hbody : ∀ t, Underway i s t → body.wp (undisturbed i files)
      (fun a w => Settled sha256 digest call ready s (.ok a) (w.release i))
      (fun e w => Settled sha256 digest call ready s (.error e) (w.release i)) t) :
    (storeLock body).wp (undisturbed i files)
      (fun a => Settled sha256 digest call ready s (.ok a))
      (fun e => Settled sha256 digest call ready s (.error e)) s := by
  apply wp_storeLock husable.lock hself
  -- another process has the lock: the call is refused, which is settled where it was not ready
  · intro j t hj hsame
    have hnot : ¬ ready := by
      intro h
      rw [hready h] at hj
      exact absurd hj (by simp)
    have hpublished : Published sha256 digest call s t := by
      apply published_of_same hs
      intro name hname
      apply hsame.2
      rintro rfl
      exact lock_not_published hname
    refine ⟨fun h => absurd h hnot, fun _ => ⟨rfl, ?_⟩, hsame.1, fun name _ => hsame.2 name,
      hpublished.exposed⟩
    apply visible_of_entries
    intro name hname
    apply hsame.2
    rintro rfl
    exact hname rfl
  -- the lock was free, and the body runs under it
  · intro hfree t hheld hentries
    exact hbody t ⟨hfree, hheld, hentries⟩

/-- Under the lock, `replace_pointer` settles the calls that move a pointer. -/
theorem Underway.wp_replacePointer (h : Underway i s t) (husable : Usable s)
    (hs : Exposed sha256 digest s) {name id : String} (hcall : call.pointer = some name)
    (hready : ready ↔ id = modelId ∧ Installed s) :
    (replacePointer sha256 digest name id).wp (undisturbed i files)
      (fun a w => Settled sha256 digest call ready s (.ok a) (w.release i))
      (fun e w => Settled sha256 digest call ready s (.error e) (w.release i)) t := by
  have ht : Exposed sha256 digest t := h.exposed hs
  have hname : name = "current" ∨ name = "known-good" := by
    rcases Call.pointer_cases hcall with ⟨hname, -⟩ | ⟨hname, -⟩
    · exact Or.inr hname
    · exact Or.inl hname
  have hseen : ¬ hidden name := by
    rcases hname with rfl | rfl <;> decide
  have hnotlock : name ≠ ".admin.lock" := by
    rcases hname with rfl | rfl <;> decide
  have hthere : Installed t ↔ Installed s := by
    unfold Installed
    rw [h.folder (by decide)]
  have hfree : ∃ suffix, t.entries (".pointer-" ++ suffix) = none := by
    obtain ⟨suffix, hsuffix⟩ := husable.exists_free ".pointer-"
    refine ⟨suffix, ?_⟩
    rwa [h.entries _ (append_ne (by decide))]
  apply ModelStore.wp_replacePointer hname ht hfree
  · intro hid hinstalled
    obtain ⟨g, hg⟩ := Option.isSome_iff_exists.mp hinstalled
    apply h.settled_change (hready.mpr ⟨hid, hthere.mp hinstalled⟩) hseen
    · apply publish_pointer (s := s) hcall
      · unfold Store.folder
        cases hentry : s.entries name with
        | none => rfl
        | some node => rw [(hs.pointers name hname node hentry).1]
      · exact setEntry_self t name _
      · intro other hother hne
        rw [setEntry_of_ne _ _ hne]
        apply h.entries
        rintro rfl
        exact hother rfl
    · -- a name that is free stands for the directory that is gone
      obtain ⟨suffix, hsuffix⟩ := hfree
      have htemp : Temporary (".pointer-" ++ suffix) := ⟨suffix, Or.inr rfl⟩
      have hpublished := published_of_replace ht htemp none hcall hg
      rw [← hsuffix, setEntry_entries] at hpublished
      exact hpublished.exposed
  · intro hnot e
    apply h.settled hs
    · intro hr
      obtain ⟨hid, hinstalled⟩ := hready.mp hr
      exact absurd ⟨hid, hthere.mpr hinstalled⟩ hnot
    · exact fun _ => rfl

/-- Under the lock, the rest of `install_model` settles the installation. -/
theorem Underway.wp_install (h : Underway i s t) (husable : Usable s)
    (hs : Exposed sha256 digest s) {manifestPath source : String} {fields : List (PyStr × Json)}
    (hcheck : checkManifest digest (files manifestPath) = .ok fields)
    (hready : ready ↔ sha256 (files (source ++ "/" ++ artifactName)) = digest) :
    (do
      let there ← lexists (.entry (textField fields "model_id"))
      if there then
        let _ ← validateModel sha256 digest (.outside manifestPath) (.outside source)
        installedVersion sha256 digest (textField fields "model_id")
      else
        temporaryDirectory ".stage-" (publish sha256 digest fields (.outside source))
        return textField fields "model_id" : StoreM String).wp (undisturbed i files)
      (fun a w => Settled sha256 digest (.install manifestPath source) ready s (.ok a)
        (w.release i))
      (fun e w => Settled sha256 digest (.install manifestPath source) ready s (.error e)
        (w.release i)) t := by
  have ht : Exposed sha256 digest t := h.exposed hs
  have hid : textField fields "model_id" = modelId :=
    checkManifest_textField hcheck (by simp [selected])
  have hsame : t.entries modelId = s.entries modelId := h.entries modelId (by decide)
  rw [hid]
  apply wp_bind.mpr
  apply wp_bind.mpr
  apply wp_attempt.mpr
  cases hentry : t.entries modelId with
  -- no version yet: a stage is made, filled, validated and renamed
  | none =>
    have hmissing : ∀ c : Choice, lstat c t (.entry modelId) = .error .fileNotFound := by
      intro c
      rw [lstat, hentry]
    apply wp_refuse (o := .lstat (.entry modelId)) (fun _ => by simp)
    · exact fun c _ => congrArg (fun r => some (r, t)) (hmissing c)
    apply wp_ret_alone
    have hfree : ∃ suffix, t.entries (".stage-" ++ suffix) = none := by
      obtain ⟨suffix, hsuffix⟩ := husable.exists_free ".stage-"
      refine ⟨suffix, ?_⟩
      rwa [h.entries _ (append_ne (by decide))]
    apply wp_bind.mpr
    apply wp_temporaryDirectory (Or.inl rfl) hfree
    intro stage hstage hnone
    have hne : stage ≠ modelId := by
      rintro rfl
      exact hstage.not_published (by decide)
    have hclear : t.setEntry stage none = t := by
      rw [← hnone]
      exact setEntry_entries t stage
    apply wp_publish hcheck hne hentry
    -- the artifact has the selected digest, and the stage becomes the version
    · intro hsum f hverified
      unfold Store.withFolder
      rw [setEntry_setEntry, hclear]
      have hfinal : (t.setEntry modelId (some (.folder f))).setEntry stage none
          = t.setEntry modelId (some (.folder f)) := by
        rw [← setEntry_comm hne, hclear]
      refine ⟨?_, wp_ret_alone ?_⟩
      · intro item
        rw [setEntry_of_ne _ _ hne, hnone]
        simp
      rw [hfinal]
      apply h.settled_change (hready.mpr hsum) (by decide)
      · apply publish_version (s := s) manifestPath source (setEntry_self t modelId _)
        intro other hother hdiff
        rw [setEntry_of_ne _ _ hdiff]
        apply h.entries
        rintro rfl
        exact hother rfl
      · have hpublished : Published sha256 digest .rollback t
            ((t.setEntry stage none).setEntry modelId (some (.folder f))) := by
          apply published_of_rename ht hstage hverified
          intro node hnode
          rw [hentry] at hnode
          exact absurd hnode (by simp)
        rw [hclear] at hpublished
        exact hpublished.exposed
    -- it has another one: the stage is removed again, and nothing is seen of it
    · intro hsum e f
      constructor
      · intro item
        unfold Store.withFolder
        rw [setEntry_self]
        simp
      · unfold Store.withFolder
        rw [setEntry_setEntry, hclear]
        exact h.settled hs (fun hr => absurd (hready.mp hr) hsum) fun _ => rfl
  -- the version is there: it and the source are validated, and nothing changes
  | some node =>
    obtain ⟨g, rfl, -⟩ := ht.version node hentry
    have hkind : ∀ c : Choice, lstat c t (.entry modelId) = .ok .directory := by
      intro c
      rw [lstat, hentry]
    have hinstalled : Installed t := by
      unfold Installed Store.folder
      rw [hentry]
      rfl
    have hvisible : (Call.install manifestPath source).publish s.visible = s.visible := by
      apply (Call.publish_eq_iff _ _).mpr
      intro hnew
      apply hnew
      rw [mem_versions_iff]
      unfold Installed at hinstalled ⊢
      rwa [h.folder (by decide)] at hinstalled
    apply wp_act (o := .lstat (.entry modelId)) (fun _ => by simp)
    intro c hc
    refine ⟨FileKind.directory, t, congrArg (fun r => some (r, t)) (hkind c), wp_ret_alone ?_⟩
    apply wp_bind.mpr
    have hartifact : Readable files t (Directory.file (.outside source) artifactName) _ :=
      readable_outside (source ++ "/" ++ artifactName)
    apply wp_validateModel (readable_outside manifestPath) hartifact hcheck
    · intro hsum
      apply wp_installedVersion ht
      · intro _ _
        exact h.settled hs (fun _ => ⟨rfl, hvisible⟩) fun hnot => absurd (hready.mpr hsum) hnot
      · exact fun hnot => absurd ⟨rfl, hinstalled⟩ hnot
    · intro hsum e
      exact h.settled hs (fun hr => absurd (hready.mp hr) hsum) fun _ => rfl

/-- A call that is served undisturbed in a store that is usable and exposes nothing unverified. -/
theorem wp_serve (husable : Usable s) (hs : Exposed sha256 digest s) (hself : s.holder ≠ some i)
    (call : Call) :
    (serve sha256 digest call).wp (undisturbed i files)
      (fun a => Settled sha256 digest call
        (s.holder = none ∧ call.Ready sha256 digest files s.visible) s (.ok a))
      (fun e => Settled sha256 digest call
        (s.holder = none ∧ call.Ready sha256 digest files s.visible) s (.error e)) s := by
  cases call with
  | install manifestPath source =>
    apply wp_bind.mpr
    apply wp_loadManifest (readable_outside manifestPath)
    · intro fields hcheck
      apply wp_locked husable hs hself fun hready => hready.1
      intro t h
      apply h.wp_install husable hs hcheck
      constructor
      · exact fun hready => hready.2.2
      · exact fun hsum => ⟨h.free, ⟨fields, hcheck⟩, hsum⟩
    · intro e he
      apply settled_refused hs
      rintro ⟨_, ⟨fields, hcheck⟩, _⟩
      rw [hcheck] at he
      exact absurd he (by simp)
  | activate id | qualify id =>
    apply wp_locked husable hs hself fun hready => hready.1
    intro t h
    apply h.wp_replacePointer husable hs rfl
    constructor
    · exact fun hready => ⟨hready.2.1, mem_versions_iff.mp hready.2.2⟩
    · exact fun hthere => ⟨h.free, hthere.1, mem_versions_iff.mpr hthere.2⟩
  | rollback =>
    apply wp_locked husable hs hself fun hready => hready.1
    intro t h
    have hsame : t.entries "known-good" = s.entries "known-good" := h.entries _ (by decide)
    apply wp_bind.mpr
    cases hentry : s.entries "known-good" with
    | none =>
      rw [hentry] at hsame
      apply wp_refuse (e := .fileNotFound) (fun _ => by simp)
      · intro c _
        simp only [effect, hsame]
      · apply h.settled hs
        · rintro ⟨_, hready⟩
          have hknown : s.target "known-good" = none := by
            unfold Store.target
            rw [hentry]
          exact absurd hready (by simp [Call.Ready, Store.visible, hknown])
        · exact fun _ => rfl
    | some node =>
      -- the pointer leads to the version, which is there
      obtain ⟨rfl, version, hversion⟩ := hs.pointers "known-good" (Or.inr rfl) node hentry
      obtain ⟨g, rfl, -⟩ := hs.version version hversion
      have hinstalled : Installed s := by
        unfold Installed Store.folder
        rw [hversion]
        rfl
      have hknown : s.target "known-good" = some modelId := by
        unfold Store.target
        rw [hentry]
      rw [hentry] at hsame
      apply wp_act (o := .readlink "known-good") (fun _ => by simp)
      intro c hc
      refine ⟨modelId, t, by simp only [effect, hsame], ?_⟩
      apply h.wp_replacePointer husable hs rfl
      constructor
      · exact fun _ => ⟨rfl, hinstalled⟩
      · exact fun _ => ⟨h.free, by simp [Call.Ready, Store.visible, hknown]⟩

end Served

end Undisturbed

/-- **The store recovers.** After any run, with its failures and with processes that were killed
anywhere, a process that is not running may serve a call undisturbed, and comes to an end. If no
process has the lock and what the call needs is there, the call returns and has done what it is for;
otherwise it raises and nothing visible has changed. Either way the lock and the temporary
directories are as before, and what is exposed is verified. The store it leaves is again one that a
run leads to, so that the same holds of the next call. -/
theorem recovers {as : List (Parallel.Event ι Call Choice)} {c : StoreConfig ι}
    (run : (storeSystem sha256 digest ι).Run (fun _ _ => True)
      (storeSystem sha256 digest ι).init as c) {i : ι} (hidle : c.procs i = none) (call : Call)
    (files : String → List UInt8) :
    (∃ out t, (serve sha256 digest call).Runs (undisturbed i files) c.state out t) ∧
    ∀ out t, (serve sha256 digest call).Runs (undisturbed i files) c.state out t →
      Settled sha256 digest call
        (c.state.holder = none ∧ call.Ready sha256 digest files c.state.visible)
        c.state out t ∧
      ∃ bs, (storeSystem sha256 digest ι).Run (fun _ _ => True)
        (storeSystem sha256 digest ι).init bs { c with state := t } := by
  obtain ⟨hsafe, hexposed⟩ := run_invariant run
  have hself : c.state.holder ≠ some i := by
    have hi := hsafe i
    rw [hidle] at hi
    exact hi
  have hserve : (serve sha256 digest call).wp (undisturbed i files) _ _ c.state :=
    wp_serve (run_usable run) hexposed hself call
  refine ⟨wp_exists_runs undisturbed_live hserve, ?_⟩
  intro out t hruns
  have hpost := wp_runs hserve hruns
  have hsettled : Settled sha256 digest call
      (c.state.holder = none ∧ call.Ready sha256 digest files c.state.visible) c.state out t := by
    cases out with
    | ok a => exact hpost.1 a rfl
    | error e => exact hpost.2 e rfl
  refine ⟨hsettled, ?_⟩
  -- the process starts, issues its operations, and ends
  obtain ⟨bs, hops⟩ : ∃ bs, (storeSystem sha256 digest ι).Run (fun _ _ => True)
      ⟨c.state, Function.update c.procs i (some (call, serve sha256 digest call))⟩ bs
      ⟨t, Function.update c.procs i (some (call, Prog.ofExcept out))⟩ :=
    Parallel.run_of_runs (S := machine) hruns c.procs
  have hstart : (storeSystem sha256 digest ι).step (.start i call) c
      = some ⟨c.state, Function.update c.procs i (some (call, serve sha256 digest call))⟩ := by
    simp only [storeSystem, Parallel.system, hidle]
  have hrelease : t.release i = t := by
    unfold Store.release
    rw [if_neg]
    rw [hsettled.holder]
    exact hself
  have hleave : (storeSystem sha256 digest ι).step (.leave i)
      ⟨t, Function.update c.procs i (some (call, Prog.ofExcept out))⟩
      = some { c with state := t } := by
    have hprocs : Function.update (Function.update c.procs i (some (call, Prog.ofExcept out))) i
        none = c.procs := by
      rw [Function.update_idem, ← hidle, Function.update_eq_self]
    simp only [storeSystem, Parallel.system, Function.update_self, hprocs]
    show some _ = some _
    rw [show machine.leave i t = t from hrelease]
  exact ⟨_, .step ((System.Run.step run trivial hstart).trans hops) trivial hleave⟩

end

attribute [local instance] Json.Nesting.default

/-- The installation of the fixture, killed before the directory is renamed. -/
def installKilled : List (Parallel.Event Nat Call Choice) :=
  .start 0 (.install "manifest.json" "source") :: List.replicate 22 (.op 0 fixtureChoice) ++
    [.leave 0]

/-- An installation is killed after its stage was made, and the lock is free again. -/
theorem exec_installKilled : ∃ c : StoreConfig Nat,
    (storeSystem fixtureSha256 fixtureDigest Nat).exec (fun _ _ => true) installKilled
      (storeSystem fixtureSha256 fixtureDigest Nat).init = some c ∧
    (c.state.holder, (c.procs 1).isSome, (c.state.entries ".stage-a").isSome,
      (c.state.entries modelId).isSome) = (none, false, true, false) := by
  apply Option.map_eq_some_iff.mp
  unfold storeSystem serve installModel activateModel qualifyModel rollbackModel replacePointer
    installedVersion publish validateModel loadManifest
  rw [fixtureCheck_eq]
  decide +kernel

def fixtureFiles (path : String) : List UInt8 :=
  if path = "manifest.json" then Py.encodeUtf8 fixtureText else fixtureArtifact

theorem recovers_installKilled : ∃ (c : StoreConfig Nat) (t : Store Nat),
    (c.state.entries ".stage-a").isSome = true ∧
    (serve fixtureSha256 fixtureDigest (.install "manifest.json" "source")).Runs
      (undisturbed 1 fixtureFiles) c.state (.ok modelId) t ∧
    t.entries ".stage-a" = c.state.entries ".stage-a" ∧ modelId ∈ t.visible.versions := by
  obtain ⟨c, hexec, hstate⟩ := exec_installKilled
  simp only [Prod.mk.injEq, Option.isSome_eq_false_iff, Option.isNone_iff_eq_none] at hstate
  obtain ⟨hholder, hidle, hleft, -⟩ := hstate
  -- the killed call left its stage behind and let go of the lock
  have run := (System.run_of_exec hexec).mono (fun _ _ _ => trivial)
  obtain ⟨⟨out, t, hruns⟩, hall⟩ :=
    recovers run hidle (.install "manifest.json" "source") fixtureFiles
  obtain ⟨hsettled, -⟩ := hall out t hruns
  -- the store is ready for the same call
  have hready : (Call.install "manifest.json" "source").Ready fixtureSha256 fixtureDigest
      fixtureFiles c.state.visible := by
    constructor
    · exact ⟨_, checkManifest_fixture (Json.loads_dumps _ _ (plain_selected _) (by decide))⟩
    · decide
  obtain ⟨rfl, hvisible⟩ := hsettled.done ⟨hholder, hready⟩
  refine ⟨c, t, hleft, hruns, hsettled.cleaned ".stage-a" rfl (by decide), ?_⟩
  rw [hvisible]
  exact Set.mem_insert _ _

end ModelStore

end Rave
