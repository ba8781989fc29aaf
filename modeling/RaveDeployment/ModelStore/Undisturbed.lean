import RaveDeployment.ModelStore.Failure
import RaveDeployment.ModelStore.ManifestGate

/-!
# A call that nothing disturbs

A process that runs alone, where no operation fails, the store belongs to it and the files outside
the store stay what they are. Here every operation has one outcome, up to the name of a temporary
directory and the blocks in which a file is read.
-/

namespace Rave

namespace ModelStore

open Prog

/-- What the surroundings choose where nothing fails and the files outside are `files`. -/
structure Calm (files : String → List UInt8) (o : StoreOp) (c : Choice) : Prop where
  succeeds : c.fails = none
  kind : c.kind = .regular
  info : c.info = ⟨.directory, false, true⟩
  content : ∀ path, o = .readFile (.outside path) → c.content = files path
  chunks : ∀ path, o = .readChunks (.outside path) →
    c.chunks.flatten = files path ∧ c.broken = none

variable {ι : Type} [DecidableEq ι]

/-- The surroundings of a call that runs alone and undisturbed. A name for a temporary directory is
found where there is one. -/
def undisturbed (i : ι) (files : String → List UInt8) : Env StoreOp StoreOp.Ans (Store ι) :=
  Env.sequential
    (fun o s => ∀ start, o = .mkdtemp start → ∃ suffix, s.entries (start ++ suffix) = none)
    fun o s r t => ∃ c, Calm files o c ∧ exec i o c s = some (r, t)

variable {i : ι} {files : String → List UInt8} {α β : Type} {s t : Store ι}

/-- An operation is answered, if only a name is free for a temporary directory. -/
theorem undisturbed_live (o : StoreOp) (s : Store ι) (h : (undisturbed i files).pre o s) :
    ∃ r t, (undisturbed i files).exec o s r t := by
  have hanswered : ∃ c, Calm files o c ∧ (effect i c s o).isSome := by
    cases o with
    -- a free name is needed, which the precondition provides
    | mkdtemp start =>
      obtain ⟨suffix, hfree⟩ := h start rfl
      refine ⟨{ suffix := suffix }, ⟨rfl, rfl, rfl, by simp, by simp⟩, ?_⟩
      simp only [effect, hfree, Option.isSome_some]
    -- a file outside the store is answered with its content
    | readFile p =>
      cases p with
      | outside path =>
        refine ⟨{ content := files path }, ⟨rfl, rfl, rfl, ?_, by simp⟩, rfl⟩
        intro path' heq
        cases heq
        rfl
      | root | entry | inside => exact ⟨{}, ⟨rfl, rfl, rfl, by simp, by simp⟩, rfl⟩
    | readChunks p =>
      cases p with
      | outside path =>
        refine ⟨{ chunks := [files path] }, ⟨rfl, rfl, rfl, by simp, ?_⟩, rfl⟩
        intro path' heq
        cases heq
        exact ⟨by simp, rfl⟩
      | root | entry | inside => exact ⟨{}, ⟨rfl, rfl, rfl, by simp, by simp⟩, rfl⟩
    | chmod p mode =>
      cases p <;> exact ⟨{}, ⟨rfl, rfl, rfl, by simp, by simp⟩, rfl⟩
    -- all other operations are answered without a choice
    | _ =>
      refine ⟨{}, ⟨rfl, rfl, rfl, by simp, by simp⟩, ?_⟩
      simp only [effect]
      first | rfl | (split <;> first | rfl | (split <;> rfl))
  obtain ⟨c, hc, hsome⟩ := hanswered
  obtain ⟨⟨r, t⟩, heffect⟩ := Option.isSome_iff_exists.mp hsome
  refine ⟨r, t, c, hc, ?_⟩
  unfold exec
  rw [hc.succeeds]
  exact heffect

/-! ## Rules

The rules of `wp` for an environment in which every operation is answered. -/

section Rules

variable {Q : α → Store ι → Prop} {R : ModelError → Store ι → Prop}

theorem wp_ret_alone {a : α} (h : Q a s) :
    (ret a : StoreM α).wp (undisturbed i files) Q R s := by
  rintro t rfl
  exact h

theorem wp_raise_alone {e : ModelError} (h : R e s) :
    (raise e : StoreM α).wp (undisturbed i files) Q R s := by
  rintro t rfl
  exact h

/-- A check splits on its condition. -/
theorem wp_require {c : Prop} [Decidable c] {message : String} {Q : Unit → Store ι → Prop}
    (hpos : c → Q () s) (hneg : ¬ c → R (.valueError message) s) :
    (require c message).wp (undisturbed i files) Q R s := by
  unfold require
  split
  · next hc => exact wp_ret_alone (hpos hc)
  · next hc => exact wp_raise_alone (hneg hc)

/-- One operation, of which every outcome is known. -/
theorem wp_perform {o : StoreOp} {Q : o.Result → Store ι → Prop}
    (hname : ∀ start, o = .mkdtemp start → ∃ suffix, s.entries (start ++ suffix) = none)
    (h : ∀ c r t, Calm files o c → effect i c s o = some (r, t) →
      (∀ a, r = .ok a → Q a t) ∧ ∀ e, r = .error e → R (.osError e) t) :
    (perform o).wp (undisturbed i files) Q R s := by
  rintro t rfl
  refine ⟨hname, ?_⟩
  rintro r w ⟨c, hc, hexec⟩
  unfold exec at hexec
  rw [hc.succeeds] at hexec
  have hr := h c r w hc hexec
  cases r with
  | ok a => exact wp_ret_alone (hr.1 a rfl)
  | error e => exact wp_raise_alone (hr.2 e rfl)

theorem wp_act {o : StoreOp} {Q : o.Result → Store ι → Prop} (hname : ∀ start, o ≠ .mkdtemp start)
    (h : ∀ c, Calm files o c → ∃ a t, effect i c s o = some (.ok a, t) ∧ Q a t) :
    (perform o).wp (undisturbed i files) Q R s := by
  apply wp_perform (fun start heq => absurd heq (hname start))
  intro c r t hc heffect
  obtain ⟨a, w, heffect', hQ⟩ := h c hc
  rw [heffect'] at heffect
  obtain ⟨rfl, rfl⟩ := Prod.mk.inj (Option.some.inj heffect)
  constructor
  · rintro a' ⟨⟩
    exact hQ
  · rintro e ⟨⟩

/-- An operation that fails and changes nothing. -/
theorem wp_refuse {o : StoreOp} {Q : o.Result → Store ι → Prop} {e : OSError}
    (hname : ∀ start, o ≠ .mkdtemp start)
    (h : ∀ c, Calm files o c → effect i c s o = some (.error e, s)) (hR : R (.osError e) s) :
    (perform o).wp (undisturbed i files) Q R s := by
  apply wp_perform (fun start heq => absurd heq (hname start))
  intro c r t hc heffect
  rw [h c hc] at heffect
  obtain ⟨rfl, rfl⟩ := Prod.mk.inj (Option.some.inj heffect)
  constructor
  · rintro a ⟨⟩
  · rintro e' ⟨⟩
    exact hR

end Rules

/-! ## Files of a folder

The rules of the operations inside a temporary directory, on the folder that lies there. -/

omit [DecidableEq ι] in
@[simp] theorem setEntry_setEntry (s : Store ι) (name : String) (node node' : Option Node) :
    (s.setEntry name node).setEntry name node' = s.setEntry name node' := by
  unfold Store.setEntry
  rw [Function.update_idem]

omit [DecidableEq ι] in
/-- Setting an entry to what it is changes nothing. -/
theorem setEntry_entries (s : Store ι) (name : String) :
    s.setEntry name (s.entries name) = s := by
  unfold Store.setEntry
  rw [Function.update_eq_self]

def Store.withFolder (s : Store ι) (name : String) (f : Folder) : Store ι :=
  s.setEntry name (some (.folder f))

section Files

variable {stage : String} {f f' : Folder} {R : ModelError → Store ι → Prop}

omit [DecidableEq ι] in
/-- A change inside a folder that lies there. -/
theorem inFolder_withFolder {g : Folder → Except OSError Folder} (hg : g f = .ok f') :
    (s.withFolder stage f).inFolder stage g = (.ok (), s.withFolder stage f') := by
  unfold Store.inFolder Store.withFolder
  rw [folder_setEntry_self]
  dsimp only
  rw [hg]
  dsimp only
  rw [setEntry_setEntry]

omit [DecidableEq ι] in
/-- A change that fails leaves the folder as it was. -/
theorem inFolder_withFolder_error {g : Folder → Except OSError Folder} {e : OSError}
    (hg : g f = .error e) :
    (s.withFolder stage f).inFolder stage g = (.error e, s.withFolder stage f) := by
  unfold Store.inFolder
  rw [show (s.withFolder stage f).folder stage = some f from folder_setEntry_self s stage f]
  dsimp only
  rw [hg]

/-- Appending to a file that is there. -/
theorem get_append {content data : List UInt8} {mode : Nat} {name : String}
    (h : f.get name = some (.file content mode)) :
    appendItem data name f = .ok (f.put name (.file (content ++ data) mode)) := by
  unfold appendItem
  rw [h]

/-- The blocks of a file are put together. -/
theorem wp_appends {name : String} {mode : Nat} {Q : Unit → Store ι → Prop} {content : List UInt8}
    {chunks : List (List UInt8)} (h : f.get name = some (.file content mode))
    (hQ : ∀ f', f'.get name = some (.file (content ++ chunks.flatten) mode) →
      (∀ other, other ≠ name → f'.get other = f.get other) → Q () (s.withFolder stage f')) :
    (forEach chunks fun chunk => perform (.append stage name chunk)).wp (undisturbed i files) Q R
      (s.withFolder stage f) := by
  -- on the chunks: what was appended grows by one
  induction chunks generalizing f content with
  | nil =>
    apply wp_ret_alone
    apply hQ f
    · rw [List.flatten_nil, List.append_nil]
      exact h
    · exact fun _ _ => rfl
  | cons chunk chunks ih =>
    apply wp_bind.mpr
    apply wp_act (fun _ => by simp)
    intro c hc
    refine ⟨(), _, congrArg some (inFolder_withFolder (get_append h)), ?_⟩
    apply ih (get_put_self f name _)
    intro f' hself hother
    apply hQ f'
    · rw [hself, List.flatten_cons, List.append_assoc]
    · intro other hne
      rw [hother other hne, get_put_of_ne f _ hne]

/-- A file is copied into a folder. -/
theorem wp_copyfile {path name : String} {Q : Unit → Store ι → Prop}
    (hQ : ∀ f' mode, f'.get name = some (.file (files path) mode) →
      (∀ other, other ≠ name → f'.get other = f.get other) → Q () (s.withFolder stage f')) :
    (copyfile (.outside path) stage name).wp (undisturbed i files) Q R (s.withFolder stage f) := by
  apply wp_bind.mpr
  -- the source is opened, the file is created, and the blocks are appended one by one
  apply wp_act (fun _ => by simp)
  intro c hc
  refine ⟨(), _, rfl, ?_⟩
  apply wp_bind.mpr
  apply wp_act (fun _ => by simp)
  intro c hc
  refine ⟨(), _, congrArg some (inFolder_withFolder rfl), ?_⟩
  apply wp_bind.mpr
  apply wp_act (o := .readChunks (.outside path)) (fun _ => by simp)
  intro c' hc'
  refine ⟨(c'.chunks, c'.broken), _, rfl, ?_⟩
  obtain ⟨hchunks, hbroken⟩ := hc'.chunks path rfl
  apply wp_bind.mpr
  apply wp_appends (get_put_self f name _)
  intro f' hself hother
  rw [hbroken]
  apply wp_ret_alone
  -- the blocks put together are the content of the source
  apply hQ f' c.mode
  · rw [hself, hchunks, List.nil_append]
  · intro other hne
    rw [hother other hne, get_put_of_ne f _ hne]

/-- After `write_text` the file holds the text, and the other files are as before. -/
theorem wp_writeText {name : String} {text : List Char} {Q : Unit → Store ι → Prop}
    (hQ : ∀ f' mode, f'.get name = some (.file (Py.encodeUtf8 text) mode) →
      (∀ other, other ≠ name → f'.get other = f.get other) → Q () (s.withFolder stage f')) :
    (writeText stage name text).wp (undisturbed i files) Q R (s.withFolder stage f) := by
  apply wp_bind.mpr
  apply wp_act (fun _ => by simp)
  intro c hc
  refine ⟨(), _, congrArg some (inFolder_withFolder rfl), ?_⟩
  apply wp_act (fun _ => by simp)
  intro c' hc'
  refine ⟨(), _, congrArg some (inFolder_withFolder (get_append (get_put_self f name _))), ?_⟩
  apply hQ _ c.mode
  · exact get_put_self _ name _
  · intro other hne
    rw [get_put_of_ne _ _ hne, get_put_of_ne f _ hne]

/-! ## Temporary directories

A temporary directory is made under a free name, used, and removed with what it holds. -/

/-- Removing a name that is not there changes nothing. -/
theorem get_remove_of_none {name : String} (h : f.get name = none) : f.remove name = f := by
  unfold Folder.remove
  congr 1
  apply List.filter_eq_self.mpr
  intro item hitem
  simp only [Folder.get, Option.map_eq_none_iff, List.find?_eq_none] at h
  simpa using h item hitem

theorem remove_items (f : Folder) (name : String) :
    (f.remove name).items = f.items.filter fun item => item.1 ≠ name := rfl

/-- The items of these names are removed. -/
theorem wp_unlinks {names : List String} {Q : Unit → Store ι → Prop}
    (hQ : ∀ f', (∀ item ∈ f'.items, item ∈ f.items ∧ item.1 ∉ names) →
      Q () (s.withFolder stage f')) :
    (forEach names fun item => ignoreMissing (perform (.unlink stage item))).wp
      (undisturbed i files) Q R (s.withFolder stage f) := by
  induction names generalizing f with
  | nil =>
    apply wp_ret_alone
    apply hQ f
    exact fun item hitem => ⟨hitem, by simp⟩
  | cons name names ih =>
    -- whether the item is there or not, it is not there afterwards
    have hrest : (forEach names fun item => ignoreMissing (perform (.unlink stage item))).wp
        (undisturbed i files) Q R (s.withFolder stage (f.remove name)) := by
      apply ih
      intro f' hf'
      apply hQ f'
      intro item hitem
      obtain ⟨hin, hnot⟩ := hf' item hitem
      rw [remove_items, List.mem_filter] at hin
      refine ⟨hin.1, ?_⟩
      rw [List.mem_cons, not_or]
      exact ⟨by simpa using hin.2, hnot⟩
    apply wp_bind.mpr
    apply wp_handle.mpr
    cases hget : f.get name with
    | none =>
      have hmissing : unlinkItem name f = .error .fileNotFound := by
        unfold unlinkItem
        rw [hget]
      rw [get_remove_of_none hget] at hrest
      apply wp_refuse (fun _ => by simp)
      · exact fun c _ => congrArg some (inFolder_withFolder_error hmissing)
      · exact wp_ret_alone hrest
    | some item =>
      have hremoved : unlinkItem name f = .ok (f.remove name) := by
        unfold unlinkItem
        rw [hget]
      apply wp_act (fun _ => by simp)
      intro c hc
      exact ⟨(), _, congrArg some (inFolder_withFolder hremoved), wp_ret_alone hrest⟩

/-- A temporary directory is removed with what is in it, if it is still there. -/
theorem wp_cleanup {Q : Unit → Store ι → Prop} (h : ∀ item, t.entries stage ≠ some (.item item))
    (hQ : Q () (t.setEntry stage none)) :
    (cleanup stage).wp (undisturbed i files) Q R t := by
  apply wp_bind.mpr
  apply wp_attempt.mpr
  cases hentry : t.entries stage with
  -- the stage has been renamed: there is nothing to remove
  | none =>
    have hsame : t.setEntry stage none = t := by
      rw [← hentry]
      exact setEntry_entries t stage
    have hfolder : t.folder stage = none := by
      unfold Store.folder
      rw [hentry]
    apply wp_refuse (e := .fileNotFound) (fun _ => by simp)
    · intro c _
      simp only [effect, hfolder]
    · apply wp_ret_alone
      rwa [hsame] at hQ
  | some node =>
    cases node with
    | item item => exact absurd hentry (h item)
    -- it is still there: its files are removed one by one, and then the directory
    | folder f =>
      have ht : t = t.withFolder stage f := by
        unfold Store.withFolder
        rw [← hentry, setEntry_entries]
      have hfolder : ∀ f', (t.withFolder stage f').folder stage = some f' :=
        folder_setEntry_self t stage
      rw [ht]
      apply wp_act (o := .listdir stage) (fun _ => by simp)
      intro c hc
      refine ⟨f.items.map Prod.fst, t.withFolder stage f, by simp only [effect, hfolder], ?_⟩
      apply wp_bind.mpr
      apply wp_unlinks
      intro f' hf'
      -- every file that was listed has been removed
      have hempty : f'.items = [] := by
        apply List.eq_nil_iff_forall_not_mem.mpr
        intro item hitem
        obtain ⟨hin, hnot⟩ := hf' item hitem
        exact hnot (List.mem_map_of_mem hin)
      apply wp_handle.mpr
      apply wp_act (fun _ => by simp)
      intro c' hc'
      refine ⟨(), (t.withFolder stage f').setEntry stage none, ?_, wp_ret_alone ?_⟩
      · simp only [effect, hfolder, hempty, List.isEmpty_nil, if_true]
      · unfold Store.withFolder
        rwa [setEntry_setEntry]

end Files

/-- The body works in a directory that was not there before and is not there afterwards. -/
theorem wp_temporaryDirectory {start : String} (hstart : start = ".stage-" ∨ start = ".pointer-")
    {body : String → StoreM Unit} {Q : Unit → Store ι → Prop} {R : ModelError → Store ι → Prop}
    (hname : ∃ suffix, s.entries (start ++ suffix) = none)
    (hbody : ∀ name, Temporary name → s.entries name = none →
      (body name).wp (undisturbed i files)
        (fun u t => (∀ item, t.entries name ≠ some (.item item)) ∧ Q u (t.setEntry name none))
        (fun e t => (∀ item, t.entries name ≠ some (.item item)) ∧ R e (t.setEntry name none))
        (s.withFolder name ⟨[], 0o700⟩)) :
    (temporaryDirectory start body).wp (undisturbed i files) Q R s := by
  apply wp_bind.mpr
  apply wp_perform
  · rintro start' ⟨⟩
    exact hname
  intro c r t hc heffect
  -- the name that is answered is free
  simp only [effect] at heffect
  split at heffect
  · next hfree =>
    obtain ⟨rfl, rfl⟩ := Prod.mk.inj (Option.some.inj heffect)
    constructor
    · rintro name ⟨⟩
      have htemp : Temporary (start ++ c.suffix) := by
        rcases hstart with rfl | rfl
        · exact ⟨c.suffix, Or.inl rfl⟩
        · exact ⟨c.suffix, Or.inr rfl⟩
      apply wp_finallyDo.mpr
      apply wp_mono (hbody _ htemp hfree)
      · rintro u t ⟨hdir, hQ⟩
        exact wp_cleanup hdir (wp_ret_alone hQ)
      · rintro e t ⟨hdir, hR⟩
        exact wp_cleanup hdir (wp_raise_alone hR)
    · rintro e ⟨⟩
  · exact absurd heffect (by simp)

/-- The body runs under the lock, if no other process has it. -/
theorem wp_storeLock {body : StoreM α} {Q : α → Store ι → Prop} {R : ModelError → Store ι → Prop}
    (hfile : ∀ node, s.entries ".admin.lock" = some node →
      ∃ content mode, node = .item (.file content mode))
    (hself : s.holder ≠ some i)
    (htaken : ∀ j t, s.holder = some j → Unchanged s t → R (.osError .other) t)
    (hbody : s.holder = none → ∀ t, Held i t →
      (∀ name, name ≠ ".admin.lock" → t.entries name = s.entries name) →
      body.wp (undisturbed i files) (fun a w => Q a (w.release i)) (fun e w => R e (w.release i))
        t) :
    (storeLock body).wp (undisturbed i files) Q R s := by
  apply wp_bind.mpr
  apply wp_act (fun _ => by simp)
  intro c hc
  refine ⟨⟨.directory, false, true⟩, s, ?_, ?_⟩
  · simp only [effect, hc.info]
  apply wp_bind.mpr
  apply wp_require _ (fun h => absurd ⟨rfl, rfl⟩ h)
  intro _
  apply wp_bind.mpr
  apply wp_require _ (fun h => absurd rfl h)
  intro _
  -- the lock file is there afterwards
  have hopen : ∀ c : Choice, ∃ t, effect i c s .openLock = some (.ok (), t) ∧ Unchanged s t := by
    intro c
    cases hentry : s.entries ".admin.lock" with
    | none =>
      refine ⟨s.setEntry ".admin.lock" (some (.item (.file [] 0o600))),
        by simp only [effect, hentry], rfl, ?_⟩
      intro name hname
      exact setEntry_of_ne _ _ hname
    | some node =>
      obtain ⟨content, mode, rfl⟩ := hfile node hentry
      exact ⟨s, by simp only [effect, hentry], .refl s⟩
  apply wp_bind.mpr
  apply wp_act (fun _ => by simp)
  intro c hc
  obtain ⟨t, heffect, hsame⟩ := hopen c
  refine ⟨(), t, heffect, ?_⟩
  have hclose : ∀ {a : α} {w : Store ι}, Q a (w.release i) →
      (perform .closeLock).wp (undisturbed i files)
        (fun _ => (ret a : StoreM α).wp (undisturbed i files) Q R) R w := by
    intro a w hQ
    apply wp_act (fun _ => by simp)
    intro c' hc'
    exact ⟨(), _, rfl, wp_ret_alone hQ⟩
  have hclose' : ∀ {e : ModelError} {w : Store ι}, R e (w.release i) →
      (perform .closeLock).wp (undisturbed i files)
        (fun _ => (raise e : StoreM α).wp (undisturbed i files) Q R) R w := by
    intro e w hR
    apply wp_act (fun _ => by simp)
    intro c' hc'
    exact ⟨(), _, rfl, wp_raise_alone hR⟩
  apply wp_finallyDo.mpr
  apply wp_bind.mpr
  cases hholder : s.holder with
  | none =>
    apply wp_act (fun _ => by simp)
    intro c' hc'
    have hfree : t.holder = none := hsame.1.trans hholder
    refine ⟨(), { t with holder := some i }, by simp only [effect, hfree], ?_⟩
    apply wp_mono (hbody hholder { t with holder := some i } rfl hsame.2)
    · exact fun a w hQ => hclose hQ
    · exact fun e w hR => hclose' hR
  | some j =>
    have htaken' : t.holder = some j := hsame.1.trans hholder
    apply wp_refuse (e := .other) (fun _ => by simp)
    · intro c' _
      simp only [effect, htaken']
    · apply hclose'
      have hrelease : t.release i = t := by
        unfold Store.release
        rw [if_neg]
        rw [htaken', ← hholder]
        exact hself
      rw [hrelease]
      exact htaken j t hholder hsame

end ModelStore

end Rave
