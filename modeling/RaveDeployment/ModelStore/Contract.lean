import RaveDeployment.ModelStore.Operations

/-!
# What an administrator may do to the store

`exec_effect` says what one operation does. `contract` is what a process may do while it serves a
call: it changes entries only under the lock, works in its temporary directory, publishes only a
verified folder, and replaces only the pointer of its call, by a link to a version that is there.
-/

namespace Rave

namespace ModelStore

variable {ι : Type} [DecidableEq ι]

/-! ## One operation

What an operation can do to the store, said once. Every change that `exec` makes to a folder is read
off `folderChange`, so that the invariants further up split over its few cases and not over twenty
operations. -/

def folderChange (c : Choice) : StoreOp → Option (String × (Folder → Except OSError Folder))
  | .create folder name => some (folder, fun f => .ok (f.put name (.file [] c.mode)))
  | .append folder name data =>
    some (folder, appendItem (if c.fails = none then data else data.take c.written) name)
  | .chmod (.inside folder name) mode => some (folder, chmodItem mode name)
  | .chmod (.entry folder) mode => some (folder, fun f => .ok { f with mode := mode })
  | .symlink folder name target => some (folder, symlinkItem target name)
  | .unlink folder name => some (folder, unlinkItem name)
  | _ => none

/-- What a process that holds the lock notices of the others: the lock file at most. -/
def Unchanged (s t : Store ι) : Prop :=
  t.holder = s.holder ∧ ∀ name, name ≠ ".admin.lock" → t.entries name = s.entries name

/-- What an operation of process `i` does to the store. -/
inductive Effect (i : ι) (c : Choice) (s : Store ι) : StoreOp → Bool → Store ι → Prop where
  | unchanged {o : StoreOp} {ok : Bool} {t : Store ι} (h : Unchanged s t)
      (hok : ok = true → folderChange c o = none) : Effect i c s o ok t
  | lock (h : s.holder = none) : Effect i c s .flock true { s with holder := some i }
  | unlock (ok : Bool) : Effect i c s .closeLock ok (s.release i)
  | change {o : StoreOp} {ok : Bool} {folder : String} {g : Folder → Except OSError Folder}
      {f f' : Folder} (ho : folderChange c o = some (folder, g)) (hf : s.folder folder = some f)
      (hg : g f = .ok f') : Effect i c s o ok (s.setEntry folder (some (.folder f')))
  | mkdtemp (start : String) (h : s.entries (start ++ c.suffix) = none) :
      Effect i c s (.mkdtemp start) true
        (s.setEntry (start ++ c.suffix) (some (.folder ⟨[], 0o700⟩)))
  | rmdir (folder : String) : Effect i c s (.rmdir folder) true (s.setEntry folder none)
  | rename {folder destination : String} {f : Folder} (hf : s.folder folder = some f)
      (hfree : ∀ node, s.entries destination = some node → ∃ g, node = .folder g ∧ g.items = []) :
      Effect i c s (.rename folder destination) true
        ((s.setEntry folder none).setEntry destination (some (.folder f)))
  | replace {folder name destination : String} {f : Folder} {item : Item}
      (hf : s.folder folder = some f) (hitem : f.get name = some item) :
      Effect i c s (.replaceEntry folder name destination) true
        ((s.setEntry folder (some (.folder (f.remove name)))).setEntry destination
          (some (.item item)))

omit [DecidableEq ι] in
theorem Unchanged.refl (s : Store ι) : Unchanged s s :=
  ⟨rfl, fun _ _ => rfl⟩

omit [DecidableEq ι] in
/-- A change inside a folder either fails and leaves the store as it was, or replaces the folder. -/
theorem inFolder_cases (s : Store ι) (folder : String) (g : Folder → Except OSError Folder) :
    ((s.inFolder folder g).1.isOk = false ∧ (s.inFolder folder g).2 = s) ∨
    ∃ f f', s.folder folder = some f ∧ g f = .ok f' ∧
      (s.inFolder folder g).2 = s.setEntry folder (some (.folder f')) := by
  unfold Store.inFolder
  split
  · exact Or.inl ⟨rfl, rfl⟩
  next f hf =>
  split
  · next f' hg => exact Or.inr ⟨f, f', hf, hg, rfl⟩
  · exact Or.inl ⟨rfl, rfl⟩

/-- A change inside a folder is one of the effects of its operation. -/
theorem inFolder_effect {i : ι} {c : Choice} {s : Store ι} {o : StoreOp} {folder : String}
    {g : Folder → Except OSError Folder} (ho : folderChange c o = some (folder, g)) {ok : Bool}
    (hok : ok = true → (s.inFolder folder g).1.isOk = true) :
    Effect i c s o ok (s.inFolder folder g).2 := by
  rcases inFolder_cases s folder g with ⟨hfails, hsame⟩ | ⟨f, f', hf, hg, hchange⟩
  · rw [hsame]
    refine .unchanged (.refl s) (fun htrue => ?_)
    rw [hok htrue] at hfails
    exact absurd hfails (by simp)
  · rw [hchange]
    exact .change ho hf hg

/-- The answer and the store of a change of one folder. -/
theorem inFolder_effect_eq {i : ι} {c : Choice} {s t : Store ι} {o : StoreOp} {folder : String}
    {g : Folder → Except OSError Folder} {r : Except OSError Unit}
    (ho : folderChange c o = some (folder, g)) (h : s.inFolder folder g = (r, t)) :
    Effect i c s o r.isOk t := by
  have heffect : Effect i c s o r.isOk (s.inFolder folder g).2 :=
    inFolder_effect ho (by rw [h]; exact id)
  rwa [h] at heffect

/-- An operation that leaves the store alone has an effect that changes nothing. -/
theorem effect_of_same {i : ι} {c : Choice} {s t : Store ι} {o : StoreOp} {ok : Bool}
    (ho : folderChange c o = none) (h : t = s) : Effect i c s o ok t := by
  rw [h]
  exact .unchanged (.refl s) (fun _ => ho)

/-- An operation that fails may leave the store alone. -/
theorem effect_of_error {i : ι} {c : Choice} {s t : Store ι} {o : StoreOp} (h : t = s) :
    Effect i c s o false t := by
  rw [h]
  exact .unchanged (.refl s) (fun hok => absurd hok (by simp))

/-- What a failing operation leaves behind is one of its effects, the half-written file included. -/
theorem failed_effect {i : ι} {c : Choice} {s : Store ι} {e : OSError} (hc : c.fails = some e)
    (o : StoreOp) : Effect i c s o false (failed i c s o) := by
  cases o with
  | append folder name data =>
    apply inFolder_effect
    · rw [folderChange, if_neg (by rw [hc]; simp)]
    · exact fun h => absurd h (by simp)
  | closeLock => exact .unlock false
  | _ => exact effect_of_error rfl

/-- What a successful operation does is one of its effects. -/
theorem effect_effect {i : ι} {c : Choice} {s t : Store ι} {o : StoreOp} {r : o.Ans}
    (hc : c.fails = none) (h : effect i c s o = some (r, t)) : Effect i c s o r.isOk t := by
  cases o with
  | lstat p | readFile p | openSource p | readChunks p | storeInfo | fsync p =>
    exact effect_of_same rfl (Prod.mk.inj (Option.some.inj h)).2.symm
  -- the lock file is made at the first call; no one else sees it change
  | openLock =>
    simp only [effect] at h
    split at h
    · obtain ⟨-, rfl⟩ := Prod.mk.inj (Option.some.inj h)
      refine .unchanged ⟨rfl, ?_⟩ (fun _ => rfl)
      intro name hname
      exact Function.update_of_ne hname _ _
    · exact effect_of_same rfl (Prod.mk.inj (Option.some.inj h)).2.symm
    · exact effect_of_same rfl (Prod.mk.inj (Option.some.inj h)).2.symm
  | flock =>
    simp only [effect] at h
    split at h
    · next hfree =>
      obtain ⟨rfl, rfl⟩ := Prod.mk.inj (Option.some.inj h)
      exact .lock hfree
    · exact effect_of_same rfl (Prod.mk.inj (Option.some.inj h)).2.symm
  | closeLock =>
    obtain ⟨rfl, rfl⟩ := Prod.mk.inj (Option.some.inj h)
    exact .unlock true
  | mkdtemp start =>
    simp only [effect] at h
    split at h
    · next hfree =>
      obtain ⟨rfl, rfl⟩ := Prod.mk.inj (Option.some.inj h)
      exact .mkdtemp start hfree
    · exact absurd h (by simp)
  | create folder name => exact inFolder_effect_eq rfl (Option.some.inj h)
  | append folder name data =>
    apply inFolder_effect_eq _ (Option.some.inj h)
    rw [folderChange, if_pos hc]
  | chmod p mode =>
    cases p with
    | outside path | root =>
      obtain ⟨rfl, rfl⟩ := Prod.mk.inj (Option.some.inj h)
      exact effect_of_error rfl
    | entry folder => exact inFolder_effect_eq rfl (Option.some.inj h)
    | inside folder name => exact inFolder_effect_eq rfl (Option.some.inj h)
  | symlink folder name target => exact inFolder_effect_eq rfl (Option.some.inj h)
  | unlink folder name => exact inFolder_effect_eq rfl (Option.some.inj h)
  | listdir folder =>
    simp only [effect] at h
    split at h
    · exact effect_of_same rfl (Prod.mk.inj (Option.some.inj h)).2.symm
    · exact effect_of_same rfl (Prod.mk.inj (Option.some.inj h)).2.symm
  | readlink name =>
    simp only [effect] at h
    split at h
    · exact effect_of_same rfl (Prod.mk.inj (Option.some.inj h)).2.symm
    · exact effect_of_same rfl (Prod.mk.inj (Option.some.inj h)).2.symm
    · exact effect_of_same rfl (Prod.mk.inj (Option.some.inj h)).2.symm
  | rmdir folder =>
    simp only [effect] at h
    split at h
    · exact effect_of_same rfl (Prod.mk.inj (Option.some.inj h)).2.symm
    split at h
    · obtain ⟨rfl, rfl⟩ := Prod.mk.inj (Option.some.inj h)
      exact .rmdir folder
    · exact effect_of_same rfl (Prod.mk.inj (Option.some.inj h)).2.symm
  | rename folder destination =>
    have h' := Option.some.inj h
    unfold renameFolder at h'
    split at h'
    · exact effect_of_same rfl (Prod.mk.inj h').2.symm
    next f hf =>
    split at h'
    · next hfree =>
      obtain ⟨rfl, rfl⟩ := Prod.mk.inj h'
      apply Effect.rename hf
      intro node hnode
      rw [Store.free, hnode] at hfree
      cases node with
      | item i => exact absurd hfree (by simp)
      | folder g => exact ⟨g, rfl, List.isEmpty_iff.mp hfree⟩
    · exact effect_of_same rfl (Prod.mk.inj h').2.symm
  | replaceEntry folder name destination =>
    have h' := Option.some.inj h
    unfold replaceEntry at h'
    split at h'
    · exact effect_of_same rfl (Prod.mk.inj h').2.symm
    next f hf =>
    split at h'
    · exact effect_of_same rfl (Prod.mk.inj h').2.symm
    · exact effect_of_same rfl (Prod.mk.inj h').2.symm
    · next item hitem _ =>
      obtain ⟨rfl, rfl⟩ := Prod.mk.inj h'
      exact .replace hf hitem

/-- The inversion lemma of the store: whatever an operation does is one of its effects. -/
theorem exec_effect {i : ι} {c : Choice} {s t : Store ι} {o : StoreOp} {r : o.Ans}
    (h : exec i o c s = some (r, t)) : Effect i c s o r.isOk t := by
  unfold exec at h
  split at h
  · next e hc =>
    obtain ⟨rfl, rfl⟩ := Prod.mk.inj (Option.some.inj h)
    exact failed_effect hc o
  · next hc => exact effect_effect hc h

/-! ## Names and folders

Temporary directories and the lock file begin with a dot, and the three published names do not.
Whatever is done inside a temporary directory leaves what is published alone. -/

def Temporary (name : String) : Prop :=
  ∃ suffix, name = ".stage-" ++ suffix ∨ name = ".pointer-" ++ suffix

/-- A temporary name is not a name that neither prefix starts. -/
theorem Temporary.ne {name other : String} (h : Temporary name)
    (hstage : ∀ suffix, ".stage-" ++ suffix ≠ other)
    (hpointer : ∀ suffix, ".pointer-" ++ suffix ≠ other) : name ≠ other := by
  obtain ⟨suffix, rfl | rfl⟩ := h
  · exact hstage suffix
  · exact hpointer suffix

/-- A name does not start with what it does not start with. -/
theorem append_ne {start other suffix : String}
    (h : other.toList.take start.toList.length ≠ start.toList) : start ++ suffix ≠ other := by
  intro heq
  rw [← heq, String.toList_append, List.take_left] at h
  exact h rfl

def published : List String :=
  [modelId, "current", "known-good"]

/-- No temporary directory has a published name. -/
theorem Temporary.not_published {name : String} (h : Temporary name) : name ∉ published := by
  have hne : ∀ other ∈ published, name ≠ other := by
    intro other hother
    simp only [published, List.mem_cons, List.not_mem_nil, or_false] at hother
    apply h.ne
    · intro suffix
      rcases hother with rfl | rfl | rfl <;> exact append_ne (by decide)
    · intro suffix
      rcases hother with rfl | rfl | rfl <;> exact append_ne (by decide)
  exact fun hmem => hne name hmem rfl

theorem Temporary.ne_lock {name : String} (h : Temporary name) : name ≠ ".admin.lock" :=
  h.ne (fun _ => append_ne (by decide)) (fun _ => append_ne (by decide))

theorem lock_not_published : ".admin.lock" ∉ published := by
  decide

omit [DecidableEq ι] in
@[simp] theorem setEntry_holder (s : Store ι) (name : String) (node : Option Node) :
    (s.setEntry name node).holder = s.holder := rfl

omit [DecidableEq ι] in
@[simp] theorem setEntry_self (s : Store ι) (name : String) (node : Option Node) :
    (s.setEntry name node).entries name = node :=
  Function.update_self _ _ _

omit [DecidableEq ι] in
theorem setEntry_of_ne (s : Store ι) {name other : String} (node : Option Node)
    (h : other ≠ name) : (s.setEntry name node).entries other = s.entries other :=
  Function.update_of_ne h _ _

variable [Json.Nesting] (sha256 : List UInt8 → String) (digest : String)

/-- A folder that `validate_model` accepts. -/
structure Verified (f : Folder) : Prop where
  manifest : ∃ content mode fields, f.get "manifest.json" = some (.file content mode)
    ∧ checkManifest digest content = .ok fields
  artifact : ∃ content mode, f.get artifactName = some (.file content mode)
    ∧ sha256 content = digest

/-! ## The contract

What each call's process may issue in each state of the store, and what it may take for granted of
the operations of the other processes. -/

def Allowed (call : Call) (i : ι) (s : Store ι) : StoreOp → Prop
  | .mkdtemp start => s.holder = some i ∧ (start = ".stage-" ∨ start = ".pointer-")
  | .create folder _ | .append folder _ _ | .chmod (.inside folder _) _ | .chmod (.entry folder) _
  | .symlink folder _ _ | .unlink folder _ | .rmdir folder =>
    s.holder = some i ∧ Temporary folder
  | .rename folder destination =>
    s.holder = some i ∧ Temporary folder ∧ destination = modelId ∧
      ∃ f, s.folder folder = some f ∧ Verified sha256 digest f
  | .replaceEntry folder name destination =>
    s.holder = some i ∧ Temporary folder ∧ call.pointer = some destination ∧
      (∃ f, s.folder folder = some f ∧ f.get name = some (.link modelId)) ∧
      ∃ g, s.folder modelId = some g
  | _ => True

/-- Each call may issue what `Allowed` says, and relies on an unchanged store while it holds the
lock. -/
def contract : Parallel.Contract ι Call StoreOp (Store ι) where
  rely i s t := (s.holder = some i → Unchanged s t) ∧ (s.holder ≠ some i → t.holder ≠ some i)
  rely_refl _ s := ⟨fun _ => .refl s, id⟩
  rely_trans := by
    intro i s t w hst htw
    refine ⟨fun hs => ?_, fun hs => htw.2 (hst.2 hs)⟩
    have h1 := hst.1 hs
    have h2 := htw.1 (h1.1.trans hs)
    exact ⟨h2.1.trans h1.1, fun name hname => (h2.2 name hname).trans (h1.2 name hname)⟩
  pre call i o s := Allowed sha256 digest call i s o
  idle i s := s.holder ≠ some i

omit [DecidableEq ι] in
/-- A call changes folders only under the lock, and only temporary ones. -/
theorem folderChange_allowed {call : Call} {i : ι} {c : Choice} {s : Store ι} {o : StoreOp}
    {folder : String} {g : Folder → Except OSError Folder}
    (ho : folderChange c o = some (folder, g)) (h : Allowed sha256 digest call i s o) :
    s.holder = some i ∧ Temporary folder := by
  cases o with
  | create | append | symlink | unlink =>
    obtain ⟨rfl, -⟩ := Prod.mk.inj (Option.some.inj ho)
    exact h
  | chmod p mode =>
    cases p with
    | inside | entry =>
      obtain ⟨rfl, -⟩ := Prod.mk.inj (Option.some.inj ho)
      exact h
    | outside | root => exact absurd ho (by simp [folderChange])
  | _ => exact absurd ho (by simp [folderChange])

/-- What one process may do, another one relies on. -/
theorem rely_of_effect {call : Call} {i j : ι} {c : Choice} {s t : Store ι} {o : StoreOp}
    {ok : Bool} (hij : i ≠ j) (hallowed : Allowed sha256 digest call j s o)
    (h : Effect j c s o ok t) : (contract sha256 digest).rely i s t := by
  have hne : some j ≠ some i := fun heq => hij (Option.some.inj heq).symm
  -- an operation under the lock concerns no other holder, and leaves the lock where it is
  have locked : s.holder = some j → t.holder = s.holder → (contract sha256 digest).rely i s t := by
    intro hs ht
    refine ⟨fun hi => absurd (hs.symm.trans hi) hne, fun hi => ?_⟩
    rw [ht]
    exact hi
  cases h with
  | unchanged h hok =>
    refine ⟨fun _ => h, fun hi => ?_⟩
    rw [h.1]
    exact hi
  | lock hfree =>
    refine ⟨fun hi => ?_, fun _ => hne⟩
    rw [hfree] at hi
    exact absurd hi (by simp)
  | unlock ok =>
    unfold Store.release
    split
    · next hs => exact ⟨fun hi => absurd (hs.symm.trans hi) hne, fun _ => by simp⟩
    · exact (contract sha256 digest).rely_refl i s
  | change ho hf hg => exact locked (folderChange_allowed sha256 digest ho hallowed).1 rfl
  | mkdtemp start hfree => exact locked hallowed.1 rfl
  | rmdir folder => exact locked hallowed.1 rfl
  | rename hf hfree => exact locked hallowed.1 rfl
  | replace hf hitem => exact locked hallowed.1 rfl

/-- What is allowed to one process, the others may rely on: while one of them holds the lock, the
store stays as it is but for the lock file. -/
theorem contract_sound : (contract (ι := ι) sha256 digest).Sound machine where
  op hij hallowed hexec := rely_of_effect sha256 digest hij hallowed (exec_effect hexec)
  leave := by
    intro i j s hij
    show (contract sha256 digest).rely i s (s.release j)
    unfold Store.release
    split
    · next hs =>
      refine ⟨fun hi => ?_, fun _ => by simp⟩
      exact absurd (Option.some.inj (hi.symm.trans hs)) hij
    · exact (contract sha256 digest).rely_refl i s
  idle_rely hidle hrely := hrely.2 hidle
  idle_leave := by
    intro i s
    show (s.release i).holder ≠ some i
    unfold Store.release
    split
    · simp
    · next hs => exact hs

end ModelStore

end Rave
