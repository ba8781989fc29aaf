import RaveDeployment.ModelStore.Contract

/-!
# The commands keep the contract

Each command is verified alone against `contract`. `Triple P p Q` is a Hoare triple under the lock:
whatever happens, the lock is still held when `p` is left.
-/

namespace Rave

namespace ModelStore

open Prog

variable {ι : Type}

/-! ## Assertions under the lock

What a call may assert between its operations. Only the holder of the lock changes folders, so an
assertion about its own stage survives what the others do. -/

def Held (i : ι) (s : Store ι) : Prop :=
  s.holder = some i

/-- The lock is held, and a folder is there that satisfies `P`. -/
def At (i : ι) (folder : String) (P : Folder → Prop) (s : Store ι) : Prop :=
  s.holder = some i ∧ ∃ f, s.folder folder = some f ∧ P f

/-- An assertion that holds under the lock and does not speak of the lock file. -/
structure Locked (i : ι) (P : Store ι → Prop) : Prop where
  held : ∀ s, P s → s.holder = some i
  unchanged : ∀ s t, P s → Unchanged s t → P t

/-- A store that is unchanged has the same folders. -/
theorem Unchanged.folder {s t : Store ι} (h : Unchanged s t) {name : String}
    (hname : name ≠ ".admin.lock") : t.folder name = s.folder name := by
  unfold Store.folder
  rw [h.2 name hname]

/-- Holding the lock is an assertion under the lock. -/
theorem locked_held (i : ι) : Locked i (Held i) :=
  ⟨fun _ h => h, fun _ _ h hst => hst.1.trans h⟩

theorem locked_at (i : ι) {folder : String} (h : folder ≠ ".admin.lock") (P : Folder → Prop) :
    Locked i (At i folder P) := by
  refine ⟨fun _ hs => hs.1, ?_⟩
  intro s t ⟨hheld, f, hf, hP⟩ hst
  exact ⟨hst.1.trans hheld, f, (hst.folder h).trans hf, hP⟩

/-- Assertions under the lock are closed under conjunction. -/
theorem Locked.and {i : ι} {P Q : Store ι → Prop} (hP : Locked i P) (hQ : Locked i Q) :
    Locked i (fun s => P s ∧ Q s) :=
  ⟨fun s h => hP.held s h.1, fun s t h hst => ⟨hP.unchanged s t h.1 hst, hQ.unchanged s t h.2 hst⟩⟩

/-- A fact that does not speak of the store may be added. -/
theorem Locked.and_pure {i : ι} {P : Store ι → Prop} (hP : Locked i P) (q : Prop) :
    Locked i (fun s => P s ∧ q) :=
  ⟨fun s h => hP.held s h.1, fun s t h hst => ⟨hP.unchanged s t h.1 hst, h.2⟩⟩

theorem folder_setEntry_self (s : Store ι) (name : String) (f : Folder) :
    (s.setEntry name (some (.folder f))).folder name = some f := by
  unfold Store.folder
  rw [setEntry_self]

theorem folder_setEntry_of_ne (s : Store ι) {name other : String} (node : Option Node)
    (h : other ≠ name) : (s.setEntry name node).folder other = s.folder other := by
  unfold Store.folder
  rw [setEntry_of_ne s node h]

/-- An assertion that changes in temporary directories do not concern. -/
def Framed (F : Store ι → Prop) : Prop :=
  ∀ s name node, Temporary name → F s → F (s.setEntry name node)

/-- Holding the lock is independent of temporary directories. -/
theorem framed_held {i : ι} : Framed (Held i) :=
  fun _ _ _ _ h => h

/-- What is published is independent of temporary directories. -/
theorem framed_at {i : ι} {name : String} (hname : name ∈ published) (P : Folder → Prop) :
    Framed (At i name P) := by
  intro s other node hother ⟨hheld, f, hf, hP⟩
  have hne : name ≠ other := by
    intro heq
    rw [heq] at hname
    exact hother.not_published hname
  exact ⟨hheld, f, (folder_setEntry_of_ne s node hne).trans hf, hP⟩

variable [DecidableEq ι]

section

variable {i : ι}

/-! ## Operations that change nothing

Operations that only look, and the parts of the calls that issue nothing else. -/

def Quiet : StoreOp → Prop
  | .lstat _ | .readFile _ | .openSource _ | .readChunks _ | .storeInfo | .openLock | .fsync _
  | .listdir _ | .readlink _ => True
  | _ => False

/-- A quiet operation leaves the store unchanged. -/
theorem quiet_unchanged {o : StoreOp} (ho : Quiet o) {c : Choice} {s t : Store ι} {r : o.Ans}
    (h : exec i o c s = some (r, t)) : Unchanged s t := by
  have heffect := exec_effect h
  generalize r.isOk = ok at heffect
  cases heffect with
  | unchanged h _ => exact h
  | change ho' _ _ => cases o <;> first | exact ho.elim | exact absurd ho' (by simp [folderChange])
  | _ => exact ho.elim

/-- A single operation stays within what allows it. -/
theorem within_perform {ok : StoreOp → Prop} {o : StoreOp} (ho : ok o) :
    Within ok (perform o) (fun _ => True) := by
  apply within_op ho
  intro r
  cases r with
  | ok a => exact within_ret trivial
  | error e => exact within_raise _

/-- A check issues nothing, and its condition holds after it. -/
theorem within_require {ok : StoreOp → Prop} (c : Prop) [Decidable c] (message : String) :
    Within ok (require c message) (fun _ => c) := by
  unfold require
  split
  · next hc => exact within_ret hc
  · exact within_raise _

/-- A loop stays within what its body does. -/
theorem within_forEach {α : Type} {ok : StoreOp → Prop} {as : List α} {f : α → StoreM Unit}
    (hf : ∀ a, Within ok (f a) (fun _ => True)) : Within ok (forEach as f) (fun _ => True) := by
  induction as with
  | nil => exact within_ret trivial
  | cons a as ih => exact within_bind (hf a) fun _ _ => ih

/-- `copyfile` opens, creates, reads and appends. -/
theorem within_copyfile {ok : StoreOp → Prop} {source : Place} {folder name : String}
    (hopen : ok (.openSource source)) (hcreate : ok (.create folder name))
    (hread : ok (.readChunks source)) (happend : ∀ data, ok (.append folder name data)) :
    Within ok (copyfile source folder name) (fun _ => True) := by
  apply within_bind (within_perform hopen)
  intro _ _
  apply within_bind (within_perform hcreate)
  intro _ _
  apply within_bind (within_perform hread)
  intro blocks _
  apply within_bind (within_forEach fun chunk => within_perform (happend chunk))
  intro _ _
  cases blocks.2 with
  | none => exact within_ret trivial
  | some e => exact within_raise _

/-- `write_text` creates and appends. -/
theorem within_writeText {ok : StoreOp → Prop} {folder name : String} {text : List Char}
    (hcreate : ok (.create folder name))
    (happend : ok (.append folder name (Py.encodeUtf8 text))) :
    Within ok (writeText folder name text) (fun _ => True) := by
  apply within_bind (within_perform hcreate)
  intro _ _
  exact within_perform happend

/-- `lexists` only looks. -/
theorem within_lexists (path : Place) : Within Quiet (lexists path) (fun _ => True) := by
  apply within_bind (within_attempt (within_perform (o := .lstat path) trivial))
  intro r _
  split
  · exact within_ret trivial
  · exact within_ret trivial

/-! ## Operations on a folder

The operations inside a temporary directory, for one call among others. -/

/-- Only the release of the lock gives it up. -/
theorem exec_held {o : StoreOp} (ho : o ≠ .closeLock) {c : Choice} {s t : Store ι} {r : o.Ans}
    (h : exec i o c s = some (r, t)) (hs : Held i s) : Held i t := by
  have heffect := exec_effect h
  generalize r.isOk = ok at heffect
  cases heffect with
  | unchanged h _ => exact h.1.trans hs
  | lock _ => rfl
  | unlock _ => exact absurd rfl ho
  | change _ _ _ | mkdtemp _ _ | rmdir _ | rename _ _ | replace _ _ => exact hs

/-- Who has taken the lock holds it. -/
theorem exec_flock {c : Choice} {s t : Store ι} {u : Unit}
    (h : exec i .flock c s = some (.ok u, t)) : Held i t := by
  unfold exec at h
  split at h
  · exact absurd h (by simp)
  · simp only [effect] at h
    split at h
    · obtain ⟨-, rfl⟩ := Prod.mk.inj (Option.some.inj h)
      rfl
    · exact absurd h (by simp)

/-- What `lstat` finds in the store is there. -/
theorem exec_lstat {p : Place} {c : Choice} {s t : Store ι} {kind : FileKind}
    (h : exec i (.lstat p) c s = some (.ok kind, t)) : lstat c s p = .ok kind ∧ t = s := by
  unfold exec at h
  split at h
  · exact absurd h (by simp)
  · obtain ⟨hkind, ht⟩ := Prod.mk.inj (Option.some.inj h)
    exact ⟨hkind, ht.symm⟩

/-- Reading returns what is there and changes nothing. -/
theorem exec_readFile {p : Place} {c : Choice} {s t : Store ι} {content : List UInt8}
    (h : exec i (.readFile p) c s = some (.ok content, t)) :
    readFile c s p = .ok content ∧ t = s := by
  unfold exec at h
  split at h
  · exact absurd h (by simp)
  · obtain ⟨hcontent, ht⟩ := Prod.mk.inj (Option.some.inj h)
    exact ⟨hcontent, ht.symm⟩

/-- A temporary directory is new and empty. -/
theorem exec_mkdtemp {start name : String} {c : Choice} {s t : Store ι}
    (h : exec i (.mkdtemp start) c s = some (.ok name, t)) :
    name = start ++ c.suffix ∧ t = s.setEntry name (some (.folder ⟨[], 0o700⟩)) := by
  unfold exec at h
  split at h
  · exact absurd h (by simp)
  · simp only [effect] at h
    split at h
    · obtain ⟨hname, rfl⟩ := Prod.mk.inj (Option.some.inj h)
      rw [← Except.ok.inj hname]
      exact ⟨rfl, rfl⟩
    · exact absurd h (by simp)

def Removing (name : String) : StoreOp → Prop
  | .listdir folder | .unlink folder _ | .rmdir folder => folder = name
  | _ => False

/-- Removing a temporary directory issues removals inside it only. -/
theorem within_cleanup (name : String) : Within (Removing name) (cleanup name) (fun _ => True) := by
  -- a file or directory that is already gone is no failure
  have ignored : ∀ p : StoreM Unit, Within (Removing name) p (fun _ => True) →
      Within (Removing name) (ignoreMissing p) (fun _ => True) := by
    intro p hp
    apply within_handle hp
    intro e
    split
    · exact within_ret trivial
    · exact within_raise _
  have removed : ∀ items : List String, Within (Removing name)
      (forEach items fun item => ignoreMissing (perform (.unlink name item))) (fun _ => True) :=
    fun _ => within_forEach fun item => ignored _ (within_perform (o := .unlink name item) rfl)
  have hlistdir : Within (Removing name) (perform (.listdir name)) fun _ => True :=
    within_perform (o := .listdir name) rfl
  apply within_bind (within_attempt hlistdir)
  intro r _
  split
  · next items _ =>
    exact within_bind (removed items) fun _ _ => ignored _ (within_perform (o := .rmdir name) rfl)
  · exact within_ret trivial
  · exact within_raise _

theorem get_put_self (f : Folder) (name : String) (item : Item) :
    (f.put name item).get name = some item := by
  simp [Folder.put, Folder.get]

/-- The other files are as before. -/
theorem get_put_of_ne (f : Folder) {name other : String} (item : Item) (h : other ≠ name) :
    (f.put name item).get other = f.get other := by
  unfold Folder.put Folder.get Folder.remove
  rw [List.find?_cons_of_neg (by simpa using fun heq => h heq.symm), List.find?_filter]
  congr 2
  funext x
  by_cases hx : x.1 = other
  · simp [hx, h]
  · simp [hx]

/-- A link that was made is there. -/
theorem get_symlinkItem {target name : String} {f f' : Folder}
    (h : symlinkItem target name f = .ok f') : f'.get name = some (.link target) := by
  unfold symlinkItem at h
  split at h
  · rw [← Except.ok.inj h, get_put_self]
  · exact absurd h (by simp)

end

variable [Json.Nesting] (sha256 : List UInt8 → String) (digest : String) (call : Call) (i : ι)

/-- One call among the others: before each of its operations the others may do whatever the contract
allows them. -/
abbrev surroundings : Env StoreOp StoreOp.Ans (Store ι) :=
  (contract sha256 digest).env machine call i

variable {sha256 digest call i}

/-- An assertion under the lock survives what the others do. -/
theorem Locked.stable {P : Store ι → Prop} (hP : Locked i P) :
    Stable (surroundings sha256 digest call i) P := by
  intro s t hs hrely
  exact hP.unchanged s t hs (hrely.1 (hP.held s hs))

/-! ## Triples

Assertions before and after a part of a call. A triple also says that every operation of the part is
allowed and that its assertions survive the others. -/

variable (sha256 digest call i) in
/-- Started where `P` holds, a part of a call issues allowed operations only and returns where `Q`
holds; where it raises, the lock is still held. -/
def Triple {α : Type} (P : Store ι → Prop) (p : StoreM α) (Q : α → Store ι → Prop) : Prop :=
  ∀ s, P s → p.wp (surroundings sha256 digest call i) Q (fun _ => Held i) s

section Rules

variable {α β : Type} {P : Store ι → Prop}

/-- Parts one after the other. -/
theorem triple_bind {p : StoreM α} {f : α → StoreM β} {Q : α → Store ι → Prop}
    {R : β → Store ι → Prop} (hp : Triple sha256 digest call i P p Q)
    (hf : ∀ a, Triple sha256 digest call i (Q a) (f a) R) :
    Triple sha256 digest call i P (p >>= f) R := by
  intro s hs
  exact wp_bind.mpr (wp_mono (hp s hs) (fun a t ht => hf a t ht) fun _ _ h => h)

theorem triple_pre {p : StoreM α} {P' : Store ι → Prop} {Q : α → Store ι → Prop}
    (hP : ∀ s, P' s → P s) (hp : Triple sha256 digest call i P p Q) :
    Triple sha256 digest call i P' p Q :=
  fun s hs => hp s (hP s hs)

theorem triple_post {p : StoreM α} {Q Q' : α → Store ι → Prop}
    (hp : Triple sha256 digest call i P p Q) (hQ : ∀ a t, Q a t → Q' a t) :
    Triple sha256 digest call i P p Q' :=
  fun s hs => wp_mono (hp s hs) hQ fun _ _ h => h

theorem triple_ret (hP : Locked i P) (a : α) {Q : α → Store ι → Prop}
    (hQ : ∀ s, P s → Q a s) : Triple sha256 digest call i P (.ret a) Q := by
  intro s hs t hst
  exact hQ t (hP.stable s t hs hst)

theorem triple_raise (hP : Locked i P) (e : ModelError) {Q : α → Store ι → Prop} :
    Triple sha256 digest call i P (.raise e) Q := by
  intro s hs t hst
  exact hP.held t (hP.stable s t hs hst)

/-- A computation that may raise. -/
theorem triple_ofExcept (hP : Locked i P) (r : Except ModelError α) :
    Triple sha256 digest call i P (Prog.ofExcept r) (fun a s => P s ∧ r = .ok a) := by
  cases r with
  | ok a => exact triple_ret hP a (fun s hs => ⟨hs, rfl⟩)
  | error e => exact triple_raise hP e

/-- After a check its condition holds. -/
theorem triple_require (hP : Locked i P) (c : Prop) [Decidable c] (message : String) :
    Triple sha256 digest call i P (require c message) (fun _ s => P s ∧ c) := by
  unfold require
  split
  · next hc => exact triple_ret hP () (fun s hs => ⟨hs, hc⟩)
  · exact triple_raise hP _

/-- One operation, from what its effect is. -/
theorem triple_perform {o : StoreOp} {Q : o.Result → Store ι → Prop} (hP : Locked i P)
    (hQ : ∀ a, Locked i (Q a)) (hallowed : ∀ s, P s → Allowed sha256 digest call i s o)
    (hok : ∀ c s a t, P s → exec i o c s = some (.ok a, t) → Q a t)
    (herror : ∀ c s e t, P s → exec i o c s = some (.error e, t) → Held i t) :
    Triple sha256 digest call i P (perform o) Q := by
  intro s hs t hst
  have ht := hP.stable s t hs hst
  refine ⟨hallowed t ht, ?_⟩
  intro r w ⟨c, hexec⟩
  cases r with
  | ok a =>
    have hw := hok c t a w ht hexec
    exact fun w' hw' => (hQ a).stable w w' hw hw'
  | error e =>
    have hw := herror c t e w ht hexec
    exact fun w' hw' => (locked_held i).stable w w' hw hw'

/-- A loop keeps what its body keeps. -/
theorem triple_forEach {as : List α} {f : α → StoreM Unit}
    (hf : ∀ a, Triple sha256 digest call i P (f a) (fun _ => P)) (hP : Locked i P) :
    Triple sha256 digest call i P (forEach as f) (fun _ => P) := by
  induction as with
  | nil => exact triple_ret hP () (fun _ h => h)
  | cons a as ih => exact triple_bind (hf a) (fun _ => ih)

end Rules

/-! ## Triples of single operations

The rules of the operations under the lock. -/

omit [DecidableEq ι] in
theorem quiet_allowed {o : StoreOp} (ho : Quiet o) (s : Store ι) :
    Allowed sha256 digest call i s o := by
  cases o <;> trivial

/-- A program of such operations keeps every assertion. -/
theorem triple_quiet {α : Type} {P : Store ι → Prop} (hP : Locked i P) {p : StoreM α}
    {Q : α → Prop} (hp : Within Quiet p Q) :
    Triple sha256 digest call i P p (fun a s => P s ∧ Q a) := by
  intro s hs
  have hkeeps : Keeps (surroundings sha256 digest call i) P p := by
    apply hp.keeps hP.stable
    · intro o t ho _
      exact quiet_allowed ho t
    · intro o t r w ho ht ⟨c, hexec⟩
      exact hP.unchanged t w ht (quiet_unchanged ho hexec)
  have hvalue := hp.wp (E := surroundings sha256 digest call i) (fun o t ho => quiet_allowed ho t) s
  exact wp_mono (wp_and (hkeeps s hs) hvalue) (fun _ _ h => h) fun _ t h => hP.held t h.1

/-- Looking keeps every assertion under the lock. -/
theorem triple_quiet_perform {P : Store ι → Prop} (hP : Locked i P) {o : StoreOp} (ho : Quiet o) :
    Triple sha256 digest call i P (perform o) (fun _ => P) :=
  triple_post (triple_quiet hP (within_perform ho)) fun _ _ h => h.1

/-- A change of a temporary directory that turns `P` into `Q`. -/
theorem triple_change {o : StoreOp} {folder : String}
    {g : Choice → Folder → Except OSError Folder} {P Q : Folder → Prop} {F : Store ι → Prop}
    (ho : ∀ c, folderChange c o = some (folder, g c)) (hfolder : Temporary folder)
    (hallowed : ∀ s : Store ι, Held i s → Allowed sha256 digest call i s o)
    (hF : Locked i F) (hframed : Framed F) (hchange : ∀ c f f', P f → g c f = .ok f' → Q f') :
    Triple sha256 digest call i (fun s => At i folder P s ∧ F s) (perform o)
      (fun _ s => At i folder Q s ∧ F s) := by
  have hlocked : ∀ P, Locked i (fun s => At i folder P s ∧ F s) := fun P =>
    (locked_at i hfolder.ne_lock P).and hF
  -- a change of a directory is not the release of the lock
  have hopen : o ≠ .closeLock := by
    intro heq
    rw [heq] at ho
    exact absurd (ho {}) (by simp [folderChange])
  apply triple_perform (hlocked P) (fun _ => hlocked Q)
  · intro s hs
    exact hallowed s hs.1.1
  · intro c s a t hs hexec
    obtain ⟨⟨hheld, f, hf, hP⟩, hFs⟩ := hs
    have heffect : Effect i c s o true t := exec_effect hexec
    have hsome := ho c
    -- of the effects, only the change itself and its failure are those of a directory
    cases heffect with
    | unchanged _ hok => exact absurd (hok rfl) (by rw [hsome]; simp)
    | change ho' hf' hg =>
      rw [hsome] at ho'
      obtain ⟨rfl, rfl⟩ := Prod.mk.inj (Option.some.inj ho')
      rw [hf] at hf'
      rw [Option.some.inj hf'] at hP
      exact ⟨⟨hheld, _, folder_setEntry_self s folder _, hchange c _ _ hP hg⟩,
        hframed s folder _ hfolder hFs⟩
    | lock _ | unlock _ | mkdtemp _ _ | rmdir _ | rename _ _ | replace _ _ =>
      exact absurd hsome (by simp [folderChange])
  · intro c s e t hs hexec
    exact exec_held hopen hexec hs.1.1

/-- A temporary directory is added to what is asserted. -/
theorem triple_mkdtemp {F : Store ι → Prop} (hF : Locked i F) (hframed : Framed F) {start : String}
    (hstart : start = ".stage-" ∨ start = ".pointer-") :
    Triple sha256 digest call i F (perform (.mkdtemp start)) (fun (name : String) s =>
      (At i name (fun _ => True) s ∧ F s) ∧ Temporary name) := by
  have hlocked : ∀ name, Locked i (fun s : Store ι =>
      (At i name (fun _ => True) s ∧ F s) ∧ Temporary name) := by
    intro name
    refine ⟨fun s hs => hs.1.1.1, ?_⟩
    intro s t ⟨hs, hname⟩ hst
    exact ⟨((locked_at i hname.ne_lock _).and hF).unchanged s t hs hst, hname⟩
  apply triple_perform (o := .mkdtemp start) hF hlocked
  · intro s hs
    exact ⟨hF.held s hs, hstart⟩
  · intro c s name t hs hexec
    obtain ⟨hname, ht⟩ := exec_mkdtemp hexec
    -- a name of the call's own
    have htemp : Temporary name := by
      rw [hname]
      rcases hstart with rfl | rfl
      · exact ⟨c.suffix, Or.inl rfl⟩
      · exact ⟨c.suffix, Or.inr rfl⟩
    rw [ht]
    exact ⟨⟨⟨hF.held s hs, _, folder_setEntry_self s name _, trivial⟩,
      hframed s name _ htemp hs⟩, htemp⟩
  · intro c s e t hs hexec
    exact exec_held (by simp) hexec (hF.held s hs)

/-! ## Temporary directories

A body that keeps its assertions does so in a temporary directory. -/

/-- Removing a temporary directory keeps the lock. -/
theorem keeps_cleanup {name : String} (hname : Temporary name) :
    Keeps (surroundings sha256 digest call i) (Held i) (cleanup name) := by
  apply (within_cleanup name).keeps (locked_held i).stable
  · intro o s ho hs
    cases o with
    | listdir folder => trivial
    | unlink folder item =>
      cases ho
      exact ⟨hs, hname⟩
    | rmdir folder =>
      cases ho
      exact ⟨hs, hname⟩
    | _ => exact ho.elim
  · intro o s r t ho hs ⟨c, hexec⟩
    apply exec_held _ hexec hs
    intro heq
    rw [heq] at ho
    exact ho

/-- The body works in a directory of its own, which is removed however the body ends. -/
theorem triple_temporaryDirectory {F : Store ι → Prop} (hF : Locked i F) (hframed : Framed F)
    {start : String} (hstart : start = ".stage-" ∨ start = ".pointer-")
    {body : String → StoreM Unit}
    (hbody : ∀ name, Temporary name → Triple sha256 digest call i
      (fun s => At i name (fun _ => True) s ∧ F s) (body name) (fun _ => Held i)) :
    Triple sha256 digest call i F (temporaryDirectory start body) (fun _ => Held i) := by
  apply triple_bind (triple_mkdtemp hF hframed hstart)
  intro name s ⟨hs, hname⟩
  have hclean : Keeps (surroundings sha256 digest call i) (Held i) (cleanup name) :=
    keeps_cleanup hname
  apply wp_finallyDo.mpr
  apply wp_mono (hbody name hname s hs)
  · intro a t ht
    apply wp_mono (hclean t ht)
    · intro _ w hw
      exact triple_ret (locked_held i) a (fun _ h => h) w hw
    · intro _ w hw
      exact hw
  · intro e t ht
    apply wp_mono (hclean t ht)
    · intro _ w hw
      exact triple_raise (Q := fun _ => Held i) (locked_held i) e w hw
    · intro _ w hw
      exact hw

/-! ## Validation

What `validate_model` establishes of the stage it is called on: the manifest is the selected one and
the artifact has the selected digest. -/

/-- `load_manifest` only looks, and returns what passes. -/
theorem within_loadManifest (path : Place) :
    Within Quiet (loadManifest digest path)
      (fun fields => ∃ content, checkManifest digest content = .ok fields) := by
  apply within_bind (within_perform (o := .lstat path) trivial)
  intro (kind : FileKind) _
  apply within_bind (within_require _ _)
  intro _ _
  apply within_bind (within_perform (o := .readFile path) trivial)
  intro content _
  apply within_ofExcept
  intro fields hfields
  exact ⟨content, hfields⟩

/-- `validate_model` only looks. -/
theorem within_validateModel (path : Place) (directory : Directory) :
    Within Quiet (validateModel sha256 digest path directory) (fun _ => True) := by
  apply within_bind (within_loadManifest path)
  intro manifest _
  apply within_bind (within_perform (o := .lstat (directory.file _)) trivial)
  intro (kind : FileKind) _
  apply within_bind (within_require _ _)
  intro _ _
  have hsha : Within Quiet (sha256File sha256 (directory.file (textField manifest "artifact")))
      (fun _ => True) := by
    apply within_bind (within_perform (o := .readFile _) trivial)
    intro content _
    exact within_ret trivial
  apply within_bind hsha
  intro found _
  apply within_bind (within_require _ _)
  intro _ _
  exact within_ret trivial

/-- `installed_version` only looks, and returns the model's own identity. -/
theorem within_installedVersion (id : String) :
    Within Quiet (installedVersion sha256 digest id) (fun version => version = modelId) := by
  apply within_bind (within_require _ _)
  intro _ hid
  apply within_bind (within_perform (o := .lstat (.entry id)) trivial)
  intro (kind : FileKind) _
  apply within_bind (within_require _ _)
  intro _ _
  apply within_bind (within_validateModel _ _)
  intro _ _
  exact within_ret hid

def HasFile (name : String) (f : Folder) : Prop :=
  ∃ content mode, f.get name = some (.file content mode)

/-- After `lstat` says so, the file is there. -/
theorem triple_lstat_inside {folder name : String} (hfolder : folder ≠ ".admin.lock")
    {P : Folder → Prop} :
    Triple sha256 digest call i (At i folder P) (perform (.lstat (.inside folder name)))
      (fun (kind : FileKind) => At i folder fun f => P f ∧ (kind = .regular → HasFile name f)) := by
  apply triple_perform (o := .lstat (.inside folder name)) (locked_at i hfolder P)
    (fun _ => locked_at i hfolder _)
  · intro s hs
    trivial
  · intro c s kind t ⟨hheld, f, hf, hP⟩ hexec
    obtain ⟨hkind, rfl⟩ := exec_lstat hexec
    refine ⟨hheld, f, hf, hP, fun hregular => ?_⟩
    rw [hregular, lstat, hf, Option.bind_some] at hkind
    split at hkind
    · exact absurd hkind (by simp)
    next item hget =>
    cases item with
    | file content mode => exact ⟨content, mode, hget⟩
    | link target => exact absurd (Except.ok.inj hkind) (by simp [kindOf])
  · intro c s e t hs hexec
    exact exec_held (by simp) hexec hs.1

/-- What is read from the stage is what lies in it. -/
theorem triple_readFile_inside {folder name : String} (hfolder : folder ≠ ".admin.lock")
    {P : Folder → Prop} (hP : ∀ f, P f → HasFile name f) :
    Triple sha256 digest call i (At i folder P) (perform (.readFile (.inside folder name)))
      (fun (content : List UInt8) => At i folder fun f =>
        P f ∧ ∃ mode, f.get name = some (.file content mode)) := by
  apply triple_perform (o := .readFile (.inside folder name)) (locked_at i hfolder P)
    (fun _ => locked_at i hfolder _)
  · intro s hs
    trivial
  · intro c s content t ⟨hheld, f, hf, hPf⟩ hexec
    obtain ⟨hcontent, rfl⟩ := exec_readFile hexec
    obtain ⟨content', mode, hget⟩ := hP f hPf
    rw [readFile, hf, Option.bind_some, hget] at hcontent
    rw [← Except.ok.inj hcontent]
    exact ⟨hheld, f, hf, hPf, mode, hget⟩
  · intro c s e t hs hexec
    exact exec_held (by simp) hexec hs.1

def ManifestIs (digest : String) (fields : List (PyStr × Json)) (f : Folder) : Prop :=
  ∃ content mode, f.get "manifest.json" = some (.file content mode)
    ∧ checkManifest digest content = .ok fields

/-- After `load_manifest` on the stage, the manifest in it passes. -/
theorem triple_loadManifest_inside {folder : String} (hfolder : folder ≠ ".admin.lock") :
    Triple sha256 digest call i (At i folder fun _ => True)
      (loadManifest digest (.inside folder "manifest.json"))
      (fun fields => At i folder (ManifestIs digest fields)) := by
  apply triple_bind (triple_lstat_inside hfolder)
  intro (kind : FileKind)
  apply triple_bind (triple_require (locked_at i hfolder _) _ _)
  intro _
  apply triple_pre (P := At i folder (HasFile "manifest.json"))
  · intro s ⟨⟨hheld, f, hf, _, hfile⟩, hkind⟩
    exact ⟨hheld, f, hf, hfile hkind⟩
  apply triple_bind (triple_readFile_inside hfolder (fun _ h => h))
  intro content
  apply triple_post (triple_ofExcept (locked_at i hfolder _) _)
  intro fields s ⟨⟨hheld, f, hf, _, mode, hget⟩, hcheck⟩
  exact ⟨hheld, f, hf, content, mode, hget, hcheck⟩

/-- **What `validate_model` accepts in the store is a verified folder.** -/
theorem triple_validateModel_inside {folder : String} (hfolder : folder ≠ ".admin.lock") :
    Triple sha256 digest call i (At i folder fun _ => True)
      (validateModel sha256 digest (.inside folder "manifest.json") (.entry folder))
      (fun _ => At i folder (Verified sha256 digest)) := by
  apply triple_bind (triple_loadManifest_inside hfolder)
  intro manifest
  apply triple_bind (triple_lstat_inside hfolder)
  intro (kind : FileKind)
  apply triple_bind (triple_require (locked_at i hfolder _) _ _)
  intro _
  apply triple_pre (P := At i folder fun f => ManifestIs digest manifest f ∧
    HasFile (textField manifest "artifact") f)
  · intro s ⟨⟨hheld, f, hf, hmanifest, hfile⟩, hkind⟩
    exact ⟨hheld, f, hf, hmanifest, hfile hkind⟩
  have hsha : Triple sha256 digest call i
      (At i folder fun f => ManifestIs digest manifest f ∧
        HasFile (textField manifest "artifact") f)
      (sha256File sha256 (.inside folder (textField manifest "artifact")))
      (fun found => At i folder fun f => ManifestIs digest manifest f ∧
        ∃ content mode, f.get (textField manifest "artifact") = some (.file content mode)
          ∧ sha256 content = found) := by
    apply triple_bind (triple_readFile_inside hfolder (fun _ h => h.2))
    intro content
    apply triple_ret (locked_at i hfolder _)
    intro s ⟨hheld, f, hf, ⟨hmanifest, _⟩, mode, hget⟩
    exact ⟨hheld, f, hf, hmanifest, content, mode, hget, rfl⟩
  apply triple_bind hsha
  intro found
  apply triple_bind (triple_require (locked_at i hfolder _) _ _)
  intro _
  apply triple_ret ((locked_at i hfolder _).and_pure _)
  intro s ⟨⟨hheld, f, hf, ⟨content, mode, hget, hcheck⟩, artifact, mode', hget', hfound⟩, hdigest⟩
  -- the names and the digest that the manifest gives are those of the selected model
  have hname : textField manifest "artifact" = artifactName :=
    checkManifest_textField hcheck (by simp [selected])
  have hsum : textField manifest "sha256" = digest :=
    checkManifest_textField hcheck (by simp [selected])
  rw [hname] at hget'
  exact ⟨hheld, f, hf, ⟨content, mode, manifest, hget, hcheck⟩,
    ⟨artifact, mode', hget', hfound.trans (hdigest.trans hsum)⟩⟩

/-! ## Publishing

The stage is written, validated as it lies there, and only then renamed. -/

section Stage

variable {stage : String} (hstage : Temporary stage)
include hstage

/-- A change of the staging directory that keeps what is known of it. -/
theorem triple_keep {o : StoreOp} {g : Choice → Folder → Except OSError Folder}
    {P : Folder → Prop} (ho : ∀ c, folderChange c o = some (stage, g c))
    (hallowed : ∀ s : Store ι, Held i s → Allowed sha256 digest call i s o)
    (hchange : ∀ c f f', P f → g c f = .ok f' → P f') :
    Triple sha256 digest call i (At i stage P) (perform o) (fun _ => At i stage P) := by
  apply triple_pre (P := fun s => At i stage P s ∧ Held i s)
  · intro s hs
    exact ⟨hs, hs.1⟩
  · exact triple_post (triple_change ho hstage hallowed (locked_held i) framed_held hchange)
      fun _ _ h => h.1

/-- Files are created in the stage. -/
theorem triple_create (name : String) :
    Triple sha256 digest call i (At i stage fun _ => True) (perform (.create stage name))
      (fun _ => At i stage fun _ => True) :=
  triple_keep hstage (g := fun c f => .ok (f.put name (.file [] c.mode))) (fun _ => rfl)
    (fun _ hs => ⟨hs, hstage⟩) (fun _ _ _ _ _ => trivial)

/-- Files are written in the stage. -/
theorem triple_append (name : String) (data : List UInt8) :
    Triple sha256 digest call i (At i stage fun _ => True) (perform (.append stage name data))
      (fun _ => At i stage fun _ => True) :=
  triple_keep hstage
    (g := fun c => appendItem (if c.fails = none then data else data.take c.written) name)
    (fun _ => rfl) (fun _ hs => ⟨hs, hstage⟩) (fun _ _ _ _ _ => trivial)

/-- The artifact is copied into the stage. -/
theorem triple_copyfile (source : Place) (name : String) :
    Triple sha256 digest call i (At i stage fun _ => True) (copyfile source stage name)
      (fun _ => At i stage fun _ => True) := by
  have hlocked := locked_at i hstage.ne_lock (fun _ => True)
  apply triple_bind (triple_quiet_perform hlocked (o := .openSource source) trivial)
  intro _
  apply triple_bind (triple_create hstage name)
  intro _
  apply triple_bind (triple_quiet_perform hlocked (o := .readChunks source) trivial)
  intro (chunks, broken)
  apply triple_bind (triple_forEach (fun chunk => triple_append hstage name chunk) hlocked)
  intro _
  cases broken with
  | none => exact triple_ret hlocked () (fun _ h => h)
  | some e => exact triple_raise hlocked _

/-- The manifest is written into the stage. -/
theorem triple_writeText (name : String) (text : List Char) :
    Triple sha256 digest call i (At i stage fun _ => True) (writeText stage name text)
      (fun _ => At i stage fun _ => True) := by
  apply triple_bind (triple_create hstage name)
  intro _
  exact triple_append hstage name _

end Stage

/-- Changing the permissions of a file leaves the files of the folder what they are. -/
theorem verified_chmodItem {mode : Nat} {name : String} {f f' : Folder}
    (hf : Verified sha256 digest f) (h : chmodItem mode name f = .ok f') :
    Verified sha256 digest f' := by
  unfold chmodItem at h
  split at h
  · exact absurd h (by simp)
  · next content _ hget =>
    rw [← Except.ok.inj h]
    -- a file keeps its content, under its own name and under any other
    have hkeep : ∀ other content' mode', f.get other = some (.file content' mode') →
        ∃ mode'', (f.put name (.file content mode)).get other = some (.file content' mode'') := by
      intro other content' mode' hother
      by_cases heq : other = name
      · rw [heq, hget] at hother
        have hcontent : content = content' := (Item.file.inj (Option.some.inj hother)).1
        rw [heq, get_put_self, hcontent]
        exact ⟨mode, rfl⟩
      · rw [get_put_of_ne f _ heq]
        exact ⟨mode', hother⟩
    obtain ⟨⟨c, m, fields, hmanifest, hcheck⟩, c', m', hartifact, hsum⟩ := hf
    obtain ⟨m₁, h₁⟩ := hkeep _ c m hmanifest
    obtain ⟨m₂, h₂⟩ := hkeep _ c' m' hartifact
    exact ⟨⟨c, m₁, fields, h₁, hcheck⟩, c', m₂, h₂, hsum⟩
  · rw [← Except.ok.inj h]
    exact hf

/-- The stage is renamed only where it is verified. -/
theorem triple_publish {manifest : List (PyStr × Json)} {content : List UInt8}
    (hmanifest : checkManifest digest content = .ok manifest) (source : Directory) {stage : String}
    (hstage : Temporary stage) :
    Triple sha256 digest call i (At i stage fun _ => True)
      (publish sha256 digest manifest source stage) (fun _ => Held i) := by
  have hlock := hstage.ne_lock
  have hlocked := locked_at i hlock (fun _ => True)
  have hverified := locked_at i hlock (Verified sha256 digest)
  apply triple_bind (triple_quiet_perform hlocked (o := .lstat _) trivial)
  intro (kind : FileKind)
  apply triple_bind (triple_post (triple_require hlocked _ _) fun _ _ h => h.1)
  intro _
  apply triple_bind (triple_copyfile hstage _ _)
  intro _
  apply triple_bind (triple_writeText hstage _ _)
  intro _
  -- from here on the directory is known to be verified, and only permissions change
  apply triple_bind (triple_validateModel_inside hlock)
  intro _
  apply triple_bind (triple_quiet_perform hverified (o := .listdir stage) trivial)
  intro items
  have hitem : ∀ item : String, Triple sha256 digest call i (At i stage (Verified sha256 digest))
      (do
        perform (.chmod (.inside stage item) 0o644)
        perform (.fsync (.inside stage item)))
      (fun _ => At i stage (Verified sha256 digest)) := by
    intro item
    apply triple_bind (triple_keep hstage (o := .chmod (.inside stage item) 0o644)
      (g := fun _ => chmodItem 0o644 item) (fun _ => rfl) (fun _ hs => ⟨hs, hstage⟩)
      (fun _ _ _ hf h => verified_chmodItem hf h))
    intro _
    exact triple_quiet_perform hverified (o := .fsync _) trivial
  apply triple_bind (triple_forEach hitem hverified)
  intro _
  have hmode : ∀ (c : Choice) (f f' : Folder), Verified sha256 digest f →
      (.ok { f with mode := 0o755 } : Except OSError Folder) = .ok f' →
      Verified sha256 digest f' := by
    intro _ f f' hf h
    rw [← Except.ok.inj h]
    exact ⟨hf.manifest, hf.artifact⟩
  apply triple_bind (triple_keep hstage (o := .chmod (.entry stage) 0o755) (fun _ => rfl)
    (fun _ hs => ⟨hs, hstage⟩) hmode)
  intro _
  apply triple_bind (triple_quiet_perform hverified (o := .fsync (.entry stage)) trivial)
  intro _
  have hid : textField manifest "model_id" = modelId :=
    checkManifest_textField hmanifest (by simp [selected])
  -- the folder that is renamed is the one that was verified
  have hrename : Triple sha256 digest call i (At i stage (Verified sha256 digest))
      (perform (.rename stage (textField manifest "model_id"))) (fun _ => Held i) := by
    rw [hid]
    apply triple_perform hverified (fun _ => locked_held i)
    · intro s ⟨hheld, hf⟩
      exact ⟨hheld, hstage, rfl, hf⟩
    · intro c s a t hs hexec
      exact exec_held (by simp) hexec hs.1
    · intro c s e t hs hexec
      exact exec_held (by simp) hexec hs.1
  apply triple_bind hrename
  intro _
  exact triple_quiet_perform (locked_held i) (o := .fsync .root) trivial

/-! ## Pointers

A pointer is replaced only after the version it leads to was found. -/

/-- The version is there, and it is the selected one. -/
theorem triple_installedVersion (id : String) :
    Triple sha256 digest call i (Held i) (installedVersion sha256 digest id)
      (fun version s => At i modelId (fun _ => True) s ∧ version = modelId) := by
  have hlock : modelId ≠ ".admin.lock" := by decide
  have hlocked := locked_at i hlock (fun _ => True)
  apply triple_bind (triple_require (locked_held i) _ _)
  intro _
  -- what `lstat` answers outlasts what the others do: they do not touch the version
  have hthere : ∀ kind : FileKind, Locked i (fun s : Store ι =>
      (Held i s ∧ (kind = .directory → ∃ f, s.folder modelId = some f)) ∧ id = modelId) := by
    intro kind
    refine ⟨fun s hs => hs.1.1, ?_⟩
    intro s t ⟨⟨hheld, hdir⟩, hid⟩ hst
    rw [← hst.folder hlock] at hdir
    exact ⟨⟨hst.1.trans hheld, hdir⟩, hid⟩
  have hlstat : Triple sha256 digest call i (fun s => Held i s ∧ id = modelId)
      (perform (.lstat (.entry id)))
      (fun (kind : FileKind) s => (Held i s ∧ (kind = .directory → ∃ f, s.folder modelId = some f))
        ∧ id = modelId) := by
    apply triple_perform (o := .lstat (.entry id)) ((locked_held i).and_pure _) hthere
    · intro s hs
      trivial
    · intro c s kind t ⟨hheld, hid⟩ hexec
      obtain ⟨hkind, rfl⟩ := exec_lstat hexec
      refine ⟨⟨hheld, fun hdirectory => ?_⟩, hid⟩
      rw [hdirectory, hid, lstat] at hkind
      unfold Store.folder
      split at hkind
      · exact absurd hkind (by simp)
      · next item _ =>
        cases item <;> exact absurd (Except.ok.inj hkind) (by simp [kindOf])
      · next f hf =>
        rw [hf]
        exact ⟨f, rfl⟩
    · intro c s e t hs hexec
      exact exec_held (by simp) hexec hs.1
  apply triple_bind hlstat
  intro (kind : FileKind)
  apply triple_bind (triple_require (hthere kind) _ _)
  intro _
  apply triple_pre (P := fun s => At i modelId (fun _ => True) s ∧ id = modelId)
  · intro s ⟨⟨⟨hheld, hdir⟩, hid⟩, hkind⟩
    obtain ⟨f, hf⟩ := hdir hkind
    exact ⟨⟨hheld, f, hf, trivial⟩, hid⟩
  have hkeep := hlocked.and_pure (id = modelId)
  apply triple_bind (triple_post (triple_quiet hkeep (within_validateModel _ _)) fun _ _ h => h.1)
  intro _
  exact triple_ret hkeep id (fun _ h => h)

/-- The pointer is replaced only where it leads to the version. -/
theorem triple_replacePointer {name : String} (hcall : call.pointer = some name) (id : String) :
    Triple sha256 digest call i (Held i) (replacePointer sha256 digest name id)
      (fun _ => Held i) := by
  have hlock : modelId ≠ ".admin.lock" := by decide
  have hversion := locked_at i hlock (fun _ => True)
  apply triple_bind (triple_installedVersion id)
  intro version
  have hbody : ∀ temporary, Temporary temporary → Triple sha256 digest call i
      (fun s => At i temporary (fun _ => True) s ∧ At i modelId (fun _ => True) s)
      (do
        perform (.symlink temporary "link" modelId)
        perform (.replaceEntry temporary "link" name)
        perform (.fsync .root)) (fun _ => Held i) := by
    intro temporary htemp
    apply triple_bind (triple_change (Q := fun f => f.get "link" = some (.link modelId))
      (o := .symlink temporary "link" modelId) (fun _ => rfl) htemp (fun _ hs => ⟨hs, htemp⟩)
      hversion (framed_at (by decide) _) (fun _ _ _ _ h => get_symlinkItem h))
    intro _
    -- the contract asks for a link to the version, and for the version to be there
    have hreplace : Triple sha256 digest call i
        (fun s => At i temporary (fun f => f.get "link" = some (.link modelId)) s
          ∧ At i modelId (fun _ => True) s)
        (perform (.replaceEntry temporary "link" name)) (fun _ => Held i) := by
      apply triple_perform ((locked_at i htemp.ne_lock _).and hversion) (fun _ => locked_held i)
      · intro s ⟨⟨hheld, hf⟩, _, g, hg, _⟩
        exact ⟨hheld, htemp, hcall, hf, g, hg⟩
      · intro c s a t hs hexec
        exact exec_held (by simp) hexec hs.1.1
      · intro c s e t hs hexec
        exact exec_held (by simp) hexec hs.1.1
    apply triple_bind hreplace
    intro _
    exact triple_quiet_perform (locked_held i) (o := .fsync .root) trivial
  intro s ⟨hs, hid⟩
  rw [hid]
  have htemporary := triple_temporaryDirectory hversion (framed_at (by decide) _)
    (Or.inr rfl) hbody
  have hreturn : Triple sha256 digest call i (Held i) (.ret modelId) (fun _ => Held i) :=
    triple_ret (locked_held i) modelId (fun _ h => h)
  exact triple_bind htemporary (fun _ => hreturn) s hs

/-! ## Calls

Each of the four calls keeps the contract, by its parts. -/

variable (sha256 digest call i) in
/-- Whatever the state it starts in, a program keeps the contract. -/
def KeepsContract {α : Type} (p : StoreM α) : Prop :=
  ∀ s, p.wp (surroundings sha256 digest call i) (fun _ _ => True) (fun _ _ => True) s

/-- A quiet part in front of one that keeps the contract. -/
theorem keepsContract_of_within {α : Type} {p : StoreM α} {Q : α → Prop} (hp : Within Quiet p Q)
    {β : Type} {f : α → StoreM β} (hf : ∀ a, Q a → KeepsContract sha256 digest call i (f a)) :
    KeepsContract sha256 digest call i (p >>= f) := by
  intro s
  apply wp_bind.mpr
  apply wp_mono (hp.wp (fun o t ho => quiet_allowed ho t) s)
  · intro a t ha
    exact hf a ha t
  · intro _ _ _
    trivial

/-- The body of `_store_lock` runs under the lock. -/
theorem keepsContract_storeLock {α : Type} {body : StoreM α}
    (hbody : Triple sha256 digest call i (Held i) body (fun _ => Held i)) :
    KeepsContract sha256 digest call i (storeLock body) := by
  apply keepsContract_of_within (within_perform (o := .storeInfo) trivial)
  intro info _
  apply keepsContract_of_within (within_require _ _)
  intro _ _
  apply keepsContract_of_within (within_require _ _)
  intro _ _
  apply keepsContract_of_within (within_perform (o := .openLock) trivial)
  intro _ _ s
  -- the lock is released whatever the body did
  have hclose : ∀ t : Store ι, (perform .closeLock).wp (surroundings sha256 digest call i)
      (fun _ _ => True) (fun _ _ => True) t := by
    intro t t' _
    refine ⟨trivial, ?_⟩
    intro r w _
    cases r with
    | ok a => exact fun _ _ => trivial
    | error e => exact fun _ _ => trivial
  -- between the opening of the file and `flock` another process may run
  have hlocked : (do perform .flock; body : StoreM α).wp (surroundings sha256 digest call i)
      (fun _ _ => True) (fun _ _ => True) s := by
    intro t _
    refine ⟨trivial, ?_⟩
    intro r w ⟨c, hexec⟩
    cases r with
    | ok a =>
      exact wp_mono (hbody w (exec_flock hexec)) (fun _ _ _ => trivial) fun _ _ _ => trivial
    | error e => exact fun _ _ => trivial
  apply wp_finallyDo.mpr
  apply wp_mono hlocked
  · intro a t _
    exact wp_mono (hclose t) (fun _ _ _ _ _ => trivial) fun _ _ _ => trivial
  · intro e t _
    exact wp_mono (hclose t) (fun _ _ _ _ _ => trivial) fun _ _ _ => trivial

/-- `install` keeps the contract. -/
theorem keepsContract_installModel (manifestPath source : String) :
    KeepsContract sha256 digest call i (installModel sha256 digest manifestPath source) := by
  apply keepsContract_of_within (within_loadManifest _)
  intro manifest ⟨content, hmanifest⟩
  apply keepsContract_storeLock
  have hheld := locked_held i
  apply triple_bind (triple_post (triple_quiet hheld (within_lexists _)) fun _ _ h => h.1)
  intro there
  split
  · apply triple_bind (triple_post (triple_quiet hheld (within_validateModel _ _)) fun _ _ h => h.1)
    intro _
    exact triple_post (triple_quiet hheld (within_installedVersion _)) fun _ _ h => h.1
  · have hbody : ∀ stage, Temporary stage → Triple sha256 digest call i
        (fun s => At i stage (fun _ => True) s ∧ Held i s)
        (publish sha256 digest manifest (.outside source) stage) (fun _ => Held i) := by
      intro stage hstage
      exact triple_pre (fun _ h => h.1) (triple_publish hmanifest _ hstage)
    have htemporary := triple_temporaryDirectory hheld framed_held (Or.inl rfl) hbody
    exact triple_bind htemporary (fun _ => triple_ret hheld _ (fun _ h => h))

/-- **Every call keeps its contract.** -/
theorem keepsContract_serve : KeepsContract sha256 digest call i (serve sha256 digest call) := by
  cases call with
  | install manifestPath source => exact keepsContract_installModel manifestPath source
  | activate id => exact keepsContract_storeLock (triple_replacePointer rfl id)
  | qualify id => exact keepsContract_storeLock (triple_replacePointer rfl id)
  | rollback =>
    apply keepsContract_storeLock
    apply triple_bind (triple_quiet_perform (locked_held i) (o := .readlink "known-good") trivial)
    intro (id : String)
    exact triple_replacePointer rfl id

end ModelStore

end Rave
