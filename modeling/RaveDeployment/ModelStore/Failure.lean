import RaveDeployment.ModelStore.Exposed
import Mathlib.Data.Set.Insert

/-!
# What a command that fails leaves behind

One call that runs alone, with a record of its operations. `Visible` is what others see of the
store: where the two pointers lead, and which versions are there. A call publishes with one
operation, the rename of the staging directory or the replacement of the pointer. A failure before
it leaves no trace; after it, the directory is synchronised and the temporary directory and the lock
are given up, and a failure there makes the call raise with its effect in place.
-/

namespace Rave

namespace ModelStore

open Prog

/-! ## What is visible

What other programs see of the store. The names that begin with a dot are not looked at. -/

/-- Where the pointers lead, and the versions that are there. -/
@[ext]
structure Visible where
  current : Option String
  knownGood : Option String
  versions : Set String

/-- The name of a temporary directory or of the lock file. -/
def hidden (name : String) : Prop :=
  name.toList.head? = some '.'

instance (name : String) : Decidable (hidden name) :=
  inferInstanceAs (Decidable (_ = _))

variable {ι : Type}

def Store.target (s : Store ι) (name : String) : Option String :=
  match s.entries name with
  | some (.item (.link target)) => some target
  | _ => none

def Store.visible (s : Store ι) : Visible where
  current := s.target "current"
  knownGood := s.target "known-good"
  versions := {name | ¬ hidden name ∧ (s.folder name).isSome}

/-- What a call makes of what is visible, when it publishes. -/
def Call.publish (v : Visible) : Call → Visible
  | .install _ _ => { v with versions := insert modelId v.versions }
  | .activate _ | .rollback => { v with current := some modelId }
  | .qualify _ => { v with knownGood := some modelId }

/-- The version that a call installs is not there yet, or the pointer leads elsewhere. -/
def Call.Changes (v : Visible) : Call → Prop
  | .install _ _ => modelId ∉ v.versions
  | .activate _ | .rollback => v.current ≠ some modelId
  | .qualify _ => v.knownGood ≠ some modelId

/-- Publishing is seen unless the call found its version or its pointer already in place. -/
theorem Call.publish_eq_iff (call : Call) (v : Visible) :
    call.publish v = v ↔ ¬ call.Changes v := by
  cases call with
  | install manifestPath source =>
    constructor
    -- a version that is new makes a difference
    · intro heq hnew
      apply hnew
      rw [← congrArg Visible.versions heq]
      exact Set.mem_insert _ _
    -- one that is there does not
    · intro hold
      unfold Call.publish
      rw [Set.insert_eq_of_mem (not_not.mp hold)]
  | activate id | rollback =>
    constructor
    · intro heq hnew
      exact hnew (congrArg Visible.current heq).symm
    · intro hold
      unfold Call.publish
      rw [← not_not.mp hold]
  | qualify id =>
    constructor
    · intro heq hnew
      exact hnew (congrArg Visible.knownGood heq).symm
    · intro hold
      unfold Call.publish
      rw [← not_not.mp hold]

/-! ## The record of a call

The operations of one call, each with its failure. From the record alone it can be told whether the
call has published, and whether anything failed after that. -/

/-- An operation of a call, and how it failed if it did. -/
structure Event where
  op : StoreOp
  failure : Option OSError
  deriving DecidableEq

def failureOf {α : Type} : Except OSError α → Option OSError
  | .ok _ => none
  | .error e => some e

def Event.publishes (e : Event) : Bool :=
  match e.op with
  | .rename _ _ | .replaceEntry _ _ _ => e.failure.isNone
  | _ => false

/-- The failure is raised, and not passed over while a temporary directory is removed. -/
def Event.raises (e : Event) : Bool :=
  match e.op with
  | .listdir _ | .unlink _ _ | .rmdir _ =>
    e.failure.any fun failure => decide (failure ≠ .fileNotFound)
  | _ => e.failure.isSome

def failsLate : List Event → Bool
  | [] => false
  | e :: es => if e.publishes then es.any Event.raises else failsLate es

/-- What was recorded before the publication does not count. -/
theorem failsLate_append {es rest : List Event} (h : ∀ e ∈ es, e.publishes = false) :
    failsLate (es ++ rest) = failsLate rest := by
  induction es with
  | nil => rfl
  | cons e es ih =>
    have he : ¬ e.publishes = true := by
      rw [h e List.mem_cons_self]
      exact Bool.false_ne_true
    rw [List.cons_append, failsLate, if_neg he]
    exact ih fun e' he' => h e' (List.mem_cons_of_mem _ he')

variable [DecidableEq ι]

def alone (i : ι) : Env StoreOp StoreOp.Ans (Store ι × List Event) :=
  Env.sequential (fun _ _ => True) fun o s r t =>
    ∃ c, ModelStore.exec i o c s.1 = some (r, t.1) ∧ t.2 = s.2 ++ [⟨o, failureOf r⟩]

/-! ## Before and after publication

The two phases of a call. Up to the publishing operation the visible store is the one that was
found; from then on it is what the call makes of it. -/

/-- The operations of a call apart from the two that publish. They change temporary directories and
the lock. -/
def Hides : StoreOp → Prop
  | .mkdtemp start => start = ".stage-" ∨ start = ".pointer-"
  | .create folder _ | .append folder _ _ | .chmod (.inside folder _) _ | .chmod (.entry folder) _
  | .symlink folder _ _ | .unlink folder _ | .rmdir folder => Temporary folder
  | .rename _ _ | .replaceEntry _ _ _ => False
  | _ => True

theorem Temporary.hidden {name : String} (h : Temporary name) : hidden name := by
  obtain ⟨suffix, rfl | rfl⟩ := h
  · unfold ModelStore.hidden
    rw [String.toList_append]
    rfl
  · unfold ModelStore.hidden
    rw [String.toList_append]
    rfl

/-- An operation apart from the two changes temporary directories only. -/
theorem Hides.folderChange {c : Choice} {o : StoreOp} {folder : String}
    {g : Folder → Except OSError Folder} (h : Hides o)
    (ho : ModelStore.folderChange c o = some (folder, g)) : Temporary folder := by
  cases o with
  | create | append | symlink | unlink =>
    obtain ⟨rfl, -⟩ := Prod.mk.inj (Option.some.inj ho)
    exact h
  | chmod p mode =>
    cases p with
    | inside | entry =>
      obtain ⟨rfl, -⟩ := Prod.mk.inj (Option.some.inj ho)
      exact h
    | outside | root => exact absurd ho (by simp [ModelStore.folderChange])
  | _ => exact absurd ho (by simp [ModelStore.folderChange])

/-- An operation apart from the two leaves every visible name alone. -/
theorem Hides.entries {i : ι} {o : StoreOp} (ho : Hides o) {c : Choice} {s t : Store ι}
    {r : o.Ans} (h : ModelStore.exec i o c s = some (r, t)) {name : String}
    (hname : ¬ hidden name) : t.entries name = s.entries name := by
  have hne : ∀ other, hidden other → name ≠ other := by
    intro other hother heq
    rw [heq] at hname
    exact hname hother
  have heffect := exec_effect h
  generalize r.isOk = ok at heffect
  cases heffect with
  -- one case for each effect: what it changes is the lock file or a temporary directory
  | unchanged h _ => exact h.2 name (hne _ rfl)
  | lock _ => rfl
  | unlock _ =>
    unfold Store.release
    split <;> rfl
  | change ho' _ _ => exact setEntry_of_ne _ _ (hne _ (ho.folderChange ho').hidden)
  | mkdtemp start _ =>
    apply setEntry_of_ne
    apply hne
    apply Temporary.hidden
    rcases ho with rfl | rfl
    · exact ⟨c.suffix, Or.inl rfl⟩
    · exact ⟨c.suffix, Or.inr rfl⟩
  | rmdir folder => exact setEntry_of_ne _ _ (hne _ (Temporary.hidden ho))
  -- the two operations that publish
  | rename _ _ => exact ho.elim
  | replace _ _ => exact ho.elim

/-- Nothing has been published. -/
structure Before (s₀ : Store ι) (x : Store ι × List Event) : Prop where
  entries : ∀ name, ¬ hidden name → x.1.entries name = s₀.entries name
  record : ∀ e ∈ x.2, e.publishes = false

/-- The call has published, and an operation after that has failed or has not. -/
structure After (s₀ : Store ι) (call : Call) (late : Bool) (x : Store ι × List Event) : Prop where
  visible : x.1.visible = call.publish s₀.visible
  record : ∃ before e after, x.2 = before ++ e :: after ∧ (∀ e' ∈ before, e'.publishes = false) ∧
    e.publishes = true ∧ after.any Event.raises = late

/-- How far a call is: `none` before it has published. -/
def Phase (s₀ : Store ι) (call : Call) : Option Bool → Store ι × List Event → Prop
  | none => Before s₀
  | some late => After s₀ call late

omit [DecidableEq ι] in
/-- Stores that agree on the visible names look the same. -/
theorem visible_of_entries {s t : Store ι}
    (h : ∀ name, ¬ hidden name → t.entries name = s.entries name) : t.visible = s.visible := by
  have hcurrent := h "current" (by decide)
  have hknown := h "known-good" (by decide)
  have hfolder : ∀ name, ¬ hidden name → t.folder name = s.folder name := by
    intro name hname
    unfold Store.folder
    rw [h name hname]
  unfold Store.visible Store.target
  rw [hcurrent, hknown]
  congr 1
  ext name
  constructor
  · intro ⟨hname, hsome⟩
    exact ⟨hname, hfolder name hname ▸ hsome⟩
  · intro ⟨hname, hsome⟩
    exact ⟨hname, (hfolder name hname).symm ▸ hsome⟩

/-- An operation apart from the two does not publish. -/
theorem Hides.publishes {o : StoreOp} (ho : Hides o) (failure : Option OSError) :
    (Event.mk o failure).publishes = false := by
  cases o with
  | rename | replaceEntry => exact ho.elim
  | _ => rfl

/-- An operation that publishes nothing leaves the call where it is, and marks a failure that comes
late. -/
theorem phase_step {s₀ : Store ι} {call : Call} {i : ι} {o : StoreOp} (ho : Hides o)
    {x y : Store ι × List Event} {r : o.Ans} (h : (alone i).exec o x r y) {phase : Option Bool}
    (hx : Phase s₀ call phase x) :
    Phase s₀ call (phase.map fun late => late || (Event.mk o (failureOf r)).raises) y := by
  obtain ⟨c, hexec, hrecord⟩ := h
  have hsame : ∀ name, ¬ hidden name → y.1.entries name = x.1.entries name :=
    fun name hname => ho.entries hexec hname
  -- before the publishing operation: the record stays free of it
  cases phase with
  | none =>
    constructor
    · intro name hname
      exact (hsame name hname).trans (hx.entries name hname)
    · intro e he
      rw [hrecord] at he
      rcases List.mem_append.mp he with hin | hin
      · exact hx.record e hin
      · rw [List.mem_singleton.mp hin]
        exact ho.publishes _
  -- after it, only a failure that is raised counts
  | some late =>
    obtain ⟨before, e, after, hlist, hbefore, he, hlate⟩ := hx.record
    refine ⟨(visible_of_entries hsame).trans hx.visible, before, e,
      after ++ [⟨o, failureOf r⟩], ?_, hbefore, he, ?_⟩
    · rw [hrecord, hlist, List.append_assoc, List.cons_append]
    · rw [List.any_append, hlate]
      simp

/-- Operations apart from the two lead from before the publication to before the publication. -/
theorem before_step {s₀ : Store ι} {i : ι} {o : StoreOp} (ho : Hides o)
    {x y : Store ι × List Event} {r : o.Ans} (h : (alone i).exec o x r y) (hx : Before s₀ x) :
    Before s₀ y := by
  have hphase : Phase s₀ .rollback none x := hx
  exact phase_step ho h hphase

/-! ## Programs

Which phases a program may start and end in. `Closes` is for the parts that run on both sides of the
publication, the removal of temporary directories and the release of the lock. -/

section Programs

variable {α β : Type} (s₀ : Store ι) (call : Call) (i : ι)

/-- After a program that starts before the publication and returns, or raises. -/
def Served (late : Bool) (x : Store ι × List Event) : Prop :=
  Phase s₀ call none x ∨ Phase s₀ call (some late) x

/-- Started before the publication, the program returns only where no failure came late, and raises
only where one did or nothing is published. -/
def Serves (p : StoreM α) : Prop :=
  ∀ x, Before s₀ x →
    p.wp (alone i) (fun _ => Served s₀ call false) (fun _ => Served s₀ call true) x

/-- Wherever it is started, the program does not publish, and raises when a failure comes late. -/
def Closes (p : StoreM α) : Prop :=
  ∀ phase x, Phase s₀ call phase x →
    p.wp (alone i) (fun _ => Phase s₀ call phase)
      (fun _ => Phase s₀ call (phase.map fun _ => true)) x

variable {s₀ call i}

theorem closes_ret (a : α) : Closes s₀ call i (.ret a : StoreM α) := by
  rintro phase x hx y rfl
  exact hx

/-- Two parts that close, one after the other, close. -/
theorem closes_bind {p : StoreM α} {f : α → StoreM β} (hp : Closes s₀ call i p)
    (hf : ∀ a, Closes s₀ call i (f a)) : Closes s₀ call i (p.bind f) := by
  intro phase x hx
  exact wp_bind.mpr (wp_mono (hp phase x hx) (fun a y hy => hf a phase y hy) fun _ _ h => h)

/-- A loop over a part that closes does. -/
theorem closes_forEach {as : List α} {f : α → StoreM Unit} (hf : ∀ a, Closes s₀ call i (f a)) :
    Closes s₀ call i (forEach as f) := by
  induction as with
  | nil => exact closes_ret ()
  | cons a as ih => exact closes_bind (hf a) fun _ => ih

/-- An operation whose answer decides where the program goes on. -/
theorem closes_op {o : StoreOp} (ho : Hides o) {k : o.Ans → StoreM α}
    (hk : ∀ r phase x,
      Phase s₀ call (phase.map fun late => late || (Event.mk o (failureOf r)).raises) x →
      (k r).wp (alone i) (fun _ => Phase s₀ call phase)
        (fun _ => Phase s₀ call (phase.map fun _ => true)) x) :
    Closes s₀ call i (.op o k) := by
  rintro phase x hx y rfl
  refine ⟨trivial, ?_⟩
  intro r z hexec
  exact hk r phase z (phase_step ho hexec hx)

omit [DecidableEq ι] in
/-- An operation that raises nothing leaves the phase as it is. -/
theorem phase_ok {e : Event} (he : e.raises = false) {phase : Option Bool}
    {x : Store ι × List Event} (hx : Phase s₀ call (phase.map fun late => late || e.raises) x) :
    Phase s₀ call phase x := by
  cases phase with
  | none => exact hx
  | some late =>
    rw [Option.map_some, he, Bool.or_false] at hx
    exact hx

omit [DecidableEq ι] in
/-- An operation that raises after the publication makes the failure late. -/
theorem phase_late {e : Event} (he : e.raises = true) {phase : Option Bool}
    {x : Store ι × List Event} (hx : Phase s₀ call (phase.map fun late => late || e.raises) x) :
    Phase s₀ call (phase.map fun _ => true) x := by
  cases phase with
  | none => exact hx
  | some late =>
    rw [Option.map_some, he, Bool.or_true] at hx
    exact hx

theorem raises_ok (o : StoreOp) : (Event.mk o none).raises = false := by
  cases o <;> rfl

/-- An operation whose every failure is raised. -/
theorem closes_perform {o : StoreOp} (ho : Hides o)
    (hraises : ∀ e, (Event.mk o (some e)).raises = true) : Closes s₀ call i (perform o) := by
  apply closes_op ho
  intro r phase x hx
  cases r with
  | ok a =>
    rintro y rfl
    exact phase_ok (raises_ok o) hx
  | error e =>
    rintro y rfl
    exact phase_late (hraises e) hx

/-- An operation of the removal, which may find nothing to remove. -/
theorem closes_ignored {o : StoreOp} (ho : Hides o) {k : o.Ans → StoreM Unit}
    (hok : ∀ a, k (.ok a) = .ret ()) (hmissing : k (.error .fileNotFound) = .ret ())
    (hother : k (.error .other) = .raise (.osError .other))
    (hpasses : (Event.mk o (some .fileNotFound)).raises = false)
    (hraises : (Event.mk o (some .other)).raises = true) : Closes s₀ call i (.op o k) := by
  apply closes_op ho
  -- a file that is missing is passed over, any other failure is raised
  intro r phase x hx
  match r with
  | .ok a =>
    rw [hok]
    rintro y rfl
    exact phase_ok (raises_ok o) hx
  | .error .fileNotFound =>
    rw [hmissing]
    rintro y rfl
    exact phase_ok hpasses hx
  | .error .other =>
    rw [hother]
    rintro y rfl
    exact phase_late hraises hx

/-- Removing a temporary directory closes. -/
theorem closes_cleanup {name : String} (hname : Temporary name) :
    Closes s₀ call i (cleanup name) := by
  have hunlink : ∀ item, Closes s₀ call i (ignoreMissing (perform (.unlink name item))) :=
    fun item => closes_ignored (o := .unlink name item) hname (fun _ => rfl) rfl rfl rfl rfl
  have hrmdir : Closes s₀ call i (ignoreMissing (perform (.rmdir name))) :=
    closes_ignored (o := .rmdir name) hname (fun _ => rfl) rfl rfl rfl rfl
  apply closes_op (o := .listdir name) trivial
  intro r phase x hx
  match r with
  | .ok items =>
    exact closes_bind (closes_forEach hunlink) (fun _ => hrmdir) phase x (phase_ok rfl hx)
  | .error .fileNotFound =>
    rintro y rfl
    exact phase_ok rfl hx
  | .error .other =>
    rintro y rfl
    exact phase_late rfl hx

/-! ### Programs that publish

`Serves` is for the parts that start before the publication. They are composed of quiet parts, of
the operation that publishes and of parts that close. -/

/-- A program before the publication. -/
theorem before_within {p : StoreM α}
    {Q : α → Prop} (hp : Within Hides p Q) (x : Store ι × List Event) (hx : Before s₀ x) :
    p.wp (alone i) (fun a y => Before s₀ y ∧ Q a) (fun _ => Before s₀) x := by
  have hkeeps : Keeps (alone i) (Before s₀) p := by
    apply hp.keeps (stable_sequential _)
    · intro o x ho _
      trivial
    · intro o x r y ho hx hexec
      exact before_step ho hexec hx
  have hvalue := hp.wp (E := alone i) (fun _ _ _ => trivial) x
  exact wp_mono (wp_and (hkeeps x hx) hvalue) (fun _ _ h => h) fun _ _ h => h.1

/-- A program that issues none of the two operations serves. -/
theorem serves_within {p : StoreM α}
    {Q : α → Prop} (hp : Within Hides p Q) : Serves s₀ call i p :=
  fun x hx => wp_mono (before_within hp x hx) (fun _ _ h => Or.inl h.1)
    fun _ _ h => Or.inl h

/-- A quiet part in front of one that serves. -/
theorem serves_bind {p : StoreM α}
    {f : α → StoreM β} {Q : α → Prop} (hp : Within Hides p Q)
    (hf : ∀ a, Q a → Serves s₀ call i (f a)) :
    Serves s₀ call i (p.bind f) :=
  fun x hx => wp_bind.mpr (wp_mono (before_within hp x hx)
    (fun a y h => hf a h.2 y h.1) fun _ _ h => Or.inl h)

/-- After a part that serves, a part that closes keeps what was reached. -/
theorem Served.closes {p : StoreM α} (hp : Closes s₀ call i p) {late : Bool}
    {x : Store ι × List Event} (hx : Served s₀ call late x) :
    p.wp (alone i) (fun _ => Served s₀ call late) (fun _ => Served s₀ call true) x := by
  rcases hx with hx | hx
  · exact wp_mono (hp none x hx) (fun _ _ h => Or.inl h) fun _ _ h => Or.inl h
  · exact wp_mono (hp (some late) x hx) (fun _ _ h => Or.inr h) fun _ _ h => Or.inr h

theorem serves_bind_closes {p : StoreM α} {f : α → StoreM β} (hp : Serves s₀ call i p)
    (hf : ∀ a, Closes s₀ call i (f a)) : Serves s₀ call i (p.bind f) :=
  fun x hx => wp_bind.mpr (wp_mono (hp x hx) (fun a _ hy => hy.closes (hf a)) fun _ _ h => h)

/-- What is done on every way out keeps the outcome. -/
theorem serves_finallyDo {p : StoreM α} {c : StoreM Unit} (hp : Serves s₀ call i p)
    (hc : Closes s₀ call i c) : Serves s₀ call i (p.finallyDo c) := by
  intro x hx
  apply wp_finallyDo.mpr
  apply wp_mono (hp x hx)
  · intro a y hy
    apply wp_mono (hy.closes hc)
    · rintro _ z hz w rfl
      exact hz
    · exact fun _ _ h => h
  · intro e y hy
    apply wp_mono (hy.closes hc)
    · rintro _ z hz w rfl
      exact hz
    · exact fun _ _ h => h

/-- A body that serves does so in a temporary directory, which is removed at the end. -/
theorem serves_temporaryDirectory {start : String}
    (hstart : start = ".stage-" ∨ start = ".pointer-") {body : String → StoreM Unit}
    (hbody : ∀ name, Temporary name → Serves s₀ call i (body name)) :
    Serves s₀ call i (temporaryDirectory start body) := by
  rintro x hx y rfl
  refine ⟨trivial, ?_⟩
  intro r z hexec
  have hz : Before s₀ z := before_step (o := .mkdtemp start) hstart hexec hx
  -- no directory was made, and nothing changed
  match r with
  | .error e =>
    rintro w rfl
    exact Or.inl hz
  -- the body runs in the new directory, which is removed whatever happens
  | .ok name =>
    obtain ⟨c, hmkdtemp, -⟩ := hexec
    obtain ⟨hname, -⟩ := exec_mkdtemp hmkdtemp
    have htemp : Temporary name := by
      rw [hname]
      rcases hstart with rfl | rfl
      · exact ⟨c.suffix, Or.inl rfl⟩
      · exact ⟨c.suffix, Or.inr rfl⟩
    exact serves_finallyDo (hbody name htemp) (closes_cleanup htemp) z hz

/-- A body that serves does so under the lock. -/
theorem serves_storeLock {body : StoreM α} (hbody : Serves s₀ call i body) :
    Serves s₀ call i (storeLock body) := by
  apply serves_bind (within_perform (o := .storeInfo) trivial)
  intro info _
  apply serves_bind (within_require _ _)
  intro _ _
  apply serves_bind (within_require _ _)
  intro _ _
  apply serves_bind (within_perform (o := .openLock) trivial)
  intro _ _
  apply serves_finallyDo
  · apply serves_bind (within_perform (o := .flock) trivial)
    intro _ _
    exact hbody
  · exact closes_perform (o := .closeLock) trivial fun _ => rfl

/-! ### The two operations

What the rename and the replacement make of the visible store. -/

omit [DecidableEq ι] in
/-- The entries that are seen are as before, apart from one that leads to the version. -/
theorem visible_pointer {s t : Store ι} {name : String} (hfolder : s.folder name = none)
    (hlink : t.entries name = some (.item (.link modelId)))
    (hother : ∀ other, ¬ hidden other → other ≠ name → t.entries other = s.entries other) :
    t.target name = some modelId ∧ t.visible.versions = s.visible.versions := by
  constructor
  · unfold Store.target
    rw [hlink]
  · ext other
    -- a link is no folder, so it adds no version
    by_cases heq : other = name
    · have hnone : t.folder other = none := by
        unfold Store.folder
        rw [heq, hlink]
      rw [heq] at hnone ⊢
      simp [Store.visible, hnone, hfolder]
    · constructor
      · intro ⟨hname, hsome⟩
        refine ⟨hname, ?_⟩
        unfold Store.folder at hsome ⊢
        rwa [hother other hname heq] at hsome
      · intro ⟨hname, hsome⟩
        refine ⟨hname, ?_⟩
        unfold Store.folder at hsome ⊢
        rwa [hother other hname heq]

omit [DecidableEq ι] in
/-- When only the pointer has changed, and leads to the version, the call has published. -/
theorem publish_pointer {s t : Store ι} {name : String} (hcall : call.pointer = some name)
    (hfolder : s.folder name = none) (hlink : t.entries name = some (.item (.link modelId)))
    (hother : ∀ other, ¬ hidden other → other ≠ name → t.entries other = s.entries other) :
    t.visible = call.publish s.visible := by
  obtain ⟨htarget, hversions⟩ := visible_pointer hfolder hlink hother
  have hkeeps : ∀ other, ¬ hidden other → other ≠ name → t.target other = s.target other := by
    intro other hname hne
    unfold Store.target
    rw [hother other hname hne]
  rcases Call.pointer_cases hcall with ⟨rfl, id, rfl⟩ | ⟨rfl, ⟨id, rfl⟩ | rfl⟩
  · exact Visible.ext (hkeeps "current" (by decide) (by decide)) htarget hversions
  · exact Visible.ext htarget (hkeeps "known-good" (by decide) (by decide)) hversions
  · exact Visible.ext htarget (hkeeps "known-good" (by decide) (by decide)) hversions

omit [DecidableEq ι] in
/-- When only the version has changed, and is a folder, the call has published. -/
theorem publish_version {s t : Store ι} {f : Folder} (manifestPath source : String)
    (hversion : t.entries modelId = some (.folder f))
    (hother : ∀ other, ¬ hidden other → other ≠ modelId → t.entries other = s.entries other) :
    t.visible = (Call.install manifestPath source).publish s.visible := by
  have hkeeps : ∀ other, ¬ hidden other → other ≠ modelId → t.target other = s.target other := by
    intro other hname hne
    unfold Store.target
    rw [hother other hname hne]
  -- the pointers are as they were
  apply Visible.ext (hkeeps "current" (by decide) (by decide))
    (hkeeps "known-good" (by decide) (by decide))
  ext other
  by_cases heq : other = modelId
  -- the version itself
  · have hsome : t.folder modelId = some f := by
      unfold Store.folder
      rw [hversion]
    have hseen : ¬ hidden modelId := by decide
    rw [heq]
    simp [Store.visible, Call.publish, hsome, hseen]
  -- any other name is a version exactly when it was one
  · have hsame : ∀ hname : ¬ hidden other, t.folder other = s.folder other := by
      intro hname
      unfold Store.folder
      rw [hother other hname heq]
    simp only [Store.visible, Call.publish, Set.mem_ofPred_eq, Set.mem_insert_iff]
    constructor
    · intro ⟨hname, hsome⟩
      exact Or.inr ⟨hname, hsame hname ▸ hsome⟩
    · rintro (hid | ⟨hname, hsome⟩)
      · exact absurd hid heq
      · exact ⟨hname, (hsame hname).symm ▸ hsome⟩

/-- A rename fails and changes nothing, or moves the folder. -/
theorem exec_rename {folder destination : String} {c : Choice} {s t : Store ι}
    {r : StoreOp.Ans (.rename folder destination)}
    (h : ModelStore.exec i (.rename folder destination) c s = some (r, t)) :
    (∃ e, r = .error e ∧ t = s) ∨
    ∃ f, r = .ok () ∧ t = (s.setEntry folder none).setEntry destination (some (.folder f)) := by
  unfold ModelStore.exec at h
  split at h
  · next e _ =>
    obtain ⟨rfl, rfl⟩ := Prod.mk.inj (Option.some.inj h)
    exact Or.inl ⟨e, rfl, rfl⟩
  -- the destination may be taken, or the folder may be gone
  · have h' := Option.some.inj h
    unfold renameFolder at h'
    split at h'
    · obtain ⟨rfl, rfl⟩ := Prod.mk.inj h'
      exact Or.inl ⟨_, rfl, rfl⟩
    next f hf =>
    split at h'
    · obtain ⟨rfl, rfl⟩ := Prod.mk.inj h'
      exact Or.inr ⟨f, rfl, rfl⟩
    · obtain ⟨rfl, rfl⟩ := Prod.mk.inj h'
      exact Or.inl ⟨_, rfl, rfl⟩

/-- A replacement fails and changes nothing, or moves the entry out of its folder. -/
theorem exec_replaceEntry {folder name destination : String} {c : Choice} {s t : Store ι}
    {r : StoreOp.Ans (.replaceEntry folder name destination)}
    (h : ModelStore.exec i (.replaceEntry folder name destination) c s = some (r, t)) :
    (∃ e, r = .error e ∧ t = s) ∨
    ∃ f item, r = .ok () ∧ s.folder folder = some f ∧ f.get name = some item ∧
      s.folder destination = none ∧
      t = (s.setEntry folder (some (.folder (f.remove name)))).setEntry destination
        (some (.item item)) := by
  unfold ModelStore.exec at h
  split at h
  · next e _ =>
    obtain ⟨rfl, rfl⟩ := Prod.mk.inj (Option.some.inj h)
    exact Or.inl ⟨e, rfl, rfl⟩
  · have h' := Option.some.inj h
    -- no such directory, no such entry, a directory in the way, or the replacement
    unfold replaceEntry at h'
    split at h'
    · obtain ⟨rfl, rfl⟩ := Prod.mk.inj h'
      exact Or.inl ⟨_, rfl, rfl⟩
    next f hf =>
    split at h'
    · obtain ⟨rfl, rfl⟩ := Prod.mk.inj h'
      exact Or.inl ⟨_, rfl, rfl⟩
    · obtain ⟨rfl, rfl⟩ := Prod.mk.inj h'
      exact Or.inl ⟨_, rfl, rfl⟩
    · next item hitem hfree =>
      obtain ⟨rfl, rfl⟩ := Prod.mk.inj h'
      refine Or.inr ⟨f, item, rfl, hf, hitem, ?_, rfl⟩
      unfold Store.folder
      split
      · next g hg => exact absurd hg (hfree _)
      · rfl

/-- An operation that leaves the store alone, or publishes what the call has to. -/
theorem wp_publishing {o : StoreOp} (hfails : ∀ e, (Event.mk o (some e)).publishes = false)
    (hworks : (Event.mk o none).publishes = true) {x : Store ι × List Event} (hx : Before s₀ x)
    (h : ∀ c r t, ModelStore.exec i o c x.1 = some (r, t) →
      (∃ e, r = .error e ∧ t = x.1) ∨ ∃ a, r = .ok a ∧ t.visible = call.publish x.1.visible) :
    (perform o).wp (alone i) (fun _ => Served s₀ call false) (fun _ => Served s₀ call true) x := by
  rintro y rfl
  refine ⟨trivial, ?_⟩
  intro r z ⟨c, hexec, hrecord⟩
  rcases h c r z.1 hexec with ⟨e, rfl, hsame⟩ | ⟨a, rfl, hvisible⟩
  -- it fails: nothing has been published, and the record says so
  · rintro w rfl
    left
    constructor
    · intro name hname
      rw [hsame]
      exact hx.entries name hname
    · intro e' he'
      rw [hrecord] at he'
      rcases List.mem_append.mp he' with hin | hin
      · exact hx.record e' hin
      · rw [List.mem_singleton.mp hin]
        exact hfails e
  -- it works: the record ends in the publication
  · rintro w rfl
    right
    constructor
    · rw [hvisible, visible_of_entries hx.entries]
    · exact ⟨x.2, ⟨o, none⟩, [], hrecord, hx.record, hworks, rfl⟩

/-- The rename of the stage serves an installation. -/
theorem serves_rename {manifestPath source stage : String} (hstage : Temporary stage) :
    Serves s₀ (.install manifestPath source) i (perform (.rename stage modelId)) := by
  intro x hx
  apply wp_publishing (o := .rename stage modelId) (fun _ => rfl) rfl hx
  intro c r t hexec
  rcases exec_rename hexec with herror | ⟨f, rfl, rfl⟩
  · exact Or.inl herror
  · refine Or.inr ⟨(), rfl, publish_version (f := f) manifestPath source (setEntry_self _ _ _) ?_⟩
    intro other hname hne
    have hother : other ≠ stage := by
      intro heq
      rw [heq] at hname
      exact hname hstage.hidden
    rw [setEntry_of_ne _ _ hne, setEntry_of_ne _ _ hother]

/-- A link that was made is there. -/
theorem exec_symlink {folder name target : String} {c : Choice} {s t : Store ι} {u : Unit}
    (h : ModelStore.exec i (.symlink folder name target) c s = some (.ok u, t)) :
    ∃ f, t.folder folder = some f ∧ f.get name = some (.link target) := by
  have heffect : Effect i c s (.symlink folder name target) true t := exec_effect h
  cases heffect with
  | unchanged _ hok => exact absurd (hok rfl) (by simp [folderChange])
  | @change _ _ _ _ f f' ho hf hg =>
    obtain ⟨rfl, rfl⟩ := Prod.mk.inj (Option.some.inj ho)
    exact ⟨f', folder_setEntry_self _ _ _, get_symlinkItem hg⟩

/-- In a temporary directory the link to the version is made, or nothing is published. -/
theorem wp_symlink {temporary : String} (htemp : Temporary temporary) {x : Store ι × List Event}
    (hx : Before s₀ x) :
    (perform (.symlink temporary "link" modelId)).wp (alone i)
      (fun _ y => Before s₀ y ∧
        ∃ f, y.1.folder temporary = some f ∧ f.get "link" = some (.link modelId))
      (fun _ => Before s₀) x := by
  rintro y rfl
  refine ⟨trivial, ?_⟩
  intro r z hexec
  have hz : Before s₀ z := before_step (o := .symlink temporary "link" modelId) htemp hexec hx
  match r with
  | .error e =>
    rintro w rfl
    exact hz
  | .ok () =>
    obtain ⟨c, hsymlink, -⟩ := hexec
    rintro w rfl
    exact ⟨hz, exec_symlink hsymlink⟩

/-- The link that has been made is put in the place of the pointer. -/
theorem wp_replaceEntry {name temporary : String} (htemp : Temporary temporary)
    (hcall : call.pointer = some name) {x : Store ι × List Event} (hx : Before s₀ x)
    {f : Folder} (hf : x.1.folder temporary = some f)
    (hlink : f.get "link" = some (.link modelId)) :
    (perform (.replaceEntry temporary "link" name)).wp (alone i)
      (fun _ => Served s₀ call false) (fun _ => Served s₀ call true) x := by
  apply wp_publishing (o := .replaceEntry temporary "link" name) (fun _ => rfl) rfl hx
  intro c r t hexec
  -- the operation fails, or the pointer is what the directory held
  rcases exec_replaceEntry hexec with herror | ⟨f', item, rfl, hf', hitem, hfree, rfl⟩
  · exact Or.inl herror
  · rw [hf] at hf'
    rw [← Option.some.inj hf', hlink] at hitem
    rw [← Option.some.inj hitem]
    refine Or.inr ⟨(), rfl, publish_pointer hcall hfree (setEntry_self _ _ _) ?_⟩
    intro other hname hne
    have hother : other ≠ temporary := by
      intro heq
      rw [heq] at hname
      exact hname htemp.hidden
    rw [setEntry_of_ne _ _ hne, setEntry_of_ne _ _ hother]

theorem closes_fsync (p : Place) : Closes s₀ call i (perform (.fsync p)) :=
  closes_perform (o := .fsync p) trivial fun _ => rfl

/-! ### The calls

Each of the four calls, from its parts. -/

theorem hides_of_quiet {o : StoreOp} (ho : Quiet o) : Hides o := by
  cases o <;> trivial

variable [Json.Nesting] {sha256 : List UInt8 → String} {digest : String}

/-- Publishing a version serves its installation. -/
theorem serves_publish {manifest : List (PyStr × Json)} {content : List UInt8}
    (hmanifest : checkManifest digest content = .ok manifest) (manifestPath path : String)
    (source : Directory) {stage : String} (hstage : Temporary stage) :
    Serves s₀ (.install manifestPath path) i (publish sha256 digest manifest source stage) := by
  have hid : textField manifest "model_id" = modelId :=
    checkManifest_textField hmanifest (by simp [selected])
  -- everything before the rename is in the temporary directory, and hidden
  apply serves_bind (within_perform (o := .lstat _) trivial)
  intro (kind : FileKind) _
  apply serves_bind (within_require _ _)
  intro _ _
  apply serves_bind (within_copyfile trivial hstage trivial fun _ => hstage)
  intro _ _
  apply serves_bind (within_writeText hstage hstage)
  intro _ _
  apply serves_bind ((within_validateModel _ _).weaken fun _ => hides_of_quiet)
  intro _ _
  apply serves_bind (within_perform (o := .listdir stage) trivial)
  intro items _
  have hitem : ∀ item : String, Within Hides
      (do
        perform (.chmod (.inside stage item) 0o644)
        perform (.fsync (.inside stage item)) : StoreM Unit) (fun _ => True) := by
    intro item
    apply within_bind (within_perform (o := .chmod (.inside stage item) 0o644) hstage)
    intro _ _
    exact within_perform (o := .fsync (.inside stage item)) trivial
  apply serves_bind (within_forEach hitem)
  intro _ _
  apply serves_bind (within_perform (o := .chmod (.entry stage) 0o755) hstage)
  intro _ _
  apply serves_bind (within_perform (o := .fsync (.entry stage)) trivial)
  intro _ _
  -- the rename publishes the version, and the `fsync` after it may still fail
  rw [hid]
  exact serves_bind_closes (serves_rename hstage) fun _ => closes_fsync .root

/-- Replacing a pointer serves the calls that may move it. -/
theorem serves_replacePointer {name : String} (hcall : call.pointer = some name) (id : String) :
    Serves s₀ call i (replacePointer sha256 digest name id) := by
  apply serves_bind ((within_installedVersion id).weaken fun _ => hides_of_quiet)
  intro version hversion
  rw [hversion]
  refine serves_bind_closes (serves_temporaryDirectory (Or.inr rfl) ?_) fun _ => closes_ret _
  intro temporary htemp x hx
  refine wp_bind.mpr (wp_mono (wp_symlink htemp hx) ?_ fun _ _ h => Or.inl h)
  intro _ y ⟨hy, f, hf, hlink⟩
  refine wp_bind.mpr (wp_mono (wp_replaceEntry htemp hcall hy hf hlink) ?_ fun _ _ h => h)
  intro _ z hz
  exact hz.closes (closes_fsync .root)

/-- `install` serves. -/
theorem serves_installModel (manifestPath source : String) :
    Serves s₀ (.install manifestPath source) i
      (installModel sha256 digest manifestPath source) := by
  apply serves_bind ((within_loadManifest _).weaken fun _ => hides_of_quiet)
  intro manifest ⟨content, hmanifest⟩
  apply serves_storeLock
  apply serves_bind ((within_lexists _).weaken fun _ => hides_of_quiet)
  intro there _
  split
  · apply serves_bind ((within_validateModel _ _).weaken fun _ => hides_of_quiet)
    intro _ _
    exact serves_within ((within_installedVersion _).weaken fun _ => hides_of_quiet)
  · refine serves_bind_closes (serves_temporaryDirectory (Or.inl rfl) ?_) fun _ => closes_ret _
    intro stage hstage
    exact serves_publish hmanifest manifestPath source _ hstage

/-- Each of the four calls serves. -/
theorem serves_serve : Serves s₀ call i (serve sha256 digest call) := by
  cases call with
  | install manifestPath source => exact serves_installModel manifestPath source
  | activate id => exact serves_storeLock (serves_replacePointer rfl id)
  | qualify id => exact serves_storeLock (serves_replacePointer rfl id)
  | rollback =>
    apply serves_storeLock
    apply serves_bind (within_perform (o := .readlink "known-good") trivial)
    intro (id : String) _
    exact serves_replacePointer rfl id

end Programs

/-! ## Commands that fail

The record of a call read backwards: where it raises, either nothing was published or a failure came
late. -/

omit [DecidableEq ι] in
/-- Before the publication nothing is late. -/
theorem Before.not_failsLate {s₀ : Store ι} {x : Store ι × List Event} (h : Before s₀ x) :
    failsLate x.2 = false := by
  rw [← List.append_nil x.2, failsLate_append h.record]
  rfl

omit [DecidableEq ι] in
/-- After the publication the record tells whether a failure came late. -/
theorem After.failsLate_eq {s₀ : Store ι} {call : Call} {late : Bool}
    {x : Store ι × List Event} (h : After s₀ call late x) : failsLate x.2 = late := by
  obtain ⟨before, e, after, hlist, hbefore, he, hlate⟩ := h.record
  rw [hlist, failsLate_append hbefore, failsLate, if_pos he, hlate]

/-- **A call that raises leaves what is visible as it was, unless it fails after it has published
something new.** -/
theorem raises_unseen_iff [Json.Nesting] (sha256 : List UInt8 → String) (digest : String)
    (call : Call) (i : ι)
    {s t : Store ι} {out : Except ModelError String} {es : List Event}
    (run : (serve sha256 digest call).Runs (alone i) (s, []) out (t, es)) :
    ((∃ e, out = .error e) → t.visible = s.visible) ↔
      ¬(failsLate es = true ∧ call.Changes s.visible) := by
  have hbefore : Before s (s, []) := ⟨fun _ _ => rfl, fun _ he => absurd he List.not_mem_nil⟩
  obtain ⟨hreturns, hraises⟩ := wp_runs (serves_serve _ hbefore) run
  cases out with
  | ok a =>
    -- a call that returned: no event of it is a failure after the publication
    have hlate : failsLate es = false := by
      rcases hreturns a rfl with h | h
      · exact h.not_failsLate
      · exact h.failsLate_eq
    constructor
    · intro _ hboth
      rw [hlate] at hboth
      exact Bool.false_ne_true hboth.1
    · rintro _ ⟨e, he⟩
      cases he
  | error e =>
    -- the failure came before the publication or after it
    rcases hraises e rfl with h | h
    · constructor
      · intro _ hboth
        rw [h.not_failsLate] at hboth
        exact Bool.false_ne_true hboth.1
      · intro _ _
        exact visible_of_entries h.entries
    · have hvisible : t.visible = s.visible ↔ ¬ call.Changes s.visible := by
        rw [h.visible]
        exact call.publish_eq_iff _
      rw [h.failsLate_eq]
      constructor
      · intro hsame hboth
        exact hvisible.mp (hsame ⟨e, rfl⟩) hboth.2
      · intro hnot _
        exact hvisible.mpr fun hchanges => hnot ⟨rfl, hchanges⟩

/-- One operation of a call that runs alone, as a choice decides it. -/
def execAlone (i : ι) (c : Choice) (o : StoreOp) (x : Store ι × List Event) :
    Option (o.Ans × (Store ι × List Event)) :=
  (ModelStore.exec i o c x.1).map fun y => (y.1, y.2, x.2 ++ [⟨o, failureOf y.1⟩])

/-- The executable environment takes steps that the call alone may take. -/
theorem execAlone_alone {i : ι} (c : Choice) (o : StoreOp) (x : Store ι × List Event) (r : o.Ans)
    (y : Store ι × List Event) (h : execAlone i c o x = some (r, y)) :
    (alone i).exec o x r y := by
  obtain ⟨z, hexec, hz⟩ := Option.map_eq_some_iff.mp h
  obtain ⟨rfl, rfl⟩ := Prod.mk.inj hz
  exact ⟨c, hexec, rfl⟩

attribute [local instance] Json.Nesting.default

/-- A store that holds the fixture, with no pointer yet. -/
def fixtureStore : Store Nat where
  entries name :=
    if name = modelId then
      some (.folder ⟨[("manifest.json", .file (Py.encodeUtf8 fixtureStored) 0o644),
        (artifactName, .file fixtureArtifact 0o644)], 0o755⟩)
    else none
  holder := none

/-- The fixture is activated, and the directory cannot be synchronised after the pointer has been
put in place. -/
def unsynced : List Choice :=
  List.replicate 11 fixtureChoice ++ [{ fails := some .other }] ++ List.replicate 3 fixtureChoice

/-- The directory cannot be synchronised after the pointer was replaced: the call raises, and the
pointer has moved. -/
theorem execute_unsynced :
    ((serve fixtureSha256 fixtureDigest (.activate modelId)).execute (execAlone 0) unsynced
      (fixtureStore, [])).map (fun x => (x.1.isOk, x.2.1.target "current"))
      = some (false, some modelId) := by
  unfold serve activateModel replacePointer installedVersion validateModel loadManifest
  rw [fixtureCheck_eq]
  decide +kernel

theorem runs_unsynced : ∃ (out : Except ModelError String) (t : Store Nat) (es : List Event),
    (serve fixtureSha256 fixtureDigest (.activate modelId)).Runs (alone 0) (fixtureStore, []) out
      (t, es) ∧ out.isOk = false ∧ t.target "current" = some modelId := by
  obtain ⟨x, hx, hends⟩ := Option.map_eq_some_iff.mp execute_unsynced
  obtain ⟨hout, htarget⟩ := Prod.mk.inj hends
  exact ⟨x.1, x.2.1, x.2.2, runs_execute execAlone_alone hx, hout, htarget⟩

theorem raises_unseen_iff_unsynced : ∃ (out : Except ModelError String) (t : Store Nat)
    (es : List Event),
    ((∃ e, out = .error e) → t.visible = fixtureStore.visible) ↔
      ¬(failsLate es = true ∧ (Call.activate modelId).Changes fixtureStore.visible) := by
  obtain ⟨out, t, es, run, -⟩ := runs_unsynced
  exact ⟨out, t, es, raises_unseen_iff fixtureSha256 fixtureDigest _ 0 run⟩

/-- **A call that raises may have moved a pointer.** -/
theorem not_raises_unseen :
    ¬∀ (sha256 : List UInt8 → String) (digest : String) (call : Call) (s t : Store Nat)
      (out : Except ModelError String) (es : List Event),
      (serve sha256 digest call).Runs (alone 0) (s, []) out (t, es) →
        (∃ e, out = .error e) → t.visible = s.visible := by
  intro hall
  obtain ⟨out, t, es, run, hout, htarget⟩ := runs_unsynced
  have hraises : ∃ e, out = .error e := by
    cases out with
    | ok a => exact absurd hout (by simp [Except.isOk, Except.toBool])
    | error e => exact ⟨e, rfl⟩
  have hcurrent : some modelId = fixtureStore.target "current" :=
    htarget.symm.trans (congrArg Visible.current (hall _ _ _ _ _ _ _ run hraises))
  exact absurd hcurrent (by decide)

end ModelStore

end Rave
