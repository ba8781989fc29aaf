import RaveDeployment.ModelStore.Verified

/-!
# The store exposes verified models only

`Exposed` is what anyone who looks into the store may rely on, at every moment: the version that is
there is complete and verified, and a pointer leads to it. `exposes_verified` says so for every run
of any number of administrators.
-/

namespace Rave

namespace ModelStore

/-- The pointers that a call may move are its own. -/
theorem Call.pointer_cases {call : Call} {name : String} (h : call.pointer = some name) :
    (name = "known-good" ∧ ∃ id, call = .qualify id) ∨
      (name = "current" ∧ ((∃ id, call = .activate id) ∨ call = .rollback)) := by
  cases call with
  | install _ _ => exact absurd h (by simp [Call.pointer])
  | activate id => exact Or.inr ⟨(Option.some.inj h).symm, Or.inl ⟨id, rfl⟩⟩
  | qualify id => exact Or.inl ⟨(Option.some.inj h).symm, id, rfl⟩
  | rollback => exact Or.inr ⟨(Option.some.inj h).symm, Or.inr rfl⟩

section

variable {ι : Type} [DecidableEq ι]
variable [Json.Nesting] (sha256 : List UInt8 → String) (digest : String)

/-- A folder with the selected manifest and an artifact of the selected digest. -/
structure HoldsModel (f : Folder) : Prop where
  manifest : ∃ content mode text manifest, f.get "manifest.json" = some (.file content mode)
    ∧ Py.decodeUtf8 content = some text ∧ Json.loads text = .ok manifest
    ∧ manifest.Same (.obj (selected digest))
  artifact : ∃ content mode, f.get artifactName = some (.file content mode)
    ∧ sha256 content = digest

structure Exposed (s : Store ι) : Prop where
  version : ∀ node, s.entries modelId = some node →
    ∃ f, node = .folder f ∧ HoldsModel sha256 digest f
  pointers : ∀ name, name = "current" ∨ name = "known-good" → ∀ node, s.entries name = some node →
    node = .item (.link modelId) ∧ ∃ version, s.entries modelId = some version

variable {sha256 digest}

/-- A folder that passes validation holds the selected model. -/
theorem Verified.holdsModel {f : Folder} (h : Verified sha256 digest f) :
    HoldsModel sha256 digest f := by
  obtain ⟨content, mode, fields, hget, hcheck⟩ := h.manifest
  obtain ⟨text, htext, hloads, -, -⟩ := checkManifest_cases hcheck
  exact ⟨⟨content, mode, text, .obj fields, hget, htext, hloads, checkManifest_same hcheck⟩,
    h.artifact⟩

/-- A folder that holds the model is not empty, so that `rename` cannot replace it. -/
theorem HoldsModel.items_ne_nil {f : Folder} (h : HoldsModel sha256 digest f) : f.items ≠ [] := by
  obtain ⟨content, mode, hget, -⟩ := h.artifact
  intro hnil
  rw [Folder.get, hnil] at hget
  exact absurd hget (by simp)

/-! ## One operation

A step that the contract allows keeps what is published. Most operations do not touch a published
name; the two that do are the rename of a verified stage and the replacement of a pointer. -/

/-- What is published after an operation of a call, compared with what was before. -/
structure Published (sha256 : List UInt8 → String) (digest : String) (call : Call)
    (s t : Store ι) : Prop where
  exposed : Exposed sha256 digest t
  kept : ∀ node, s.entries modelId = some node → t.entries modelId = some node
  pointers : ∀ name, name = "current" ∨ name = "known-good" → t.entries name ≠ s.entries name →
    call.pointer = some name

omit [DecidableEq ι] in
/-- An operation that leaves the published names alone keeps them. -/
theorem published_of_same {call : Call} {s t : Store ι} (hs : Exposed sha256 digest s)
    (h : ∀ name ∈ published, t.entries name = s.entries name) :
    Published sha256 digest call s t := by
  have hid := h modelId (by decide)
  have hpointer : ∀ name, name = "current" ∨ name = "known-good" →
      t.entries name = s.entries name := by
    intro name hname
    rcases hname with rfl | rfl
    · exact h _ (by decide)
    · exact h _ (by decide)
  -- what is published is the version and the two pointers, and none of them changed
  refine ⟨⟨?_, ?_⟩, ?_, ?_⟩
  · intro node hnode
    rw [hid] at hnode
    exact hs.version node hnode
  · intro name hname node hnode
    rw [hpointer name hname] at hnode
    rw [hid]
    exact hs.pointers name hname node hnode
  · intro node hnode
    rw [hid]
    exact hnode
  · intro name hname hne
    exact absurd (hpointer name hname) hne

omit [DecidableEq ι] in
/-- A change under a temporary name is not seen. -/
theorem published_of_temporary {call : Call} {s : Store ι} (hs : Exposed sha256 digest s)
    {name : String} (hname : Temporary name) (node : Option Node) :
    Published sha256 digest call s (s.setEntry name node) := by
  apply published_of_same hs
  intro other hother
  apply setEntry_of_ne
  intro heq
  rw [heq] at hother
  exact hname.not_published hother

omit [DecidableEq ι] in
/-- The rename of a verified stage publishes the version, where none was there before. -/
theorem published_of_rename {call : Call} {s : Store ι} (hs : Exposed sha256 digest s)
    {stage : String} (hstage : Temporary stage) {f : Folder} (hf : Verified sha256 digest f)
    (hfree : ∀ node, s.entries modelId = some node → ∃ g, node = .folder g ∧ g.items = []) :
    Published sha256 digest call s
      ((s.setEntry stage none).setEntry modelId (some (.folder f))) := by
  -- a version that is there is not empty, so nothing is replaced
  have hnone : s.entries modelId = none := by
    cases hentry : s.entries modelId with
    | none => rfl
    | some node =>
      obtain ⟨g, hg, hempty⟩ := hfree node hentry
      obtain ⟨g', hg', hmodel⟩ := hs.version node hentry
      rw [hg] at hg'
      rw [Node.folder.inj hg'] at hempty
      exact absurd hempty hmodel.items_ne_nil
  have hpointer : ∀ name, name = "current" ∨ name = "known-good" →
      ((s.setEntry stage none).setEntry modelId (some (.folder f))).entries name
        = s.entries name := by
    intro name hname
    have hpublished : name ∈ published := by
      rcases hname with rfl | rfl <;> decide
    have hid : name ≠ modelId := by
      rcases hname with rfl | rfl <;> decide
    have hne : name ≠ stage := by
      intro heq
      rw [heq] at hpublished
      exact hstage.not_published hpublished
    rw [setEntry_of_ne _ _ hid, setEntry_of_ne _ _ hne]
  refine ⟨⟨?_, ?_⟩, ?_, ?_⟩
  · intro node hnode
    rw [setEntry_self] at hnode
    exact ⟨f, (Option.some.inj hnode).symm, hf.holdsModel⟩
  · intro name hname node hnode
    rw [hpointer name hname] at hnode
    obtain ⟨_, version, hversion⟩ := hs.pointers name hname node hnode
    rw [hnone] at hversion
    exact absurd hversion (by simp)
  · intro node hnode
    rw [hnone] at hnode
    exact absurd hnode (by simp)
  · intro name hname hne
    exact absurd (hpointer name hname) hne

omit [DecidableEq ι] in
/-- The replacement of a pointer leads it to the version that is there. -/
theorem published_of_replace {call : Call} {s : Store ι} (hs : Exposed sha256 digest s)
    {temporary destination : String} (htemp : Temporary temporary) (node : Option Node)
    (hcall : call.pointer = some destination) {g : Folder} (hg : s.folder modelId = some g) :
    Published sha256 digest call s
      ((s.setEntry temporary node).setEntry destination (some (.item (.link modelId)))) := by
  have hdestination : destination = "current" ∨ destination = "known-good" := by
    rcases Call.pointer_cases hcall with ⟨h, -⟩ | ⟨h, -⟩
    · exact Or.inr h
    · exact Or.inl h
  have hne : ∀ other ∈ published, other ≠ temporary := by
    intro other hother heq
    rw [heq] at hother
    exact htemp.not_published hother
  -- the version is neither the temporary directory nor a pointer
  have hid : ((s.setEntry temporary node).setEntry destination
      (some (.item (.link modelId)))).entries modelId = s.entries modelId := by
    have hdest : modelId ≠ destination := by
      rcases hdestination with rfl | rfl <;> decide
    rw [setEntry_of_ne _ _ hdest, setEntry_of_ne _ _ (hne modelId (by decide))]
  have hversion : ∃ version, s.entries modelId = some version := by
    unfold Store.folder at hg
    split at hg
    · next f hentry => exact ⟨_, hentry⟩
    · exact absurd hg (by simp)
  -- the other pointer stays where it is
  have hother : ∀ name, name = "current" ∨ name = "known-good" → name ≠ destination →
      ((s.setEntry temporary node).setEntry destination
        (some (.item (.link modelId)))).entries name = s.entries name := by
    intro name hname hdest
    have hpublished : name ∈ published := by
      rcases hname with rfl | rfl <;> decide
    rw [setEntry_of_ne _ _ hdest, setEntry_of_ne _ _ (hne name hpublished)]
  refine ⟨⟨?_, ?_⟩, ?_, ?_⟩
  · intro node' hnode
    rw [hid] at hnode
    exact hs.version node' hnode
  · intro name hname node' hnode
    rw [hid]
    by_cases hdest : name = destination
    · rw [hdest, setEntry_self] at hnode
      exact ⟨(Option.some.inj hnode).symm, hversion⟩
    · rw [hother name hname hdest] at hnode
      exact hs.pointers name hname node' hnode
  · intro node' hnode
    rw [hid]
    exact hnode
  · intro name hname hchanged
    by_cases hdest : name = destination
    · rw [hdest]
      exact hcall
    · exact absurd (hother name hname hdest) hchanged

/-- **What the contract allows exposes nothing unverified.** -/
theorem published_of_effect {call : Call} {i : ι} {c : Choice} {s t : Store ι} {o : StoreOp}
    {ok : Bool} (hs : Exposed sha256 digest s) (hallowed : Allowed sha256 digest call i s o)
    (h : Effect i c s o ok t) : Published sha256 digest call s t := by
  cases h with
  | unchanged h _ =>
    apply published_of_same hs
    intro name hname
    apply h.2
    intro heq
    rw [heq] at hname
    exact lock_not_published hname
  | lock _ => exact published_of_same hs (fun _ _ => rfl)
  | unlock _ =>
    apply published_of_same hs
    intro name _
    unfold Store.release
    split <;> rfl
  | change ho _ _ =>
    exact published_of_temporary hs (folderChange_allowed sha256 digest ho hallowed).2 _
  | mkdtemp start _ =>
    apply published_of_temporary hs
    -- a name with either of the two prefixes of a temporary directory
    rcases hallowed.2 with rfl | rfl
    · exact ⟨c.suffix, Or.inl rfl⟩
    · exact ⟨c.suffix, Or.inr rfl⟩
  | rmdir folder => exact published_of_temporary hs hallowed.2 none
  | rename hf hfree =>
    -- the folder that is renamed is the one that was verified
    obtain ⟨_, hstage, rfl, f', hf', hverified⟩ := hallowed
    rw [hf] at hf'
    rw [Option.some.inj hf'] at *
    exact published_of_rename hs hstage hverified hfree
  | replace hf hitem =>
    -- the link that replaces `current` names a version that is there
    obtain ⟨_, htemp, hcall, ⟨f', hf', hlink⟩, g, hg⟩ := hallowed
    rw [hf] at hf'
    rw [← Option.some.inj hf', hitem] at hlink
    rw [Option.some.inj hlink]
    exact published_of_replace hs htemp _ hcall hg

/-! ## Runs

Over all interleavings, failures and kills. The contract is an invariant of every run, and with it
every store that is reached exposes verified versions only. -/

abbrev StoreConfig (ι : Type) : Type :=
  Parallel.Config ι Call ModelError StoreOp StoreOp.Ans String (Store ι)

/-- A step keeps the contract. -/
theorem safe_step {c w : StoreConfig ι} {e : Parallel.Event ι Call Choice}
    (hs : (storeSystem sha256 digest ι).step e c = some w)
    (h : Parallel.Safe (contract sha256 digest) machine c) :
    Parallel.Safe (contract sha256 digest) machine w :=
  Parallel.safe_step (contract_sound sha256 digest)
    (fun _ _ s _ => @keepsContract_serve _ _ _ sha256 digest _ _ s) h hs

/-- A step of the system: what is exposed stays so, the version stays what it is, and a pointer
changes on account of a call that may replace it. -/
theorem step_published {c w : StoreConfig ι} {e : Parallel.Event ι Call Choice}
    (hsafe : Parallel.Safe (contract sha256 digest) machine c)
    (hs : Exposed sha256 digest c.state) (h : (storeSystem sha256 digest ι).step e c = some w) :
    Exposed sha256 digest w.state ∧
    (∀ node, c.state.entries modelId = some node → w.state.entries modelId = some node) ∧
    ∀ name, name = "current" ∨ name = "known-good" →
      w.state.entries name ≠ c.state.entries name →
      ∃ i choice call p, e = .op i choice ∧ c.procs i = some (call, p) ∧
        call.pointer = some name := by
  have unseen : w.state.entries = c.state.entries →
      Published sha256 digest .rollback c.state w.state := by
    intro heq
    exact published_of_same hs (fun name _ => congrFun heq name)
  rcases hsafe.step_cases h with hsame | ⟨i, call, o, choice, r, k, rfl, hp, hallowed, hexec⟩ |
    ⟨i, -, hleave⟩
  -- the step changes no entry
  · have heq : w.state.entries = c.state.entries := by rw [hsame]
    have hpub := unseen heq
    exact ⟨hpub.exposed, hpub.kept, fun name _ hne => absurd (congrFun heq name) hne⟩
  -- an operation that the contract allows
  · have hpub : Published sha256 digest call c.state w.state :=
      published_of_effect hs hallowed (exec_effect hexec)
    refine ⟨hpub.exposed, hpub.kept, fun name hname hne => ?_⟩
    exact ⟨i, choice, call, .op o k, rfl, hp, hpub.pointers name hname hne⟩
  -- a process that ends gives up the lock and changes no entry
  · have heq : w.state.entries = c.state.entries := by
      rw [hleave]
      show (c.state.release i).entries = c.state.entries
      unfold Store.release
      split <;> rfl
    have hpub := unseen heq
    exact ⟨hpub.exposed, hpub.kept, fun name _ hne => absurd (congrFun heq name) hne⟩

/-- The invariant of every run: the processes keep their contracts, and the store exposes nothing
unverified. -/
theorem run_invariant {as : List (Parallel.Event ι Call Choice)} {c : StoreConfig ι}
    (run : (storeSystem sha256 digest ι).Run (fun _ _ => True)
      (storeSystem sha256 digest ι).init as c) :
    Parallel.Safe (contract sha256 digest) machine c ∧ Exposed sha256 digest c.state := by
  apply run.invariant
  · constructor
    · intro i
      show (none : Option ι) ≠ some i
      simp
    · exact ⟨fun _ h => absurd h (by simp [storeSystem, Parallel.system]),
        fun _ _ _ h => absurd h (by simp [storeSystem, Parallel.system])⟩
  · intro t e w hinv _ h
    obtain ⟨hsafe, hexposed⟩ := hinv
    exact ⟨safe_step h hsafe, (step_published hsafe hexposed h).1⟩

/-- **The store only ever exposes complete, verified models.** After any run from an empty store:
the version and the pointers are as `Exposed` says, the version is never altered afterwards, and
each pointer is changed only by the calls it belongs to. -/
theorem exposes_verified {as : List (Parallel.Event ι Call Choice)} {c : StoreConfig ι}
    (run : (storeSystem sha256 digest ι).Run (fun _ _ => True)
      (storeSystem sha256 digest ι).init as c) :
    Exposed sha256 digest c.state ∧
    (∀ bs w, (storeSystem sha256 digest ι).Run (fun _ _ => True) c bs w →
      ∀ node, c.state.entries modelId = some node → w.state.entries modelId = some node) ∧
    ∀ e w, (storeSystem sha256 digest ι).step e c = some w →
      (w.state.entries "known-good" ≠ c.state.entries "known-good" →
        ∃ i choice id p, e = .op i choice ∧ c.procs i = some (.qualify id, p)) ∧
      (w.state.entries "current" ≠ c.state.entries "current" →
        ∃ i choice call p, e = .op i choice ∧ c.procs i = some (call, p) ∧
          ((∃ id, call = .activate id) ∨ call = .rollback)) := by
  obtain ⟨hsafe, hexposed⟩ := run_invariant run
  refine ⟨hexposed, ?_, ?_⟩
  · intro bs w run' node hnode
    -- the invariant carried along the rest of the run, together with the version
    have hrest : Parallel.Safe (contract sha256 digest) machine w ∧ Exposed sha256 digest w.state ∧
        w.state.entries modelId = some node := by
      apply run'.invariant
      · exact ⟨hsafe, hexposed, hnode⟩
      · intro t e w' ⟨hsafe', hexposed', hnode'⟩ _ h
        have hstep := step_published hsafe' hexposed' h
        exact ⟨safe_step h hsafe', hstep.1, hstep.2.1 node hnode'⟩
    exact hrest.2.2
  · intro e w h
    have hpointers := (step_published hsafe hexposed h).2.2
    constructor
    · intro hne
      obtain ⟨i, choice, call, p, he, hp, hcall⟩ := hpointers "known-good" (Or.inr rfl) hne
      rcases Call.pointer_cases hcall with ⟨-, id, rfl⟩ | ⟨hname, -⟩
      · exact ⟨i, choice, id, p, he, hp⟩
      · exact absurd hname (by decide)
    · intro hne
      obtain ⟨i, choice, call, p, he, hp, hcall⟩ := hpointers "current" (Or.inl rfl) hne
      rcases Call.pointer_cases hcall with ⟨hname, -⟩ | ⟨-, hkind⟩
      · exact absurd hname (by decide)
      · exact ⟨i, choice, call, p, he, hp, hkind⟩

end

attribute [local instance] Json.Nesting.default

def fixtureArtifact : List UInt8 :=
  Py.encodeUtf8 "small synthetic HEF fixture\n".toList

def fixtureDigest : String :=
  "f4a874e90a13db4ec1d3a6b081ae0bf8f72b62347881320f31761a80df53fbeb"

def fixtureSha256 (content : List UInt8) : String :=
  if content = fixtureArtifact then fixtureDigest else ""

def fixtureText : List Char :=
  Json.dumps ⟨true, 1, 1, none⟩ (.obj (selected fixtureDigest))

def fixtureStored : List Char :=
  Json.dumps ⟨true, 0, 1, some 2⟩ (.obj (selected fixtureDigest)) ++ ['\n']

def fixtureChoice : Choice where
  content := Py.encodeUtf8 fixtureText
  chunks := [fixtureArtifact]
  suffix := "a"

/-- `checkManifest` with its result on the two texts of the fixture written out, so that a run on
them does not have to read them. -/
def fixtureCheck (content : List UInt8) : Except ModelError (List (PyStr × Json)) :=
  if content = Py.encodeUtf8 fixtureText then .ok (selected fixtureDigest)
  else if content = Py.encodeUtf8 fixtureStored then .ok (selected fixtureDigest)
  else checkManifest fixtureDigest content

/-- The manifest of the fixture passes, whatever text it is read from. -/
theorem checkManifest_fixture {text : List Char}
    (h : Json.loads text = .ok (.obj (selected fixtureDigest))) :
    checkManifest fixtureDigest (Py.encodeUtf8 text) = .ok (selected fixtureDigest) := by
  have hkeys : sameKeys (selected fixtureDigest) (selected fixtureDigest) = true := by
    decide
  have hfields : checkFields (selected fixtureDigest) (selected fixtureDigest) = .ok () := by
    decide
  unfold checkManifest
  rw [Py.decodeUtf8_encodeUtf8]
  dsimp only
  rw [h]
  dsimp only
  rw [if_pos hkeys, hfields]
  rfl

/-- The check of the fixture is `checkManifest` for its digest. -/
theorem fixtureCheck_eq : checkManifest fixtureDigest = fixtureCheck := by
  funext content
  unfold fixtureCheck
  split
  · next h =>
    rw [h]
    exact checkManifest_fixture (Json.loads_dumps _ _ (plain_selected _) (by decide))
  · split
    · next h =>
      rw [h]
      apply checkManifest_fixture
      exact Json.loads_dumps_blank _ _ (plain_selected _).written (by decide)
        (by simp [Json.isBlank])
    · rfl

def installThenQualify : List (Parallel.Event Nat Call Choice) :=
  .start 0 (.install "manifest.json" "source") :: List.replicate 29 (.op 0 fixtureChoice) ++
    [.leave 0, .start 1 (.qualify modelId)] ++ List.replicate 15 (.op 1 fixtureChoice)

/-- Two calls on the empty store install the version and lead `known-good` to it. -/
theorem exec_fixture : ∃ c : StoreConfig Nat,
    (storeSystem fixtureSha256 fixtureDigest Nat).exec (fun _ _ => true) installThenQualify
      (storeSystem fixtureSha256 fixtureDigest Nat).init = some c ∧
    (c.state.entries "known-good", (c.state.entries modelId).isSome)
      = (some (.item (.link modelId)), true) := by
  apply Option.map_eq_some_iff.mp
  unfold storeSystem serve installModel activateModel qualifyModel rollbackModel replacePointer
    installedVersion publish validateModel loadManifest
  rw [fixtureCheck_eq]
  decide +kernel

theorem exposes_verified_fixture :
    ∃ c : StoreConfig Nat, Exposed fixtureSha256 fixtureDigest c.state ∧
      c.state.entries "known-good" = some (.item (.link modelId)) ∧
      (c.state.entries modelId).isSome = true := by
  obtain ⟨c, hexec, hstate⟩ := exec_fixture
  have run := (System.run_of_exec hexec).mono (fun _ _ _ => trivial)
  exact ⟨c, (exposes_verified run).1, (Prod.mk.inj hstate).1, (Prod.mk.inj hstate).2⟩

end ModelStore

end Rave
