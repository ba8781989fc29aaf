import RaveDeployment.Storage.Record

/-!
# A second expansion

A run of `expand_root` that follows a completed one and is told the same by every command finds the
partition grown, changes nothing and writes the same record.

The answers of a completed run are split as the statements are grouped (`surveyTold_of_answered`,
`growthTold_of_answered`), and the second run is put together from parts of the first
(`again_of_parts`).
-/

namespace Rave

namespace Storage

/-! ## What is asked

Which operations the two runs issue, and that what they issue does not depend on the disk. -/

/-- A run of `growpart`. -/
def IsGrowpart (o : GrowOp) : Prop :=
  ∃ arguments, o = .run (GROWPART :: arguments)

/-- Writing the completion runs no `growpart`. -/
theorem not_isGrowpart_writingOps (plan : GrowthPlan) (F : Int) :
    ∀ o ∈ writingOps plan F, ¬ IsGrowpart o := by
  intro o ho hgrow
  obtain ⟨arguments, rfl⟩ := hgrow
  simp [writingOps] at ho

/-- The operations that only look, or act on the device without growing the partition. -/
def Inspects (o : GrowOp) : Prop :=
  Observes o ∧ ¬ IsGrowpart o

instance : Looks Inspects where
  resolve path strict := ⟨trivial, fun h => by
    obtain ⟨arguments, h⟩ := h
    cases h⟩
  run program arguments h := ⟨trivial, fun hgrow => by
    obtain ⟨rest, hgrow⟩ := hgrow
    cases hgrow
    exact h rfl⟩

theorem exec_snd {c : Answer} {o : GrowOp} (ho : Observes o) (s : Disk) : (exec c o s).2 = s :=
  exec_observes (c := c) (r := (exec c o s).1) ho rfl

theorem exec_blind {c : Answer} {o : GrowOp} (ho : Observes o) (s s' : Disk) :
    (exec c o s).1 = (exec c o s').1 := by
  unfold exec
  split
  · rfl
  · cases o <;> first | rfl | exact absurd ho (by simp [Observes])

/-- On the answers `cs` the program returns `a` without growing the partition, whatever the disk
is. -/
def Tells {α : Type} (p : GrowM α) (cs : List Answer) (a : α) : Prop :=
  ∃ asked, (∀ o ∈ asked, ¬ IsGrowpart o) ∧ ∀ s, p.Answered exec s cs asked a s

section

variable {α β : Type} {s t : Disk} {cs ds : List Answer} {asked : List GrowOp}

theorem Tells.ret (a : α) : Tells (.ret a) [] a :=
  ⟨[], List.forall_mem_nil _, fun s => .ret a s⟩

/-- The answers of two parts, one after the other. -/
theorem Tells.bind {p : GrowM α} {f : α → GrowM β} {a : α} {b : β} (hp : Tells p cs a)
    (hf : Tells (f a) ds b) : Tells (p.bind f) (cs ++ ds) b := by
  obtain ⟨asked, hasked, hp⟩ := hp
  obtain ⟨more, hmore, hf⟩ := hf
  exact ⟨asked ++ more, List.forall_mem_append.mpr ⟨hasked, hmore⟩, fun s => (hp s).bind (hf s)⟩

/-- A program that only looks leaves the disk, and can be told the same again. -/
theorem tells_of_answered {p : GrowM α} {Q : α → Prop} {a : α} (hp : Prog.Within Inspects p Q)
    (h : p.Answered exec s cs asked a t) : t = s ∧ Q a ∧ Tells p cs a := by
  obtain ⟨hQ, hasked⟩ := h.within hp
  have hreplay : t = s ∧ ∀ s', p.Answered exec s' cs asked a s' := by
    refine Prog.Answered.replay ?_ ?_ h hasked
    · intro c o s ho
      exact exec_snd ho.1 s
    · intro c o s s' ho
      exact exec_blind ho.1 s s'
  obtain ⟨ht, hagain⟩ := hreplay
  exact ⟨ht, hQ, asked, fun o ho => (hasked o ho).2, hagain⟩

/-- The first part of a run, where it only looks: its answers, and the rest of the run. -/
theorem told_bind {p : GrowM α} {f : α → GrowM β} {Q : α → Prop} {b : β} {n : Nat}
    (hp : Prog.Within Inspects p Q) (hn : Prog.Asks exec p n)
    (h : (p.bind f).Answered exec s cs asked b t) :
    ∃ (part : Answers n) (a : α) (rest : List Answer) (more : List GrowOp), cs = part.val ++ rest ∧
      Q a ∧ Tells p part.val a ∧ (f a).Answered exec s rest more b t := by
  obtain ⟨a, w, part, rest, asked, more, rfl, -, hpart, hrest⟩ := Prog.answered_bind h
  obtain ⟨rfl, hQ, htells⟩ := tells_of_answered hp hpart
  exact ⟨⟨part, hn _ _ _ _ _ hpart⟩, a, rest, more, rfl, hQ, htells, hrest⟩

end

/-! ## The answers of a run

A first run that returned has been told everything that a second one asks. -/

/-- What the statements up to the growth are answered. -/
structure SurveyAnswers where
  /-- `findmnt` and the resolution of its source. -/
  source : Answers 2
  root : Answers 3
  /-- `lsblk`, twice, and `blockdev`. -/
  device : Answers 3
  /-- `sfdisk` and the resolutions of ROOT and of the two nodes. -/
  table : Answers 4
  disks : Answers 2
  boot : Answers 3

/-- What the statements from the growth on are answered, up to `write_completion`. -/
structure GrowthAnswers where
  /-- `growpart` and `udevadm`, where the partition is grown. -/
  growth : Option (Answers 2)
  table : Answers 4
  rootGrown : Answers 3
  bootGrown : Answers 3
  resize : Answers 1
  root : Answers 3
  boot : Answers 3
  filesystem : Answers 1

/-- What the statements of `expand_root` are answered. -/
structure RunAnswers where
  removal : Answers 1
  surveyed : SurveyAnswers
  grown : GrowthAnswers
  writing : Answers 12

def SurveyAnswers.toList (o : SurveyAnswers) : List Answer :=
  o.source.val ++ (o.root.val ++ (o.device.val ++ (o.table.val ++ (o.disks.val ++ o.boot.val))))

def GrowthAnswers.toList (o : GrowthAnswers) : List Answer :=
  o.growth.elim [] Subtype.val ++ (o.table.val ++ (o.rootGrown.val ++ (o.bootGrown.val ++
    (o.resize.val ++ (o.root.val ++ (o.boot.val ++ o.filesystem.val))))))

def RunAnswers.toList (o : RunAnswers) : List Answer :=
  o.removal.val ++ ((o.surveyed.toList ++ o.grown.toList) ++ o.writing.val)

/-- The answers of a run that follows: every query returns what it returned last, and what changes
something is answered anew. -/
def RunAnswers.following (first : RunAnswers) (removal resize : Answers 1) (writing : Answers 12) :
    RunAnswers where
  removal := removal
  surveyed := { first.surveyed with
    root := first.grown.root
    table := first.grown.table
    boot := first.grown.boot }
  grown := { first.grown with
    growth := none
    rootGrown := first.grown.root
    bootGrown := first.grown.boot
    resize := resize }
  writing := writing

/-! ## The first run

Its answers, group by group, and that all but the last group leave the disk alone. -/

section

variable [PyUnicode] [PyRepr] {s t : Disk} {cs : List Answer} {asked : List GrowOp} {v : Survey}
  {D F : Int} {after : GrowthPlan}

omit [PyUnicode] [PyRepr] in
theorem within_locateRoot : Prog.Within Inspects locateRoot fun _ => True := by
  apply Prog.within_bind (within_command (by decide))
  intro source _
  exact within_resolve _ _

omit [PyRepr] in
theorem within_locateDevice (rootPartition : String) :
    Prog.Within Inspects (locateDevice rootPartition) fun _ => True := by
  apply Prog.within_bind (within_command (by decide))
  intro parentName _
  apply Prog.within_bind (within_command (by decide))
  intro partitionNumber _
  apply Prog.within_bind within_require
  intro _ _
  apply Prog.within_bind within_require
  intro _ _
  apply Prog.within_bind within_require
  intro _ _
  apply Prog.within_bind (within_command (by decide))
  intro size _
  apply Prog.within_bind (within_toInt _)
  intro deviceBytes _
  exact Prog.within_ret trivial

omit [PyUnicode] in
theorem within_readTable (disk rootPartition : String) (D : Int) :
    Prog.Within Inspects (readTable disk rootPartition D) fun _ => True := by
  apply Prog.within_bind (within_command (by decide))
  intro table _
  exact (within_analyzePartitionTable _ _ _).mono fun _ _ => trivial

omit [PyUnicode] [PyRepr] in
theorem within_assertTableDisk (plan : GrowthPlan) (disk : String) :
    Prog.Within Inspects (assertTableDisk plan disk) fun _ => True := by
  apply Prog.within_bind (within_resolve _ _)
  intro tableDisk _
  apply Prog.within_bind (within_resolve _ _)
  intro bootDisk _
  exact within_require.mono fun _ _ => trivial

omit [PyUnicode] [PyRepr] in
/-- Growing the file system changes nothing that the model keeps. -/
theorem within_resizeFilesystem (rootPartition : String) :
    Prog.Within Inspects (resizeFilesystem rootPartition) fun _ => True := by
  apply Prog.within_bind (within_command (by decide))
  intro _ _
  exact Prog.within_ret trivial

omit [PyRepr] in
theorem within_filledFilesystem (rootPartition : String) (plan : GrowthPlan) :
    Prog.Within Inspects (filledFilesystem rootPartition plan) fun _ => True := by
  apply Prog.within_bind (within_filesystemSizeBytes _)
  intro filesystemBytes _
  apply Prog.within_bind (within_verifyFilesystemSize _ _)
  intro _ _
  exact Prog.within_ret trivial

/-- What the statements up to the growth found. -/
structure SurveyTold (o : SurveyAnswers) (v : Survey) : Prop where
  source : Tells locateRoot o.source.val v.rootPartition
  root : Tells (assertRootIdentity v.rootPartition) o.root.val ()
  device : Tells (locateDevice v.rootPartition) o.device.val
    (v.disk, v.partitionNumber, v.deviceBytes)
  table : Tells (readTable v.disk v.rootPartition v.deviceBytes) o.table.val v.before
  disks : Tells (assertTableDisk v.before v.disk) o.disks.val ()
  boot : Tells (assertBootIdentity v.before) o.boot.val ()

/-- What the statements from the growth on found. -/
structure GrowthTold (o : GrowthAnswers) (v : Survey) (after : GrowthPlan) (F : Int) : Prop where
  table : Tells (readTable v.disk v.rootPartition v.deviceBytes) o.table.val after
  disk_eq : after.disk = v.before.disk
  trailing_le : after.trailingBytes ≤ MAX_TRAILING_BYTES
  root : Tells (assertRootIdentity v.rootPartition) o.root.val ()
  boot : Tells (assertBootIdentity after) o.boot.val ()
  filesystem : Tells (filledFilesystem v.rootPartition after) o.filesystem.val F

/-- A survey that returned has been told what it returned. -/
theorem surveyTold_of_answered (h : survey.Answered exec s cs asked v t) :
    t = s ∧ ∃ o : SurveyAnswers, cs = o.toList ∧ SurveyTold o v := by
  obtain ⟨source, root, cs, ops, rfl, -, hsource, h⟩ :=
    told_bind within_locateRoot asks_locateRoot h
  obtain ⟨rootFound, _, cs, ops, rfl, -, hroot, h⟩ :=
    told_bind (within_assertRootIdentity root) (asks_assertRootIdentity root) h
  obtain ⟨device, found, cs, ops, rfl, -, hdevice, h⟩ :=
    told_bind (within_locateDevice root) (asks_locateDevice root) h
  obtain ⟨table, before, cs, ops, rfl, -, htable, h⟩ :=
    told_bind (within_readTable _ _ _) (asks_readTable _ _ _) h
  obtain ⟨disks, _, cs, ops, rfl, -, hdisks, h⟩ :=
    told_bind (within_assertTableDisk _ _) (asks_assertTableDisk _ _) h
  obtain ⟨boot, _, cs, ops, rfl, -, hboot, h⟩ :=
    told_bind (within_assertBootIdentity _) (asks_assertBootIdentity _) h
  obtain ⟨rfl, -, rfl, rfl⟩ := Prog.answered_ret h
  refine ⟨rfl, ⟨source, rootFound, device, table, disks, boot⟩, ?_,
    hsource, hroot, hdevice, htable, hdisks, hboot⟩
  rw [List.append_nil]
  rfl

omit [PyUnicode] [PyRepr] in
/-- The disk of a verified table is that of the first one. -/
theorem disk_eq_of_verified {before : GrowthPlan}
    (h : Tells (verifyExpandedGeometry before after) cs ()) : after.disk = before.disk := by
  obtain ⟨asked, -, h⟩ := h
  obtain ⟨_, _, _, _, -, hdisk, -⟩ := told_bind within_require asks_require (h ⟨none, none, []⟩)
  exact hdisk

omit [PyUnicode] [PyRepr] in
/-- Growing the partition asks two things, or none where nothing has to grow. -/
theorem growth_of_answered {before : GrowthPlan} {disk partitionNumber : String}
    (h : (growPartition before disk partitionNumber).Answered exec s cs asked () t) :
    t = s ∧ ∃ growth : Option (Answers 2), cs = growth.elim [] Subtype.val := by
  have hobserves := (h.within (within_growPartition _ _ _)).2
  have hkept : t = s := by
    refine (Prog.Answered.replay ?_ ?_ h hobserves).1
    · intro c o s ho
      exact exec_snd ho s
    · intro c o s s' ho
      exact exec_blind ho s s'
  refine ⟨hkept, ?_⟩
  have hlength := asks_growPartition _ _ _ _ _ _ _ _ h
  cases hgrow : before.needsPartitionGrowth
  · rw [hgrow] at hlength
    exact ⟨none, List.eq_nil_of_length_eq_zero hlength⟩
  · rw [hgrow] at hlength
    exact ⟨some ⟨cs, hlength⟩, rfl⟩

/-- What the rest of a first run has been told. -/
theorem growthTold_of_answered (h : (growSurveyed v).Answered exec s cs asked (D, after, F) t) :
    t = s ∧ D = v.deviceBytes ∧ ∃ o : GrowthAnswers, cs = o.toList ∧ GrowthTold o v after F := by
  obtain ⟨_, w, grow, cs, _, ops, hcs, -, hgrow, hrest⟩ := Prog.answered_bind h
  obtain ⟨rfl, growth, hgrowth⟩ := growth_of_answered hgrow
  obtain ⟨table, plan, cs, ops, rfl, -, htable, h⟩ :=
    told_bind (within_readTable _ _ _) (asks_readTable _ _ _) hrest
  obtain ⟨none, _, cs, ops, rfl, hexpanded, hverified, h⟩ :=
    told_bind (within_verifyExpandedGeometry _ _) (asks_verifyExpandedGeometry _ _) h
  obtain ⟨rootGrown, _, cs, ops, rfl, -, -, h⟩ :=
    told_bind (within_assertRootIdentity _) (asks_assertRootIdentity _) h
  obtain ⟨bootGrown, _, cs, ops, rfl, -, -, h⟩ :=
    told_bind (within_assertBootIdentity _) (asks_assertBootIdentity _) h
  obtain ⟨resize, _, cs, ops, rfl, -, -, h⟩ :=
    told_bind (within_resizeFilesystem _) (asks_resizeFilesystem _) h
  obtain ⟨root, _, cs, ops, rfl, -, hroot, h⟩ :=
    told_bind (within_assertRootIdentity _) (asks_assertRootIdentity _) h
  obtain ⟨boot, _, cs, ops, rfl, -, hboot, h⟩ :=
    told_bind (within_assertBootIdentity _) (asks_assertBootIdentity _) h
  obtain ⟨filesystem, filled, cs, ops, rfl, -, hfilesystem, h⟩ :=
    told_bind (within_filledFilesystem _ _) (asks_filledFilesystem _ _) h
  obtain ⟨rfl, -, heq, rfl⟩ := Prog.answered_ret h
  obtain ⟨rfl, rfl, rfl⟩ : v.deviceBytes = D ∧ plan = after ∧ filled = F := by
    simpa using heq
  refine ⟨rfl, rfl, ⟨growth, table, rootGrown, bootGrown, resize, root, boot, filesystem⟩, ?_,
    htable, disk_eq_of_verified hverified, hexpanded.trailing_le, hroot, hboot, hfilesystem⟩
  -- the comparison of the plans asks nothing
  rw [hcs, hgrowth, List.eq_nil_of_length_eq_zero none.property, List.nil_append, List.append_nil]
  rfl

/-! ## The second run

The answers of the first one that is completed, asked again. Nothing has to grow, so `growpart` is
not run. -/

omit [PyUnicode] [PyRepr] in
/-- Where nothing has to grow, nothing is asked. -/
theorem growPartition_of_le {plan : GrowthPlan} {disk partitionNumber : String}
    (h : plan.trailingBytes ≤ MAX_TRAILING_BYTES) :
    growPartition plan disk partitionNumber = .ret () := by
  have hno : plan.needsPartitionGrowth = false := by
    simpa [GrowthPlan.needsPartitionGrowth] using h
  rw [growPartition, hno]
  rfl

omit [PyUnicode] [PyRepr] in
/-- A plan that needs no growth is verified against itself. -/
theorem verifyExpandedGeometry_self {plan : GrowthPlan}
    (h : plan.trailingBytes ≤ MAX_TRAILING_BYTES) : verifyExpandedGeometry plan plan = .ret () := by
  simp only [verifyExpandedGeometry, require, Prog.bind_eq, if_true, le_refl, h, Prog.ret_bind]

omit [PyUnicode] [PyRepr] in
/-- Growing the file system is told that it worked. -/
theorem resize_tells {resize : Answers 1} (rootPartition : String)
    (hresize : ∀ a ∈ resize.val, a.fails = none ∧ a.process.returncode = 0) :
    Tells (resizeFilesystem rootPartition) resize.val () := by
  obtain ⟨answer, hanswer⟩ := List.length_eq_one_iff.mp resize.property
  obtain ⟨hfails, hcode⟩ := hresize answer (by rw [hanswer]; exact List.mem_singleton_self _)
  rw [hanswer]
  refine ⟨[.run [RESIZE2FS, rootPartition]], ?_, fun s => .op ?_⟩
  · intro o ho hgrow
    rw [List.mem_singleton.mp ho] at hgrow
    obtain ⟨arguments, hgrow⟩ := hgrow
    exact absurd (List.cons.inj (GrowOp.run.inj hgrow)).1 (by decide)
  · have hexec : exec answer (.run [RESIZE2FS, rootPartition]) s = (.ok answer.process, s) := by
      rw [exec, hfails]
      rfl
    rw [hexec]
    show Prog.Answered exec
      (Prog.bind (if answer.process.returncode ≠ 0 then _ else _) _) s [] [] () s
    rw [if_neg (not_not.mpr hcode)]
    exact .ret () s

/-- The groups of a first run, put together again: the partition is not grown, and the plan and the
file system are those of the first run. -/
theorem tells_again {o : SurveyAnswers} {g : GrowthAnswers} {resize : Answers 1}
    (hsurvey : SurveyTold o v) (hgrowth : GrowthTold g v after F)
    (hresize : ∀ a ∈ resize.val, a.fails = none ∧ a.process.returncode = 0) :
    Tells growAndVerify
      (SurveyAnswers.toList { o with root := g.root, table := g.table, boot := g.boot } ++
        GrowthAnswers.toList { g with
          growth := none, rootGrown := g.root, bootGrown := g.boot, resize := resize })
      (v.deviceBytes, after, F) := by
  have hdisks : Tells (assertTableDisk after v.disk) o.disks.val () := by
    have h := hsurvey.disks
    rwa [assertTableDisk, ← hgrowth.disk_eq] at h
  -- no space is left behind the partition, so the second run does not grow it
  have hgrow : Tells (growPartition after v.disk v.partitionNumber) [] () := by
    rw [growPartition_of_le hgrowth.trailing_le]
    exact Tells.ret ()
  -- the plan of the second run is compared with itself
  have hverified : Tells (verifyExpandedGeometry after after) [] () := by
    rw [verifyExpandedGeometry_self hgrowth.trailing_le]
    exact Tells.ret ()
  have hresized := resize_tells v.rootPartition hresize
  have hfirst : Tells survey (o.source.val ++ (g.root.val ++ (o.device.val ++ (g.table.val ++
      (o.disks.val ++ (g.boot.val ++ [])))))) { v with before := after } := by
    apply Tells.bind hsurvey.source
    apply Tells.bind hgrowth.root
    apply Tells.bind hsurvey.device
    apply Tells.bind hgrowth.table
    apply Tells.bind hdisks
    apply Tells.bind hgrowth.boot
    exact Tells.ret _
  have hrest : Tells (growSurveyed { v with before := after }) ([] ++ (g.table.val ++ ([] ++
      (g.root.val ++ (g.boot.val ++ (resize.val ++ (g.root.val ++ (g.boot.val ++
        (g.filesystem.val ++ []))))))))) (v.deviceBytes, after, F) := by
    apply Tells.bind hgrow
    apply Tells.bind hgrowth.table
    apply Tells.bind hverified
    apply Tells.bind hgrowth.root
    apply Tells.bind hgrowth.boot
    apply Tells.bind hresized
    apply Tells.bind hgrowth.root
    apply Tells.bind hgrowth.boot
    apply Tells.bind hgrowth.filesystem
    exact Tells.ret _
  rw [growAndVerify_eq]
  simp only [List.append_nil, List.nil_append] at hfirst hrest
  exact hfirst.bind hrest

/-! ## Idempotence

Both runs put together, with the record that they leave. -/

/-- The parts of a completed run. -/
theorem parts_of_answered (h : expandRoot.Answered exec s cs asked () t) :
    ∃ (o : RunAnswers) (v : Survey) (after : GrowthPlan) (F : Int), cs = o.toList ∧
      SurveyTold o.surveyed v ∧ GrowthTold o.grown v after F ∧
        t.record = some (recordText after F) := by
  obtain ⟨_, cleared, removal, cs, _, _, rfl, -, hremoval, h⟩ := Prog.answered_bind h
  obtain ⟨⟨D, after, F⟩, checked, grown, writing, _, _, rfl, -, hgrown, hwriting⟩ :=
    Prog.answered_bind h
  rw [growAndVerify_eq] at hgrown
  obtain ⟨v, w, first, rest, _, _, rfl, -, hsurveyed, hgrew⟩ := Prog.answered_bind hgrown
  obtain ⟨rfl, o, rfl, hsurvey⟩ := surveyTold_of_answered hsurveyed
  obtain ⟨rfl, -, g, rfl, hgrowth⟩ := growthTold_of_answered hgrew
  have hrecord := record_of_writeCompletion (record_of_unlink hremoval) hwriting
  exact ⟨⟨⟨removal, asks_perform _ _ _ _ _ _ hremoval⟩, o, g,
    ⟨writing, asks_writeCompletion _ _ _ _ _ _ _ hwriting⟩⟩, v, after, F, rfl, hsurvey, hgrowth,
    hrecord⟩

/-- A run that follows, from any disk. -/
theorem again_of_parts {o : RunAnswers} {removal resize : Answers 1} {writing : Answers 12}
    (hsurvey : SurveyTold o.surveyed v) (hgrowth : GrowthTold o.grown v after F)
    (hremoval : ∀ a ∈ removal.val, a.fails = none)
    (hresize : ∀ a ∈ resize.val, a.fails = none ∧ a.process.returncode = 0)
    (hwriting : ∀ a ∈ writing.val, a.fails = none) (s : Disk) :
    ∃ asked t, expandRoot.Answered exec s (o.following removal resize writing).toList asked () t ∧
      (∀ op ∈ asked, ¬ IsGrowpart op) ∧ t.record = some (recordText after F) := by
  obtain ⟨cleared, hunlink⟩ := exists_unlink hremoval s
  obtain ⟨asked, hasked, hgrown⟩ := tells_again hsurvey hgrowth hresize
  obtain ⟨t, hwritten⟩ := exists_writeCompletion after F hwriting cleared
  refine ⟨_, t, hunlink.bind (f := fun _ => growRoot) ((hgrown cleared).bind hwritten), ?_,
    record_of_writeCompletion (record_of_unlink hunlink) hwritten⟩
  refine List.forall_mem_append.mpr ⟨?_, List.forall_mem_append.mpr ⟨hasked, ?_⟩⟩
  · intro op hop hgrowpart
    obtain ⟨arguments, rfl⟩ := hgrowpart
    simp at hop
  · exact not_isGrowpart_writingOps after F

theorem within_survey : Prog.Within Inspects survey fun _ => True := by
  apply Prog.within_bind within_locateRoot
  intro rootPartition _
  apply Prog.within_bind (within_assertRootIdentity _)
  intro _ _
  apply Prog.within_bind (within_locateDevice _)
  intro device _
  apply Prog.within_bind (within_readTable _ _ _)
  intro before _
  apply Prog.within_bind (within_assertTableDisk _ _)
  intro _ _
  apply Prog.within_bind (within_assertBootIdentity _)
  intro _ _
  exact Prog.within_ret trivial

/-- Where the capacity behind ROOT is allowed, the rest of a run only looks. -/
theorem within_growSurveyed (h : v.before.trailingBytes ≤ MAX_TRAILING_BYTES) :
    Prog.Within Inspects (growSurveyed v) fun _ => True := by
  unfold growSurveyed
  rw [growPartition_of_le h]
  apply Prog.within_bind (within_readTable _ _ _)
  intro after _
  apply Prog.within_bind (within_verifyExpandedGeometry _ _)
  intro _ _
  apply Prog.within_bind (within_assertRootIdentity _)
  intro _ _
  apply Prog.within_bind (within_assertBootIdentity _)
  intro _ _
  apply Prog.within_bind (within_resizeFilesystem _)
  intro _ _
  apply Prog.within_bind (within_assertRootIdentity _)
  intro _ _
  apply Prog.within_bind (within_assertBootIdentity _)
  intro _ _
  apply Prog.within_bind (within_filledFilesystem _ _)
  intro filesystemBytes _
  exact Prog.within_ret trivial

omit [PyUnicode] [PyRepr] in
/-- Writing the completion issues no command. -/
theorem not_growpart_of_writing {plan : GrowthPlan} {op : GrowOp} {k : op.Ans → GrowM Unit}
    (h : (writeCompletion plan F).Reaches surroundings s (.op op k) t) : ¬ IsGrowpart op := by
  intro hop
  obtain ⟨arguments, rfl⟩ := hop
  rcases Prog.reaches_op_bind h with ⟨_, htemporary⟩ | ⟨_, w, -, hpublish⟩
  · exact (within_writeTemporary (fun _ ho => ho) plan F).reaches_op htemporary
  · rcases Prog.reaches_op_bind hpublish with ⟨_, hreplace⟩ | ⟨_, w', -, hsync⟩
    · have hwithin : Prog.Within (· = .replace) (perform .replace) fun _ => True :=
        within_perform rfl
      exact GrowOp.noConfusion (hwithin.reaches_op hreplace)
    · rcases within_syncDirectory.reaches_op hsync with h | h | h
      · cases h
      · cases h
      · cases h

/-- `growpart` is issued only where more than the allowed capacity was found behind ROOT. -/
theorem trailing_of_growpart {op : GrowOp} {k : op.Ans → GrowM Unit} (hop : IsGrowpart op)
    (h : expandRoot.Reaches surroundings s (.op op k) t) :
    ∃ cleared v found, survey.Runs surroundings cleared (.ok v) found ∧
      (∃ k', (growSurveyed v).Reaches surroundings found (.op op k') t) ∧
        MAX_TRAILING_BYTES < v.before.trailingBytes := by
  rcases Prog.reaches_op_bind h with ⟨_, hunlink⟩ | ⟨_, cleared, -, hgrowRoot⟩
  · have hwithin : Prog.Within (· = .unlink) (perform .unlink) fun _ => True := within_perform rfl
    obtain ⟨arguments, rfl⟩ := hop
    exact absurd (hwithin.reaches_op hunlink) (by simp)
  rcases Prog.reaches_op_bind hgrowRoot with ⟨_, hgrown⟩ | ⟨_, w, -, hwriting⟩
  · rw [growAndVerify_eq] at hgrown
    rcases Prog.reaches_op_bind hgrown with ⟨_, hsurvey⟩ | ⟨v, found, hrun, hgrow⟩
    · exact absurd hop (within_survey.reaches_op hsurvey).2
    · refine ⟨cleared, v, found, hrun, ⟨_, hgrow⟩, ?_⟩
      by_contra hle
      exact ((within_growSurveyed (Int.not_lt.mp hle)).reaches_op hgrow).2 hop
  · exact absurd hop (not_growpart_of_writing hwriting)

/-- **A completed expansion is not repeated.** A run that follows it, every query answered as it
was last and every change made, completes, leaves the partition table alone and writes the same
record. No run grows the partition unless it found more than the allowed capacity behind ROOT, and
a table that needs no growth passes its own verification. -/
theorem expandRoot_idempotent :
    (∀ {s t : Disk} {answers : List Answer} {asked : List GrowOp},
      expandRoot.Answered exec s answers asked () t →
        ∃ first : RunAnswers, answers = first.toList ∧ ∀ (again : Disk) (removal resize : Answers 1)
          (writing : Answers 12), (∀ a ∈ removal.val, a.fails = none) →
          (∀ a ∈ resize.val, a.fails = none ∧ a.process.returncode = 0) →
          (∀ a ∈ writing.val, a.fails = none) →
            ∃ asked' t', expandRoot.Answered exec again
                (first.following removal resize writing).toList asked' () t' ∧
              (∀ op ∈ asked', ¬ IsGrowpart op) ∧ t.record.isSome ∧ t'.record = t.record) ∧
    (∀ {s t : Disk} {op : GrowOp} {k : op.Ans → GrowM Unit}, IsGrowpart op →
      expandRoot.Reaches surroundings s (.op op k) t →
        ∃ cleared v found, survey.Runs surroundings cleared (.ok v) found ∧
          (∃ k', (growSurveyed v).Reaches surroundings found (.op op k') t) ∧
            MAX_TRAILING_BYTES < v.before.trailingBytes) ∧
    ∀ plan : GrowthPlan, plan.needsPartitionGrowth = false →
      verifyExpandedGeometry plan plan = .ret () := by
  refine ⟨fun h => ?_, fun hop h => trailing_of_growpart hop h, fun plan hplan => ?_⟩
  · obtain ⟨first, v, after, F, hanswers, hsurvey, hgrowth, hrecord⟩ := parts_of_answered h
    refine ⟨first, hanswers, fun again removal resize writing hremoval hresize hwriting => ?_⟩
    obtain ⟨asked', t', hrun, hasked, hagain⟩ :=
      again_of_parts hsurvey hgrowth hremoval hresize hwriting again
    exact ⟨asked', t', hrun, hasked, by rw [hrecord]; rfl, hagain.trans hrecord.symm⟩
  · apply verifyExpandedGeometry_self
    simpa [GrowthPlan.needsPartitionGrowth] using hplan

end

/-- The card is grown, and then a second run finds it grown and writes the same record. -/
theorem expandRoot_idempotent_card : ∃ first : RunAnswers, ∃ asked t asked' t',
    (@expandRoot asciiUnicode plainRepr).Answered exec noDisk first.toList asked () t ∧
      .run [GROWPART, "/dev/mmcblk0", "2"] ∈ asked ∧
      (@expandRoot asciiUnicode plainRepr).Answered exec t (first.following ⟨[printed ""], rfl⟩
        ⟨[printed ""], rfl⟩ ⟨List.replicate 12 (printed ""), rfl⟩).toList asked' () t' ∧
      (∀ op ∈ asked', ¬ IsGrowpart op) ∧ t.record.isSome ∧ t'.record = t.record := by
  obtain ⟨t, hgrown, -⟩ := answered_expandRoot_card noDisk
  obtain ⟨first, hanswers, hagain⟩ := (@expandRoot_idempotent asciiUnicode plainRepr).1 hgrown
  obtain ⟨asked', t', hsecond⟩ := hagain t ⟨[printed ""], rfl⟩ ⟨[printed ""], rfl⟩
    ⟨List.replicate 12 (printed ""), rfl⟩ (by simp [printed]) (by simp [printed])
    (by simp [printed])
  rw [hanswers] at hgrown
  have hgrowpart : GrowOp.run [GROWPART, "/dev/mmcblk0", "2"] ∈ cardOps := by
    simp [cardOps, cardGrowthOps]
  exact ⟨first, cardOps, t, asked', t', hgrown, hgrowpart, hsecond⟩

end Storage

end Rave
