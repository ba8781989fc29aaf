import RaveDeployment.Lib.Journal
import RaveDeployment.Storage.Record

/-!
# When `expand_root` acts

Two of the commands change the device: `growpart` and `resize2fs`. `Authorised` is the rule under
which they may be run, on the journal of what has been asked and answered before: the mounted ROOT,
its disk and the BOOT partition have been identified, the partition table is one that was accepted,
and before the file system is grown all of it has been read and checked again. `expandRoot_guarded`:
every run keeps the rule, wherever it is stopped and whatever the commands print.
-/

namespace Rave

namespace Storage

open Prog

abbrev Log : Type :=
  Journal GrowOp.Ans

/-! ## What a journal tells

The facts about the device that a run has asked for, read off what it was answered. -/

def Printed (log : Log) (arguments : List String) (text : String) : Prop :=
  ∃ result : CompletedProcess, (⟨.run arguments, .ok result⟩ : (o : GrowOp) × o.Ans) ∈ log ∧
    result.returncode = 0 ∧ Py.strip result.stdout = text

def Resolved (log : Log) (path : PyStr) (strict : Bool) (target : String) : Prop :=
  (⟨.resolve path strict, .ok target⟩ : (o : GrowOp) × o.Ans) ∈ log

theorem Printed.mono {log log' : Log} {arguments : List String} {text : String}
    (h : Printed log arguments text) (hlog : log ⊆ log') : Printed log' arguments text := by
  obtain ⟨result, hmem, hresult⟩ := h
  exact ⟨result, hlog hmem, hresult⟩

/-- A part that returned has been answered. -/
theorem ran_perform {log : Log} {o : GrowOp} {a : o.Result} (h : Ran log (perform o) a) :
    (⟨o, .ok a⟩ : (o : GrowOp) × o.Ans) ∈ log := by
  obtain ⟨r, hmem, hrest⟩ := ran_op h
  cases r with
  | ok b => rwa [← ran_ret hrest]
  | error e => exact absurd hrest not_ran_raise

/-- A check that passed holds. -/
theorem ran_require {log : Log} {c : Prop} [Decidable c] {message : String} {u : Unit}
    (h : Ran log (require c message) u) : c := by
  unfold require at h
  split at h
  · next hc => exact hc
  · exact absurd h not_ran_raise

/-- A command that returned has printed it. -/
theorem ran_command {log : Log} {arguments : List String} {text : String}
    (h : Ran log (command arguments) text) : Printed log arguments text := by
  obtain ⟨result, hrun, hrest⟩ := ran_bind h
  have hmem := ran_perform hrun
  split at hrest
  · exact absurd hrest not_ran_raise
  · next hzero => exact ⟨result, hmem, not_not.mp hzero, ran_ret hrest⟩

theorem ran_resolve {log : Log} {path : PyStr} {target : String} {strict : Bool}
    (h : Ran log (resolve path strict) target) : Resolved log path strict target :=
  ran_perform h

/-- A number that was read is that of the text. -/
theorem ran_toInt [PyUnicode] {log : Log} {text : String} {n : Int} (h : Ran log (toInt text) n) :
    Py.int? text = some n := by
  unfold toInt at h
  split at h
  · next m hm =>
    rw [← ran_ret h]
    exact hm
  · exact absurd h not_ran_raise

/-- The partition is the one of the system slot, an ext4 file system with the label of ROOT. -/
structure RootIdentity (log : Log) (root : String) : Prop where
  slot : Resolved log "/dev/disk/by-slot/system" true root
  fstype : Printed log [FINDMNT, "-n", "-o", "FSTYPE", "/"] "ext4"
  label : Printed log [BLKID, "-s", "LABEL", "-o", "value", root] "ROOT"

/-- The partition beside ROOT is the one of the boot slot, with the label of BOOT. -/
structure BootIdentity (log : Log) (plan : GrowthPlan) : Prop where
  boot : ∃ b partition, plan.unchangedPartitions = [b] ∧
    Resolved log "/dev/disk/by-slot/boot" true partition ∧ Resolved log b.node true partition ∧
    Printed log [BLKID, "-s", "LABEL", "-o", "value", partition] "BOOT"

/-- `assert_root_identity` has seen the identity of ROOT. -/
theorem ran_assertRootIdentity {log : Log} {root : String}
    (h : Ran log (assertRootIdentity root) ()) : RootIdentity log root := by
  obtain ⟨slot, hslot, h⟩ := ran_bind h
  obtain ⟨_, heq, h⟩ := ran_bind h
  obtain ⟨fstype, hfstype, h⟩ := ran_bind h
  obtain ⟨_, hext4, h⟩ := ran_bind h
  obtain ⟨label, hlabel, hroot⟩ := ran_bind h
  have heq := ran_require heq
  have hext4 := ran_require hext4
  have hroot := ran_require hroot
  rw [heq] at hslot
  rw [hext4] at hfstype
  rw [hroot] at hlabel
  exact ⟨ran_resolve hslot, ran_command hfstype, ran_command hlabel⟩

/-- `assert_boot_identity` has seen the identity of BOOT. -/
theorem ran_assertBootIdentity {log : Log} {plan : GrowthPlan}
    (h : Ran log (assertBootIdentity plan) ()) : BootIdentity log plan := by
  unfold assertBootIdentity at h
  split at h
  · next b hplan =>
    obtain ⟨partition, hslot, h⟩ := ran_bind h
    obtain ⟨expected, hnode, h⟩ := ran_bind h
    obtain ⟨_, heq, h⟩ := ran_bind h
    obtain ⟨label, hlabel, hboot⟩ := ran_bind h
    have heq := ran_require heq
    have hboot := ran_require hboot
    rw [← heq] at hnode
    rw [hboot] at hlabel
    exact ⟨b, partition, hplan, ran_resolve hslot, ran_resolve hnode, ran_command hlabel⟩
  · exact absurd h not_ran_raise

theorem RootIdentity.mono {log log' : Log} {root : String} (h : RootIdentity log root)
    (hlog : log ⊆ log') : RootIdentity log' root :=
  ⟨hlog h.slot, h.fstype.mono hlog, h.label.mono hlog⟩

theorem BootIdentity.mono {log log' : Log} {plan : GrowthPlan} (h : BootIdentity log plan)
    (hlog : log ⊆ log') : BootIdentity log' plan := by
  obtain ⟨b, partition, hplan, hslot, hnode, hlabel⟩ := h.boot
  exact ⟨b, partition, hplan, hlog hslot, hlog hnode, hlabel.mono hlog⟩

/-! ## The rule

Which operation may be issued after which answers. -/

/-- The command line of an operation that changes the device. -/
def acting : GrowOp → Option (List String)
  | .run (program :: arguments) =>
    if program = GROWPART ∨ program = RESIZE2FS then some (program :: arguments) else none
  | _ => none

def acts (log : Log) : List (List String) :=
  log.filterMap fun e => acting e.1

@[simp] theorem acts_append (log late : Log) : acts (log ++ late) = acts log ++ acts late :=
  List.filterMap_append

/-- The command lines that only read, or wait. -/
inductive Reads : List String → Prop where
  | findmnt (arguments : List String) : Reads (FINDMNT :: arguments)
  | lsblk (arguments : List String) : Reads (LSBLK :: arguments)
  | blkid (arguments : List String) : Reads (BLKID :: arguments)
  | size (disk : String) : Reads [BLOCKDEV, "--getsize64", disk]
  | table (disk : String) : Reads [SFDISK, "--json", disk]
  | filesystem (root : String) : Reads [DUMPE2FS, "-h", root]
  | settle : Reads [UDEVADM, "settle"]

def Looking : GrowOp → Prop
  | .run arguments => Reads arguments
  | .resolve _ _ => True
  | _ => False

theorem Looking.acting {o : GrowOp} (h : Looking o) : Storage.acting o = none := by
  cases o with
  | run arguments => cases h <;> rfl
  | _ => rfl

theorem acts_eq_nil {log : Log} (h : ∀ e ∈ log, Looking e.1) : acts log = [] :=
  List.filterMap_eq_nil_iff.mpr fun e he => (h e he).acting

section

variable [PyUnicode] [PyRepr]

/-- The partition table that was printed was accepted with this plan. -/
def Tabled (log : Log) (root disk : String) (D : Int) (plan : GrowthPlan) : Prop :=
  ∃ table, Printed log [SFDISK, "--json", disk] table ∧
    Ran log (analyzePartitionTable table root D) plan

/-- The device has been identified, and its partition table accepted. -/
structure Checked (log : Log) (root disk : String) (D : Int) (before : GrowthPlan) : Prop where
  mounted : ∃ source, Printed log [FINDMNT, "-n", "-o", "SOURCE", "/"] source ∧
    Resolved log source true root
  identity : RootIdentity log root
  parent : ∃ name, Printed log [LSBLK, "-dn", "-o", "PKNAME", root] name ∧ name ≠ "" ∧
    '/' ∉ name.toList ∧ disk = devPath name
  number : Printed log [LSBLK, "-dn", "-o", "PARTN", root] "2"
  size : ∃ text, Printed log [BLOCKDEV, "--getsize64", disk] text ∧ Py.int? text = some D
  table : Tabled log root disk D before
  same : ∃ device, Resolved log before.disk true device ∧ Resolved log disk true device
  boot : BootIdentity log before

/-- What was checked stays checked. -/
theorem Checked.mono {log log' : Log} {root disk : String} {D : Int} {before : GrowthPlan}
    (h : Checked log root disk D before) (hlog : log ⊆ log') :
    Checked log' root disk D before := by
  obtain ⟨source, hsource, hroot⟩ := h.mounted
  obtain ⟨name, hname, hparent⟩ := h.parent
  obtain ⟨size, hsize, hD⟩ := h.size
  obtain ⟨table, htable, hplan⟩ := h.table
  obtain ⟨device, htableDisk, hdisk⟩ := h.same
  exact ⟨⟨source, hsource.mono hlog, hlog hroot⟩, h.identity.mono hlog,
    ⟨name, hname.mono hlog, hparent⟩, h.number.mono hlog, ⟨size, hsize.mono hlog, hD⟩,
    ⟨table, htable.mono hlog, hplan.mono hlog⟩, ⟨device, hlog htableDisk, hlog hdisk⟩,
    h.boot.mono hlog⟩

/-- `growpart` may be run. -/
structure MayGrow (log : Log) (disk : String) : Prop where
  first : acts log = []
  checked : ∃ root D before, Checked log root disk D before ∧ before.needsPartitionGrowth = true

/-- The partition has been grown if need be, and then all has been read and checked again. -/
structure Grown (log : Log) (root disk : String) (D : Int) (after : GrowthPlan) : Prop where
  grown : ∃ early late before, log = early ++ late ∧ Checked early root disk D before ∧
    acts early = (if before.needsPartitionGrowth then [[GROWPART, disk, "2"]] else []) ∧
    acts late = [] ∧ Tabled late root disk D after ∧ Expanded before after ∧
    RootIdentity late root ∧ BootIdentity late after

/-- The file system has been grown and checked, and fills the device. -/
structure Resized (log : Log) : Prop where
  resized : ∃ early late root disk D after F, log = early ++ late ∧ Grown early root disk D after ∧
    acts late = [[RESIZE2FS, root]] ∧ RootIdentity late root ∧ BootIdentity late after ∧
    Ran late (filesystemSizeBytes root) F ∧ FillsDevice D after F

/-- The rule of `expand_root`. -/
def Authorised (log : Log) : GrowOp → Prop
  | .unlink => log = []
  | .resolve _ _ => True
  | .run arguments => Reads arguments ∨
      (∃ disk, arguments = [GROWPART, disk, "2"] ∧ MayGrow log disk) ∨
      ∃ root disk D after, arguments = [RESIZE2FS, root] ∧ Grown log root disk D after
  | _ => Resized log

theorem Looking.authorised {o : GrowOp} (h : Looking o) (log : Log) : Authorised log o := by
  cases o with
  | run arguments => exact Or.inl h
  | resolve path strict => trivial
  | _ => exact h.elim

/-! ## The statements of the program

Each part of `expand_root` obeys the rule, and leaves in the journal what later parts need. -/

section Statements

variable {α : Type} {log : Log} {Q : α → Log → Prop}

/-- Whatever is answered, the rule is kept, and where the program returns `Q` holds. -/
abbrev Keeps (log : Log) (p : GrowM α) (Q : α → Log → Prop) : Prop :=
  p.wp (journal GrowOp.Ans Authorised) Q (fun _ _ => True) log

/-- A program that only looks. -/
theorem keeps_looking {p : GrowM α} {V : α → Prop} (hp : Prog.Within Looking p V)
    (hQ : ∀ a late, V a → acts late = [] → Ran late p a → Q a (log ++ late)) : Keeps log p Q := by
  apply hp.journal fun _ ho => ho.authorised
  intro a late ha hlate hreturned
  exact hQ a late ha (acts_eq_nil hlate) hreturned.ran

end Statements

theorem keeps_bind {α β : Type} {log : Log} {p : GrowM α} {f : α → GrowM β} {Q : β → Log → Prop}
    (h : Keeps log p fun a log' => Keeps log' (f a) Q) : Keeps log (p >>= f) Q :=
  wp_bind.mpr h

theorem keeps_require {log : Log} {c : Prop} [Decidable c] {message : String}
    {Q : Unit → Log → Prop} (hQ : c → Q () log) : Keeps log (require c message) Q := by
  unfold require
  split
  · next hc =>
    rintro _ rfl
    exact hQ hc
  · exact fun _ _ => trivial

theorem keeps_command {log : Log} {arguments : List String} {Q : String → Log → Prop}
    (h : Reads arguments)
    (hQ : ∀ text late, acts late = [] → Printed late arguments text → Q text (log ++ late)) :
    Keeps log (command arguments) Q := by
  have hlooks : Prog.Within Looking (command arguments) fun _ => True := within_run h
  apply keeps_looking hlooks
  intro text late _ hacts hran
  exact hQ text late hacts (ran_command hran)

omit [PyUnicode] [PyRepr] in
theorem looking_resolve (path : PyStr) (strict : Bool) :
    Prog.Within Looking (resolve path strict) fun _ => True :=
  within_perform (o := .resolve path strict) trivial

theorem keeps_resolve {log : Log} {path : PyStr} {strict : Bool} {Q : String → Log → Prop}
    (hQ : ∀ target late, acts late = [] → Resolved late path strict target →
      Q target (log ++ late)) : Keeps log (resolve path strict) Q := by
  apply keeps_looking (looking_resolve path strict)
  intro target late _ hacts hran
  exact hQ target late hacts (ran_resolve hran)

/-- After `assert_root_identity` the identity of ROOT has been seen. -/
theorem keeps_assertRootIdentity {log : Log} {root : String} {Q : Unit → Log → Prop}
    (hQ : ∀ late, acts late = [] → RootIdentity late root → Q () (log ++ late)) :
    Keeps log (assertRootIdentity root) Q := by
  have hlooks : Prog.Within Looking (assertRootIdentity root) fun _ => True := by
    apply within_bind (looking_resolve _ _)
    intro slot _
    apply within_bind within_require
    intro _ _
    apply within_bind (within_run (.findmnt _))
    intro fstype _
    apply within_bind within_require
    intro _ _
    apply within_bind (within_run (.blkid _))
    intro label _
    exact Prog.Within.mono within_require fun _ _ => trivial
  apply keeps_looking hlooks
  intro _ late _ hacts hran
  exact hQ late hacts (ran_assertRootIdentity hran)

/-- After `assert_boot_identity` that of BOOT has. -/
theorem keeps_assertBootIdentity {log : Log} {plan : GrowthPlan} {Q : Unit → Log → Prop}
    (hQ : ∀ late, acts late = [] → BootIdentity late plan → Q () (log ++ late)) :
    Keeps log (assertBootIdentity plan) Q := by
  have hlooks : Prog.Within Looking (assertBootIdentity plan) fun _ => True := by
    unfold assertBootIdentity
    split
    · apply within_bind (looking_resolve _ _)
      intro partition _
      apply within_bind (looking_resolve _ _)
      intro expected _
      apply within_bind within_require
      intro _ _
      apply within_bind (within_run (.blkid _))
      intro label _
      exact Prog.Within.mono within_require fun _ _ => trivial
    · exact within_raise _
  apply keeps_looking hlooks
  intro _ late _ hacts hran
  exact hQ late hacts (ran_assertBootIdentity hran)

omit [PyUnicode] in
/-- `analyze_partition_table` only resolves paths. -/
theorem looking_analyzePartitionTable (table root : String) (D : Int) :
    Prog.Within Looking (analyzePartitionTable table root D) (Analyzed D) := by
  unfold analyzePartitionTable
  split
  -- every stage looks at the table or refuses it
  · exact within_raise _
  · apply within_bind (within_requireDict _ _)
    intro fields _
    apply within_bind within_require
    intro _ _
    apply within_bind within_require
    intro _ _
    apply within_bind (within_requirePair _ _)
    intro (first, second) _
    apply within_bind (within_integer _ _)
    intro sectorSize _
    apply within_bind within_require
    intro _ hsector
    apply within_bind within_require
    intro _ _
    apply within_bind (looking_resolve _ _)
    intro normalizedRoot _
    apply within_bind (within_readEntry _)
    intro first hfirst
    apply within_bind (within_readEntry _)
    intro second hsecond
    have hroot : ∀ e, Prog.Within Looking (isRoot normalizedRoot e) fun _ => True := fun e =>
      within_bind (looking_resolve _ _) fun _ _ => within_ret trivial
    apply within_bind (hroot first)
    intro firstIsRoot _
    apply within_bind (hroot second)
    intro secondIsRoot _
    -- exactly one of the two entries is the root
    cases firstIsRoot <;> cases secondIsRoot
    · exact within_raise _
    · exact within_planOf fields hsector D hsecond hfirst
    · exact within_planOf fields hsector D hfirst hsecond
    · exact within_raise _

/-- After `analyze_partition_table` the plan has been analyzed. -/
theorem keeps_analyzePartitionTable {log : Log} {table root : String} {D : Int}
    {Q : GrowthPlan → Log → Prop}
    (hQ : ∀ plan late, acts late = [] → Analyzed D plan →
      Ran late (analyzePartitionTable table root D) plan → Q plan (log ++ late)) :
    Keeps log (analyzePartitionTable table root D) Q := by
  apply keeps_looking (looking_analyzePartitionTable table root D)
  intro plan late hplan hacts hran
  exact hQ plan late hacts hplan hran

/-- After `filesystem_size_bytes` the size has been read. -/
theorem keeps_filesystemSizeBytes {log : Log} {root : String} {Q : Int → Log → Prop}
    (hQ : ∀ F late, acts late = [] → Ran late (filesystemSizeBytes root) F → Q F (log ++ late)) :
    Keeps log (filesystemSizeBytes root) Q := by
  have hlooks : Prog.Within Looking (filesystemSizeBytes root) fun _ => True := by
    apply within_bind (within_run (.filesystem root))
    intro output _
    split
    · apply within_bind (within_toInt _)
      intro count _
      apply within_bind (within_toInt _)
      intro size _
      exact within_ret trivial
    · exact within_raise _
  apply keeps_looking hlooks
  intro F late _ hacts hran
  exact hQ F late hacts hran

/-- A command that changes the device, where the rule allows it. -/
theorem keeps_act {log : Log} {arguments : List String} {Q : String → Log → Prop}
    (hrule : Authorised log (.run arguments))
    (hQ : ∀ text late, acts late = (acting (.run arguments)).toList → Q text (log ++ late)) :
    Keeps log (command arguments) Q := by
  apply keeps_bind
  rintro _ rfl
  refine ⟨hrule, ?_⟩
  rintro r _ rfl
  have hacts : acts [(⟨.run arguments, r⟩ : (o : GrowOp) × o.Ans)]
      = (acting (.run arguments)).toList := by
    unfold acts
    cases hacting : acting (.run arguments) <;> simp [hacting]
  cases r with
  | error e => exact fun _ _ => trivial
  | ok result =>
    rintro _ rfl
    split
    · exact fun _ _ => trivial
    · rintro _ rfl
      exact hQ _ _ hacts

/-- `growpart` is run where it may be, and where something has to grow. -/
theorem keeps_growPartition {log : Log} {before : GrowthPlan} {disk : String}
    {Q : Unit → Log → Prop} (hmay : before.needsPartitionGrowth = true → MayGrow log disk)
    (hQ : ∀ late,
      acts late = (if before.needsPartitionGrowth then [[GROWPART, disk, "2"]] else []) →
      Q () (log ++ late)) : Keeps log (growPartition before disk "2") Q := by
  unfold growPartition
  split
  · next hneeds =>
    apply keeps_bind
    apply keeps_act (Or.inr (Or.inl ⟨disk, rfl, hmay hneeds⟩))
    intro _ grown hgrown
    apply keeps_bind
    apply keeps_command .settle
    intro _ settled hsettled _
    rintro _ rfl
    rw [List.append_assoc]
    apply hQ
    rw [acts_append, hgrown, hsettled, if_pos hneeds]
    rfl
  · next hneeds =>
    rintro _ rfl
    have h := hQ [] (by rw [if_neg hneeds]; rfl)
    rwa [List.append_nil] at h

/-- `expand_root` up to the completion of the record. -/
theorem keeps_growAndVerify {log : Log} (hlog : acts log = []) :
    Keeps log growAndVerify fun _ log' => Resized log' := by
  apply keeps_bind
  apply keeps_command (.findmnt _)
  intro source l₁ h₁ hsource
  apply keeps_bind
  apply keeps_resolve
  intro root l₂ h₂ hroot
  apply keeps_bind
  apply keeps_assertRootIdentity
  intro l₃ h₃ hidentity
  apply keeps_bind
  apply keeps_command (.lsblk _)
  intro parent l₄ h₄ hparent
  apply keeps_bind
  apply keeps_command (.lsblk _)
  intro number l₅ h₅ hnumber
  apply keeps_bind
  apply keeps_require
  intro hname
  apply keeps_bind
  apply keeps_require
  intro _
  apply keeps_bind
  apply keeps_require
  rintro rfl
  apply keeps_bind
  apply keeps_command (.size _)
  intro size l₆ h₆ hsize
  apply keeps_bind
  have hlooks : Prog.Within Looking (toInt size) fun _ => True := within_toInt size
  apply keeps_looking hlooks
  intro D l₇ _ h₇ hD
  apply keeps_bind
  apply keeps_command (.table _)
  intro table l₈ h₈ htable
  apply keeps_bind
  apply keeps_analyzePartitionTable
  intro before l₉ h₉ _ hbefore
  apply keeps_bind
  apply keeps_resolve
  intro tableDisk l₁₀ h₁₀ htableDisk
  apply keeps_bind
  apply keeps_resolve
  intro bootDisk l₁₁ h₁₁ hbootDisk
  apply keeps_bind
  apply keeps_require
  rintro rfl
  apply keeps_bind
  apply keeps_assertBootIdentity
  intro l₁₂ h₁₂ hboot
  -- what has been found out so far lets `growpart` run
  obtain ⟨early, hearly⟩ : ∃ early, early = log ++ l₁ ++ l₂ ++ l₃ ++ l₄ ++ l₅ ++ l₆ ++ l₇ ++ l₈ ++ l₉
    ++ l₁₀ ++ l₁₁ ++ l₁₂ := ⟨_, rfl⟩
  have hfirst : acts early = [] := by
    rw [hearly]
    simp only [acts_append, hlog, h₁, h₂, h₃, h₄, h₅, h₆, h₇, h₈, h₉, h₁₀, h₁₁, h₁₂, List.append_nil]
  have hchecked : Checked early root (devPath parent) D before := by
    have sub : ∀ {l}, l ∈ [l₁, l₂, l₃, l₄, l₅, l₆, l₈, l₉, l₁₀, l₁₁, l₁₂] → l ⊆ early := by
      intro l hl e he
      rw [hearly]
      simp only [List.mem_cons, List.not_mem_nil, or_false] at hl
      simp only [List.mem_append]
      rcases hl with rfl | rfl | rfl | rfl | rfl | rfl | rfl | rfl | rfl | rfl | rfl <;> simp [he]
    constructor
    · exact ⟨source, hsource.mono (sub (by simp)), sub (by simp) hroot⟩
    · exact hidentity.mono (sub (by simp))
    · exact ⟨parent, hparent.mono (sub (by simp)), hname.1, hname.2, rfl⟩
    · exact hnumber.mono (sub (by simp))
    · exact ⟨size, hsize.mono (sub (by simp)), ran_toInt hD⟩
    · exact ⟨table, htable.mono (sub (by simp)), hbefore.mono (sub (by simp))⟩
    · exact ⟨tableDisk, sub (by simp) htableDisk, sub (by simp) hbootDisk⟩
    · exact hboot.mono (sub (by simp))
  rw [← hearly]
  apply keeps_bind
  apply keeps_growPartition
  · exact fun hneeds => ⟨hfirst, root, D, before, hchecked, hneeds⟩
  intro grown hgrown
  apply keeps_bind
  apply keeps_command (.table _)
  intro table' m₁ k₁ htable'
  apply keeps_bind
  apply keeps_analyzePartitionTable
  intro after m₂ k₂ hplan hafter
  apply keeps_bind
  have hlooks : Prog.Within Looking (verifyExpandedGeometry before after) fun _ =>
      Expanded before after :=
    within_verifyExpandedGeometry before after
  apply keeps_looking hlooks
  intro _ m₃ hexpanded k₃ _
  apply keeps_bind
  apply keeps_assertRootIdentity
  intro m₄ k₄ hidentity'
  apply keeps_bind
  apply keeps_assertBootIdentity
  intro m₅ k₅ hboot'
  -- and this lets `resize2fs` run
  obtain ⟨middle, hmiddle⟩ : ∃ middle, middle = early ++ grown ++ m₁ ++ m₂ ++ m₃ ++ m₄ ++ m₅ :=
    ⟨_, rfl⟩
  have hgrown' : Grown middle root (devPath parent) D after := by
    have sub : ∀ {l}, l ∈ [m₁, m₂, m₄, m₅] → l ⊆ m₁ ++ m₂ ++ m₃ ++ m₄ ++ m₅ := by
      intro l hl e he
      simp only [List.mem_cons, List.not_mem_nil, or_false] at hl
      simp only [List.mem_append]
      rcases hl with rfl | rfl | rfl | rfl <;> simp [he]
    refine ⟨early ++ grown, m₁ ++ m₂ ++ m₃ ++ m₄ ++ m₅, before, ?_, ?_, ?_, ?_, ?_, hexpanded, ?_, ?_⟩
    · rw [hmiddle]
      simp only [List.append_assoc]
    · exact hchecked.mono (List.subset_append_left _ _)
    · rw [acts_append, hfirst, hgrown, List.nil_append]
    · simp only [acts_append, k₁, k₂, k₃, k₄, k₅, List.append_nil]
    · exact ⟨table', htable'.mono (sub (by simp)), hafter.mono (sub (by simp))⟩
    · exact hidentity'.mono (sub (by simp))
    · exact hboot'.mono (sub (by simp))
  rw [← hmiddle]
  apply keeps_bind
  apply keeps_act (Or.inr (Or.inr ⟨root, _, D, after, rfl, hgrown'⟩))
  intro _ resized hresized
  apply keeps_bind
  apply keeps_assertRootIdentity
  intro n₁ j₁ hidentity''
  apply keeps_bind
  apply keeps_assertBootIdentity
  intro n₂ j₂ hboot''
  apply keeps_bind
  apply keeps_filesystemSizeBytes
  intro F n₃ j₃ hF
  apply keeps_bind
  apply keeps_looking (@within_verifyFilesystemSize Looking _ F)
  intro _ n₄ hfills j₄ _
  rintro _ rfl
  refine ⟨middle, resized ++ n₁ ++ n₂ ++ n₃ ++ n₄, root, _, D, after, F, ?_, hgrown', ?_, ?_, ?_, ?_,
    fillsDevice hplan hexpanded.trailing_le hfills.1 hfills.2⟩
  · simp only [List.append_assoc]
  · simp only [acts_append, hresized, j₁, j₂, j₃, j₄, List.append_nil]
    rfl
  · exact hidentity''.mono fun e he => by simp [he]
  · exact hboot''.mono fun e he => by simp [he]
  · exact hF.mono fun e he => by simp [he]

/-! ## Runs

From the parts to every run, also one that is stopped. -/

omit [PyUnicode] [PyRepr] in
def Records : GrowOp → Prop
  | .unlink | .resolve _ _ | .run _ => False
  | _ => True

omit [PyUnicode] [PyRepr] in
/-- What the record is written with changes nothing else. -/
theorem Records.acting {o : GrowOp} (h : Records o) : Storage.acting o = none := by
  cases o with
  | run => exact h.elim
  | _ => rfl

/-- The file system has been grown, also after further operations. -/
theorem Resized.concat {log : Log} (h : Resized log) {e : (o : GrowOp) × o.Ans}
    (he : acting e.1 = none) : Resized (log ++ [e]) := by
  obtain ⟨early, late, root, disk, D, after, F, rfl, hgrown, hacts, hroot, hboot, hF, hfills⟩ :=
    h.resized
  have hlate : late ⊆ late ++ [e] := List.subset_append_left _ _
  refine ⟨early, late ++ [e], root, disk, D, after, F, List.append_assoc _ _ _, hgrown, ?_,
    hroot.mono hlate, hboot.mono hlate, hF.mono hlate, hfills⟩
  rw [acts_append, hacts]
  simp [acts, he]

/-- The completion is written after the file system was grown. -/
theorem keeps_writeCompletion {log : Log} (h : Resized log) (plan : GrowthPlan) (F : Int) :
    Keeps log (writeCompletion plan F) fun _ _ => True := by
  have op : ∀ o, Records o → Prog.Within Records (perform o) fun _ => True :=
    fun _ ho => within_perform ho
  -- writing the record neither runs a command nor removes a file
  have hrecords : Prog.Within Records (writeCompletion plan F) fun _ => True := by
    have hwrites : ∀ o, Writes o → Records o := by
      intro o ho
      cases o with
      | unlink | run | resolve => exact ho.elim
      | _ => trivial
    apply within_bind (within_writeTemporary hwrites plan F)
    intro _ _
    apply within_bind (op .replace trivial)
    intro _ _
    apply within_bind (op .openDirectory trivial)
    intro _ _
    exact within_finallyDo (op .fsyncDirectory trivial) (op .closeDirectory trivial)
  have hkeeps : Prog.Keeps (journal GrowOp.Ans Authorised) Resized (writeCompletion plan F) := by
    apply hrecords.keeps (stable_sequential _)
    · intro o log ho hlog
      cases o with
      | unlink | run | resolve => exact ho.elim
      | _ => exact hlog
    · rintro o log r _ ho hlog rfl
      exact hlog.concat ho.acting
  exact wp_mono (hkeeps log h) (fun _ _ _ => trivial) fun _ _ _ => trivial

/-- `expand_root` obeys the rule. -/
theorem keeps_expandRoot : Keeps [] expandRoot fun _ _ => True := by
  apply keeps_bind
  rintro _ rfl
  refine ⟨rfl, ?_⟩
  rintro r _ rfl
  cases r with
  | error e => exact fun _ _ => trivial
  | ok u =>
    rintro _ rfl
    apply keeps_bind
    apply wp_mono (keeps_growAndVerify rfl) _ fun _ _ _ => trivial
    intro (D, after, F) log hlog
    exact keeps_writeCompletion hlog after F

/-- The commands that change the device in a run: at most one of each kind, `growpart` first. -/
def InOrder (commands : List (List String)) : Prop :=
  commands = [] ∨ ∃ root, commands = [[RESIZE2FS, root]] ∨ ∃ disk, commands = [[GROWPART, disk, "2"]] ∨
    commands = [[GROWPART, disk, "2"], [RESIZE2FS, root]]

/-- Before the file system, nothing was grown or the partition was. -/
theorem Grown.acts_cases {log : Log} {root disk : String} {D : Int} {after : GrowthPlan}
    (h : Grown log root disk D after) : acts log = [] ∨ acts log = [[GROWPART, disk, "2"]] := by
  obtain ⟨early, late, before, rfl, -, hearly, hlate, -⟩ := h.grown
  rw [acts_append, hearly, hlate, List.append_nil]
  split
  · exact Or.inr rfl
  · exact Or.inl rfl

/-- A journal that keeps the rule has its commands in order. -/
theorem inOrder_of_clean {log : Log} (h : Clean (fun before e => Authorised before e.1) log) :
    InOrder (acts log) := by
  induction log using List.reverseRecOn with
  | nil => exact Or.inl rfl
  | append_singleton log e ih =>
    have hlog : InOrder (acts log) := by
      apply ih
      intro before a after heq
      exact h before a (after ++ [e]) (by rw [heq]; simp)
    have hrule : Authorised log e.1 := h log e [] rfl
    rw [acts_append]
    cases hacting : acting e.1 with
    | none =>
      have hnone : acts [e] = [] := by simp [acts, hacting]
      rwa [hnone, List.append_nil]
    | some command =>
      have hone : acts [e] = [command] := by simp [acts, hacting]
      rw [hone]
      -- only a command changes the device
      obtain ⟨o, r⟩ := e
      cases o with
      | run arguments =>
        rcases hrule with hreads | ⟨disk, rfl, hmay⟩ | ⟨root, disk, D, after, rfl, hgrown⟩
        · rw [(show Looking (.run arguments) from hreads).acting] at hacting
          exact absurd hacting (by simp)
        · have hcommand : [GROWPART, disk, "2"] = command := Option.some.inj hacting
          rw [hmay.first, ← hcommand]
          exact Or.inr ⟨"", Or.inr ⟨disk, Or.inl rfl⟩⟩
        · have hcommand : [RESIZE2FS, root] = command := Option.some.inj hacting
          rw [← hcommand]
          rcases hgrown.acts_cases with hacts | hacts
          · rw [hacts]
            exact Or.inr ⟨root, Or.inl rfl⟩
          · rw [hacts]
            exact Or.inr ⟨root, Or.inr ⟨disk, Or.inr rfl⟩⟩
      | _ => exact absurd hacting (by simp [acting])

end

end Storage

end Rave
