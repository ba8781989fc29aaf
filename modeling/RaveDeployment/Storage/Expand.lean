import RaveDeployment.Storage.Geometry

/-!
# `expand_root`

The run of one boot, from the removal of the old record to the publication of the new one. The
statements between the two are `growAndVerify`, which ends with what `write_completion` is called
on and, beside it, the size of the device.
-/

namespace Rave

namespace Storage

def FINDMNT : String := "/usr/bin/findmnt"
def LSBLK : String := "/usr/bin/lsblk"
def GROWPART : String := "/usr/bin/growpart"
def UDEVADM : String := "/usr/bin/udevadm"
def SFDISK : String := "/usr/sbin/sfdisk"
def BLOCKDEV : String := "/usr/sbin/blockdev"
def BLKID : String := "/usr/sbin/blkid"
def RESIZE2FS : String := "/usr/sbin/resize2fs"
def DUMPE2FS : String := "/usr/sbin/dumpe2fs"

/-- The match of `^label\s+([0-9]+)$` at the beginning of a line. No character is both white and a
digit, so the greedy match is the only one. -/
def matchNumber (label text : List Char) : Option (List Char) :=
  let blanks := (text.drop label.length).takeWhile Py.isSpace
  let rest := (text.drop label.length).dropWhile Py.isSpace
  let digits := rest.takeWhile Char.isDigit
  let after := rest.dropWhile Char.isDigit
  if label.isPrefixOf text ∧ blanks ≠ [] ∧ digits ≠ [] ∧ (after = [] ∨ after.head? = some '\n') then
    some digits
  else none

/-- `re.search` of that pattern with `re.MULTILINE`. -/
def searchNumber (label : List Char) (lineStart : Bool) : List Char → Option (List Char)
  | [] => none
  | c :: cs =>
    if lineStart then
      match matchNumber label (c :: cs) with
      | some digits => some digits
      | none => searchNumber label (c = '\n') cs
    else searchNumber label (c = '\n') cs

/-- `str(Path("/dev") / name)` for a name without a slash. -/
def devPath (name : String) : String :=
  if name = "." then "/dev" else "/dev/" ++ name

section

variable [PyUnicode]

/-- `filesystem_size_bytes`. -/
def filesystemSizeBytes (rootPartition : String) : GrowM Int := do
  let output ← command [DUMPE2FS, "-h", rootPartition]
  match searchNumber "Block count:".toList true output.toList,
      searchNumber "Block size:".toList true output.toList with
  | some blockCount, some blockSize => do
    let count ← toInt (String.ofList blockCount)
    let size ← toInt (String.ofList blockSize)
    return count * size
  | _, _ => throw (.expansionError "cannot read ext4 filesystem size")

omit [PyUnicode] in
/-- `assert_root_identity`. -/
def assertRootIdentity (rootPartition : String) : GrowM Unit := do
  let slot ← resolve "/dev/disk/by-slot/system" true
  require (slot = rootPartition) "/dev/disk/by-slot/system does not resolve to mounted ROOT"
  let fstype ← command [FINDMNT, "-n", "-o", "FSTYPE", "/"]
  require (fstype = "ext4") "ROOT filesystem is not ext4"
  let label ← command [BLKID, "-s", "LABEL", "-o", "value", rootPartition]
  require (label = "ROOT") "ROOT label changed"

omit [PyUnicode] in
/-- `assert_boot_identity`. -/
def assertBootIdentity (plan : GrowthPlan) : GrowM Unit :=
  match plan.unchangedPartitions with
  | [boot] => do
    let bootPartition ← resolve "/dev/disk/by-slot/boot" true
    let expectedPartition ← resolve boot.node true
    require (bootPartition = expectedPartition) "/dev/disk/by-slot/boot does not resolve to BOOT"
    let label ← command [BLKID, "-s", "LABEL", "-o", "value", bootPartition]
    require (label = "BOOT") "BOOT label changed"
  | _ => throw (.expansionError "BOOT partition is not unique")

omit [PyUnicode] in
/-- The conditional growth of `expand_root`. -/
def growPartition (before : GrowthPlan) (disk partitionNumber : String) : GrowM Unit :=
  if before.needsPartitionGrowth then do
    let _ ← command [GROWPART, disk, partitionNumber]
    let _ ← command [UDEVADM, "settle"]
    return
  else return

/-- The record of `write_completion`. -/
def recordOf (plan : GrowthPlan) (filesystemBytes : Int) : Json :=
  .obj [("status", .str "complete"),
    ("disk", .str plan.disk),
    ("root_partition", .str plan.rootPartition),
    ("root_start_sector", plan.startSector.toJson),
    ("root_end_sector", .int plan.endSector),
    ("final_usable_sector", .int plan.finalUsableSector),
    ("trailing_bytes", .int plan.trailingBytes),
    ("filesystem_bytes", .int filesystemBytes)]

/-- `json.dump(record, output, indent=2, sort_keys=True)`. -/
def recordJson (plan : GrowthPlan) (filesystemBytes : Int) : List Char :=
  Json.dumps ⟨true, 0, 1, some 2⟩ (recordOf plan filesystemBytes).sortKeys

def recordText (plan : GrowthPlan) (filesystemBytes : Int) : List Char :=
  recordJson plan filesystemBytes ++ ['\n']

/-- `write_completion` up to the replacement. -/
def writeTemporary (plan : GrowthPlan) (filesystemBytes : Int) : GrowM Unit := do
  perform (.mkdirParent 0o750)
  perform .openTemporary
  Prog.finallyDo
    (do
      perform (.write (recordJson plan filesystemBytes))
      perform (.write ['\n'])
      perform .flush
      perform .fsync)
    (perform .close)
  perform (.chmod 0o640)

/-- `write_completion` from the replacement on. -/
def publishRecord : GrowM Unit := do
  perform .replace
  perform .openDirectory
  Prog.finallyDo (perform .fsyncDirectory) (perform .closeDirectory)

/-- `write_completion`. -/
def writeCompletion (plan : GrowthPlan) (filesystemBytes : Int) : GrowM Unit := do
  writeTemporary plan filesystemBytes
  publishRecord

variable [PyRepr]

/-- `expand_root` between the removal of the old record and `write_completion`. -/
def growAndVerify : GrowM (Int × GrowthPlan × Int) := do
  let source ← command [FINDMNT, "-n", "-o", "SOURCE", "/"]
  let rootPartition ← resolve source true
  assertRootIdentity rootPartition
  let parentName ← command [LSBLK, "-dn", "-o", "PKNAME", rootPartition]
  let partitionNumber ← command [LSBLK, "-dn", "-o", "PARTN", rootPartition]
  require (parentName ≠ "" ∧ '/' ∉ parentName.toList) "cannot identify physical ROOT parent device"
  require (Py.isdigit partitionNumber) "cannot identify ROOT partition number"
  require (partitionNumber = "2") "ROOT must be partition 2 in the BOOT/ROOT layout"
  let disk := devPath parentName
  let size ← command [BLOCKDEV, "--getsize64", disk]
  let deviceBytes ← toInt size
  let table ← command [SFDISK, "--json", disk]
  let before ← analyzePartitionTable table rootPartition deviceBytes
  let tableDisk ← resolve before.disk true
  let bootDisk ← resolve disk true
  require (tableDisk = bootDisk) "partition table is not for the ROOT boot device"
  assertBootIdentity before
  growPartition before disk partitionNumber
  let table ← command [SFDISK, "--json", disk]
  let after ← analyzePartitionTable table rootPartition deviceBytes
  verifyExpandedGeometry before after
  assertRootIdentity rootPartition
  assertBootIdentity after
  let _ ← command [RESIZE2FS, rootPartition]
  assertRootIdentity rootPartition
  assertBootIdentity after
  let filesystemBytes ← filesystemSizeBytes rootPartition
  let partitionBytes := after.partitionSectors.val * after.sectorSize.val
  verifyFilesystemSize partitionBytes filesystemBytes
  return (deviceBytes, after, filesystemBytes)

/-- `expand_root` after its first statement. -/
def growRoot : GrowM Unit := do
  let (_, after, filesystemBytes) ← growAndVerify
  writeCompletion after filesystemBytes

/-- `expand_root`. -/
def expandRoot : GrowM Unit := do
  perform .unlink
  growRoot

end

/-! ## What has been verified

What a run that comes to the completion has checked of the device. -/

section

variable [PyUnicode] {ok : GrowOp → Prop} [Looks ok]

omit [PyUnicode] in
/-- `assert_root_identity` looks. -/
theorem within_assertRootIdentity (rootPartition : String) :
    Prog.Within ok (assertRootIdentity rootPartition) fun _ => True := by
  apply Prog.within_bind (within_resolve _ _)
  intro slot _
  apply Prog.within_bind within_require
  intro _ _
  apply Prog.within_bind (within_command (by decide))
  intro fstype _
  apply Prog.within_bind within_require
  intro _ _
  apply Prog.within_bind (within_command (by decide))
  intro label _
  exact Prog.Within.mono within_require fun _ _ => trivial

omit [PyUnicode] in
/-- `assert_boot_identity` looks. -/
theorem within_assertBootIdentity (plan : GrowthPlan) :
    Prog.Within ok (assertBootIdentity plan) fun _ => True := by
  unfold assertBootIdentity
  split
  · apply Prog.within_bind (within_resolve _ _)
    intro bootPartition _
    apply Prog.within_bind (within_resolve _ _)
    intro expectedPartition _
    apply Prog.within_bind within_require
    intro _ _
    apply Prog.within_bind (within_command (by decide))
    intro label _
    exact Prog.Within.mono within_require fun _ _ => trivial
  · exact Prog.within_raise _

omit [PyUnicode] [Looks ok] in
/-- Growing the partition changes nothing that the model keeps. -/
theorem within_growPartition (before : GrowthPlan) (disk partitionNumber : String) :
    Prog.Within Observes (growPartition before disk partitionNumber) fun _ => True := by
  unfold growPartition
  split
  · apply Prog.within_bind (within_run trivial)
    intro _ _
    apply Prog.within_bind (within_run trivial)
    intro _ _
    exact Prog.within_ret trivial
  · exact Prog.within_ret trivial

/-- `filesystem_size_bytes` looks. -/
theorem within_filesystemSizeBytes (rootPartition : String) :
    Prog.Within ok (filesystemSizeBytes rootPartition) fun _ => True := by
  apply Prog.within_bind (within_command (by decide))
  intro output _
  split
  · apply Prog.within_bind (within_toInt _)
    intro count _
    apply Prog.within_bind (within_toInt _)
    intro size _
    exact Prog.within_ret trivial
  · exact Prog.within_raise _

variable [PyRepr]

/-- **Where every check passed, the file system fills the device.** -/
theorem within_growAndVerify :
    Prog.Within Observes growAndVerify fun (D, after, F) => FillsDevice D after F := by
  apply Prog.within_bind (within_command (by decide))
  intro source _
  apply Prog.within_bind (within_resolve _ _)
  intro rootPartition _
  apply Prog.within_bind (within_assertRootIdentity _)
  intro _ _
  apply Prog.within_bind (within_command (by decide))
  intro parentName _
  apply Prog.within_bind (within_command (by decide))
  intro partitionNumber _
  apply Prog.within_bind within_require
  intro _ _
  apply Prog.within_bind within_require
  intro _ _
  apply Prog.within_bind within_require
  intro _ _
  apply Prog.within_bind (within_command (by decide))
  intro size _
  apply Prog.within_bind (within_toInt _)
  intro D _
  apply Prog.within_bind (within_command (by decide))
  intro table _
  apply Prog.within_bind (within_analyzePartitionTable _ _ _)
  intro before _
  apply Prog.within_bind (within_resolve _ _)
  intro tableDisk _
  apply Prog.within_bind (within_resolve _ _)
  intro bootDisk _
  apply Prog.within_bind within_require
  intro _ _
  apply Prog.within_bind (within_assertBootIdentity _)
  intro _ _
  apply Prog.within_bind (within_growPartition _ _ _)
  intro _ _
  apply Prog.within_bind (within_command (by decide))
  intro table _
  apply Prog.within_bind (within_analyzePartitionTable _ _ _)
  intro after hafter
  apply Prog.within_bind (within_verifyExpandedGeometry _ _)
  intro _ hexpanded
  apply Prog.within_bind (within_assertRootIdentity _)
  intro _ _
  apply Prog.within_bind (within_assertBootIdentity _)
  intro _ _
  apply Prog.within_bind (within_command (by decide))
  intro _ _
  apply Prog.within_bind (within_assertRootIdentity _)
  intro _ _
  apply Prog.within_bind (within_assertBootIdentity _)
  intro _ _
  apply Prog.within_bind (within_filesystemSizeBytes _)
  intro F _
  apply Prog.within_bind (within_verifyFilesystemSize _ _)
  intro _ hsize
  -- the size of the device is the one that the second plan was accepted for
  exact Prog.within_ret (fillsDevice hafter hexpanded.trailing_le hsize.1 hsize.2)

end

end Storage

end Rave
