import RaveDeployment.Storage.Expand
import RaveDeployment.Lib.Replay

/-!
# The statements of `expand_root` in groups

A complete run is taken apart and put together group by group: what each group is answered
(`Asks`), and the twelve operations of `write_completion`.

The last section is a run that passes every check: the card has 64 MiB, ROOT is grown from 16 MiB
to the end, and its file system is resized.
-/

namespace Rave

namespace Storage

/-! ## The statements in groups

`expand_root` cut into parts that are looked at one by one. -/

section

variable [PyUnicode]

omit [PyUnicode] in
/-- From `findmnt` to the partition of ROOT. -/
def locateRoot : GrowM String := do
  let source ← command [FINDMNT, "-n", "-o", "SOURCE", "/"]
  resolve source true

def locateDevice (rootPartition : String) : GrowM (String × String × Int) := do
  let parentName ← command [LSBLK, "-dn", "-o", "PKNAME", rootPartition]
  let partitionNumber ← command [LSBLK, "-dn", "-o", "PARTN", rootPartition]
  require (parentName ≠ "" ∧ '/' ∉ parentName.toList) "cannot identify physical ROOT parent device"
  require (Py.isdigit partitionNumber) "cannot identify ROOT partition number"
  require (partitionNumber = "2") "ROOT must be partition 2 in the BOOT/ROOT layout"
  let size ← command [BLOCKDEV, "--getsize64", devPath parentName]
  let deviceBytes ← toInt size
  return (devPath parentName, partitionNumber, deviceBytes)

omit [PyUnicode] in
/-- The disk of the table is the one that was found. -/
def assertTableDisk (plan : GrowthPlan) (disk : String) : GrowM Unit := do
  let tableDisk ← resolve plan.disk true
  let bootDisk ← resolve disk true
  require (tableDisk = bootDisk) "partition table is not for the ROOT boot device"

omit [PyUnicode] in
/-- `resize2fs`. -/
def resizeFilesystem (rootPartition : String) : GrowM Unit := do
  let _ ← command [RESIZE2FS, rootPartition]
  return

def filledFilesystem (rootPartition : String) (plan : GrowthPlan) : GrowM Int := do
  let filesystemBytes ← filesystemSizeBytes rootPartition
  verifyFilesystemSize (plan.partitionSectors.val * plan.sectorSize.val) filesystemBytes
  return filesystemBytes

variable [PyRepr]

omit [PyUnicode] in
/-- `sfdisk --json`, and the plan of its table. -/
def readTable (disk rootPartition : String) (deviceBytes : Int) : GrowM GrowthPlan := do
  let table ← command [SFDISK, "--json", disk]
  analyzePartitionTable table rootPartition deviceBytes

/-- What is known before the growth. -/
structure Survey where
  rootPartition : String
  disk : String
  partitionNumber : String
  deviceBytes : Int
  before : GrowthPlan

def survey : GrowM Survey := do
  let rootPartition ← locateRoot
  assertRootIdentity rootPartition
  let device ← locateDevice rootPartition
  let before ← readTable device.1 rootPartition device.2.2
  assertTableDisk before device.1
  assertBootIdentity before
  return ⟨rootPartition, device.1, device.2.1, device.2.2, before⟩

def growSurveyed (v : Survey) : GrowM (Int × GrowthPlan × Int) := do
  growPartition v.before v.disk v.partitionNumber
  let after ← readTable v.disk v.rootPartition v.deviceBytes
  verifyExpandedGeometry v.before after
  assertRootIdentity v.rootPartition
  assertBootIdentity after
  resizeFilesystem v.rootPartition
  assertRootIdentity v.rootPartition
  assertBootIdentity after
  let filesystemBytes ← filledFilesystem v.rootPartition after
  return (v.deviceBytes, after, filesystemBytes)

theorem growAndVerify_eq : growAndVerify = survey.bind growSurveyed := by
  simp only [growAndVerify, survey, growSurveyed, locateRoot, locateDevice, assertTableDisk,
    resizeFilesystem, filledFilesystem, readTable, Prog.bind_eq, Prog.pure_eq, Prog.bind_assoc,
    Prog.ret_bind]

end

/-! ## The number of answers of each group

Each part asks a fixed number of things when it returns, which tells where its answers end. -/

section

theorem asks_perform (o : GrowOp) : Prog.Asks exec (perform o) 1 := by
  apply Prog.asks_op
  intro r
  cases r with
  | ok a => exact Prog.asks_ret a
  | error e => exact Prog.asks_raise e 0

theorem asks_require {condition : Prop} [Decidable condition] {message : String} :
    Prog.Asks exec (require condition message) 0 := by
  unfold require
  split
  · exact Prog.asks_ret ()
  · exact Prog.asks_raise _ 0

theorem asks_resolve (path : PyStr) (strict : Bool) : Prog.Asks exec (resolve path strict) 1 :=
  asks_perform (.resolve path strict)

theorem asks_command (arguments : List String) : Prog.Asks exec (command arguments) 1 := by
  apply Prog.asks_bind (m := 1) (n := 0) (asks_perform (.run arguments))
  intro result
  split
  · exact Prog.asks_raise _ 0
  · exact Prog.asks_ret _

theorem asks_assertRootIdentity (rootPartition : String) :
    Prog.Asks exec (assertRootIdentity rootPartition) 3 := by
  apply Prog.asks_bind (m := 1) (n := 2) (asks_resolve _ _)
  intro slot
  apply Prog.asks_bind (m := 0) (n := 2) asks_require
  intro _
  apply Prog.asks_bind (m := 1) (n := 1) (asks_command _)
  intro fstype
  apply Prog.asks_bind (m := 0) (n := 1) asks_require
  intro _
  exact Prog.asks_bind (m := 1) (n := 0) (asks_command _) fun _ => asks_require

theorem asks_assertBootIdentity (plan : GrowthPlan) :
    Prog.Asks exec (assertBootIdentity plan) 3 := by
  unfold assertBootIdentity
  split
  · apply Prog.asks_bind (m := 1) (n := 2) (asks_resolve _ _)
    intro bootPartition
    apply Prog.asks_bind (m := 1) (n := 1) (asks_resolve _ _)
    intro expectedPartition
    apply Prog.asks_bind (m := 0) (n := 1) asks_require
    intro _
    exact Prog.asks_bind (m := 1) (n := 0) (asks_command _) fun _ => asks_require
  · exact Prog.asks_raise _ 3

theorem asks_locateRoot : Prog.Asks exec locateRoot 2 :=
  Prog.asks_bind (m := 1) (n := 1) (asks_command _) fun _ => asks_resolve _ _

theorem asks_assertTableDisk (plan : GrowthPlan) (disk : String) :
    Prog.Asks exec (assertTableDisk plan disk) 2 := by
  apply Prog.asks_bind (m := 1) (n := 1) (asks_resolve _ _)
  intro tableDisk
  exact Prog.asks_bind (m := 1) (n := 0) (asks_resolve _ _) fun _ => asks_require

theorem asks_resizeFilesystem (rootPartition : String) :
    Prog.Asks exec (resizeFilesystem rootPartition) 1 :=
  Prog.asks_bind (m := 1) (n := 0) (asks_command _) fun _ => Prog.asks_ret ()

theorem asks_verifyExpandedGeometry (before after : GrowthPlan) :
    Prog.Asks exec (verifyExpandedGeometry before after) 0 := by
  apply Prog.asks_bind (m := 0) (n := 0) asks_require
  intro _
  apply Prog.asks_bind (m := 0) (n := 0) asks_require
  intro _
  apply Prog.asks_bind (m := 0) (n := 0) asks_require
  intro _
  apply Prog.asks_bind (m := 0) (n := 0) asks_require
  intro _
  apply Prog.asks_bind (m := 0) (n := 0) asks_require
  intro _
  exact Prog.asks_bind (m := 0) (n := 0) asks_require fun _ => asks_require

/-- Where the partition is grown, two commands are asked. -/
theorem asks_growPartition (before : GrowthPlan) (disk partitionNumber : String) :
    Prog.Asks exec (growPartition before disk partitionNumber)
      (if before.needsPartitionGrowth then 2 else 0) := by
  unfold growPartition
  split
  · apply Prog.asks_bind (m := 1) (n := 1) (asks_command _)
    intro _
    exact Prog.asks_bind (m := 1) (n := 0) (asks_command _) fun _ => Prog.asks_ret ()
  · exact Prog.asks_ret ()

theorem asks_toInt [PyUnicode] (text : String) : Prog.Asks exec (toInt text) 0 := by
  unfold toInt
  split
  · exact Prog.asks_ret _
  · exact Prog.asks_raise _ 0

theorem asks_locateDevice [PyUnicode] (rootPartition : String) :
    Prog.Asks exec (locateDevice rootPartition) 3 := by
  apply Prog.asks_bind (m := 1) (n := 2) (asks_command _)
  intro parentName
  apply Prog.asks_bind (m := 1) (n := 1) (asks_command _)
  intro partitionNumber
  apply Prog.asks_bind (m := 0) (n := 1) asks_require
  intro _
  apply Prog.asks_bind (m := 0) (n := 1) asks_require
  intro _
  apply Prog.asks_bind (m := 0) (n := 1) asks_require
  intro _
  apply Prog.asks_bind (m := 1) (n := 0) (asks_command _)
  intro size
  exact Prog.asks_bind (m := 0) (n := 0) (asks_toInt _) fun _ => Prog.asks_ret _

theorem asks_filledFilesystem [PyUnicode] (rootPartition : String) (plan : GrowthPlan) :
    Prog.Asks exec (filledFilesystem rootPartition plan) 1 := by
  apply Prog.asks_bind (m := 1) (n := 0)
  · apply Prog.asks_bind (m := 1) (n := 0) (asks_command _)
    intro output
    split
    · apply Prog.asks_bind (m := 0) (n := 0) (asks_toInt _)
      intro count
      exact Prog.asks_bind (m := 0) (n := 0) (asks_toInt _) fun _ => Prog.asks_ret _
    · exact Prog.asks_raise _ 0
  · intro filesystemBytes
    apply Prog.asks_bind (m := 0) (n := 0)
    · exact Prog.asks_bind (m := 0) (n := 0) asks_require fun _ => asks_require
    · exact fun _ => Prog.asks_ret _

theorem asks_integer (value : Json) (name : String) : Prog.Asks exec (integer value name) 0 := by
  unfold integer
  split
  · split
    · exact Prog.asks_ret _
    · exact Prog.asks_raise _ 0
  · exact Prog.asks_ret _
  · exact Prog.asks_raise _ 0

theorem asks_requireDict (value : Json) (message : String) :
    Prog.Asks exec (requireDict value message) 0 := by
  unfold requireDict
  split
  · exact Prog.asks_ret _
  · exact Prog.asks_raise _ 0

theorem asks_requirePair (value : Json) (message : String) :
    Prog.Asks exec (requirePair value message) 0 := by
  unfold requirePair
  split
  · exact Prog.asks_ret _
  · exact Prog.asks_raise _ 0

theorem asks_readEntry (partition : Json) : Prog.Asks exec (readEntry partition) 0 := by
  apply Prog.asks_bind (m := 0) (n := 0) (asks_requireDict _ _)
  intro fields
  apply Prog.asks_bind (m := 0) (n := 0) (asks_integer _ _)
  intro start
  apply Prog.asks_bind (m := 0) (n := 0) (asks_integer _ _)
  intro size
  exact Prog.asks_bind (m := 0) (n := 0) asks_require fun _ => Prog.asks_ret _

variable [PyRepr]

theorem asks_isRoot (normalizedRoot : String) (e : Entry) :
    Prog.Asks exec (isRoot normalizedRoot e) 1 :=
  Prog.asks_bind (m := 1) (n := 0) (asks_resolve _ _) fun _ => Prog.asks_ret _

theorem asks_planOf (table : List (PyStr × Json)) (sectorSize : PyInt) (D : Int)
    (root other : Entry) : Prog.Asks exec (planOf table sectorSize D root other) 0 := by
  apply Prog.asks_bind (m := 0) (n := 0) asks_require
  intro _
  exact Prog.asks_bind (m := 0) (n := 0) asks_require fun _ => Prog.asks_ret _

theorem asks_analyzeTable (table partitions : Json) (rootPartition : String) (D : Int) :
    Prog.Asks exec (analyzeTable table partitions rootPartition D) 3 := by
  apply Prog.asks_bind (m := 0) (n := 3) (asks_requireDict _ _)
  intro table
  apply Prog.asks_bind (m := 0) (n := 3) asks_require
  intro _
  apply Prog.asks_bind (m := 0) (n := 3) asks_require
  intro _
  apply Prog.asks_bind (m := 0) (n := 3) (asks_requirePair _ _)
  intro pair
  apply Prog.asks_bind (m := 0) (n := 3) (asks_integer _ _)
  intro sectorSize
  apply Prog.asks_bind (m := 0) (n := 3) asks_require
  intro _
  apply Prog.asks_bind (m := 0) (n := 3) asks_require
  intro _
  -- the three paths that are resolved: the root and the two entries
  apply Prog.asks_bind (m := 1) (n := 2) (asks_resolve _ _)
  intro normalizedRoot
  apply Prog.asks_bind (m := 0) (n := 2) (asks_readEntry _)
  intro first
  apply Prog.asks_bind (m := 0) (n := 2) (asks_readEntry _)
  intro second
  apply Prog.asks_bind (m := 1) (n := 1) (asks_isRoot _ _)
  intro firstIsRoot
  apply Prog.asks_bind (m := 1) (n := 0) (asks_isRoot _ _)
  intro secondIsRoot
  cases firstIsRoot <;> cases secondIsRoot
  · exact Prog.asks_raise _ 0
  · exact asks_planOf _ _ _ _ _
  · exact asks_planOf _ _ _ _ _
  · exact Prog.asks_raise _ 0

theorem asks_readTable (disk rootPartition : String) (D : Int) :
    Prog.Asks exec (readTable disk rootPartition D) 4 := by
  apply Prog.asks_bind (m := 1) (n := 3) (asks_command _)
  intro tableJson
  unfold analyzePartitionTable
  split
  · exact Prog.asks_raise _ 3
  · exact asks_analyzeTable _ _ _ _

end

/-! ## The writing of the completion -/

theorem asks_writeCompletion (plan : GrowthPlan) (F : Int) :
    Prog.Asks exec (writeCompletion plan F) 12 := by
  apply Prog.asks_bind (m := 8) (n := 4)
  · apply Prog.asks_bind (m := 1) (n := 7) (asks_perform (.mkdirParent _))
    intro _
    apply Prog.asks_bind (m := 1) (n := 6) (asks_perform .openTemporary)
    intro _
    apply Prog.asks_bind (m := 5) (n := 1)
    · apply Prog.asks_finallyDo (m := 4) (n := 1) ?_ (asks_perform .close)
      apply Prog.asks_bind (m := 1) (n := 3) (asks_perform (.write _))
      intro _
      apply Prog.asks_bind (m := 1) (n := 2) (asks_perform (.write _))
      intro _
      exact Prog.asks_bind (m := 1) (n := 1) (asks_perform .flush) fun _ => asks_perform .fsync
    · intro _
      exact asks_perform (.chmod _)
  · intro _
    apply Prog.asks_bind (m := 1) (n := 3) (asks_perform .replace)
    intro _
    apply Prog.asks_bind (m := 1) (n := 2) (asks_perform .openDirectory)
    intro _
    exact Prog.asks_finallyDo (m := 1) (n := 1) (asks_perform .fsyncDirectory)
      (asks_perform .closeDirectory)

def writingOps (plan : GrowthPlan) (F : Int) : List GrowOp :=
  [.mkdirParent 0o750, .openTemporary, .write (recordJson plan F), .write ['\n'], .flush, .fsync,
    .close, .chmod 0o640, .replace, .openDirectory, .fsyncDirectory, .closeDirectory]

/-- A list of `n` answers. -/
abbrev Answers (n : Nat) : Type := {answers : List Answer // answers.length = n}

/-- Where no operation fails, the completion is written. -/
theorem exists_writeCompletion (plan : GrowthPlan) (F : Int) {writing : Answers 12}
    (hwriting : ∀ a ∈ writing.val, a.fails = none) (s : Disk) :
    ∃ t, (writeCompletion plan F).Answered exec s writing.val (writingOps plan F) () t := by
  obtain ⟨answers, hlength⟩ := writing
  match answers, hlength, hwriting with
  | [⟨f₁, _, _, _⟩, ⟨f₂, _, _, _⟩, ⟨f₃, _, _, _⟩, ⟨f₄, _, _, _⟩, ⟨f₅, _, _, _⟩, ⟨f₆, _, _, _⟩,
      ⟨f₇, _, _, _⟩, ⟨f₈, _, _, _⟩, ⟨f₉, _, _, _⟩, ⟨f₁₀, _, _, _⟩, ⟨f₁₁, _, _, _⟩, ⟨f₁₂, _, _, _⟩],
      _, h =>
    simp only [List.forall_mem_cons] at h
    obtain ⟨rfl, rfl, rfl, rfl, rfl, rfl, rfl, rfl, rfl, rfl, rfl, rfl, -⟩ := h
    -- twelve steps, each of which takes the effect of its operation
    exact ⟨_, .op (.op (.op (.op (.op (.op (.op (.op (.op (.op (.op (.op (.ret _ _))))))))))))⟩


/-! ## A card that is grown

A device of sixteen sectors of 4 MiB. BOOT is sector 1 and ROOT begins at sector 2. At first ROOT
has four sectors, so that 40 MiB are left behind it; after `growpart` it has fourteen and reaches
the end.
-/

/-- BOOT and ROOT of a card, of which ROOT has some sectors. -/
def cardPartitions (rootSectors : Int) : Json :=
  .arr [.obj [("node", .str "/dev/mmcblk0p1"), ("start", .int 1), ("size", .int 1),
      ("type", .str "c"), ("bootable", .bool true)],
    .obj [("node", .str "/dev/mmcblk0p2"), ("start", .int 2), ("size", .int rootSectors),
      ("type", .str "83")]]

def cardTable (rootSectors : Int) : Json :=
  .obj [("label", .str "dos"), ("device", .str "/dev/mmcblk0"), ("unit", .str "sectors"),
    ("sectorsize", .int 4194304), ("partitions", cardPartitions rootSectors)]

/-- As `sfdisk --json` prints it. -/
def cardJson (rootSectors : Int) : List Char :=
  Json.dumps ⟨true, 1, 1, none⟩ (.obj [("partitiontable", cardTable rootSectors)])

/-- The plan of the table with `n` sectors of ROOT. -/
def cardPlan (n : Int) : GrowthPlan where
  disk := "/dev/mmcblk0"
  rootPartition := "/dev/mmcblk0p2"
  sectorSize := .int 4194304
  startSector := .int 2
  partitionSectors := .int n
  endSector := n + 1
  finalUsableSector := 15
  trailingBytes := (14 - n) * 4194304
  unchangedPartitions := [⟨"/dev/mmcblk0p1", .int 1, .int 1, "c", true⟩]

def printed (text : String) : Answer :=
  { process := ⟨0, text, ""⟩ }

def leadsTo (path : String) : Answer :=
  { path := path }

def cardTableAnswers (rootSectors : Int) : List Answer :=
  [printed (String.ofList (cardJson rootSectors ++ ['\n'])), leadsTo "/dev/mmcblk0p2",
    leadsTo "/dev/mmcblk0p1", leadsTo "/dev/mmcblk0p2"]

def cardRootAnswers : List Answer :=
  [leadsTo "/dev/mmcblk0p2", printed "ext4\n", printed "ROOT\n"]

def cardBootAnswers : List Answer :=
  [leadsTo "/dev/mmcblk0p1", leadsTo "/dev/mmcblk0p1", printed "BOOT\n"]

def cardSurveyAnswers : List Answer :=
  [printed "/dev/mmcblk0p2\n", leadsTo "/dev/mmcblk0p2"] ++ (cardRootAnswers ++
    ([printed "mmcblk0\n", printed "2\n", printed "67108864\n"] ++ (cardTableAnswers 4 ++
      ([leadsTo "/dev/mmcblk0", leadsTo "/dev/mmcblk0"] ++ (cardBootAnswers ++ [])))))

def cardGrowthAnswers : List Answer :=
  [printed "", printed ""] ++ (cardTableAnswers 14 ++ ([] ++ (cardRootAnswers ++
    (cardBootAnswers ++ ([printed ""] ++ (cardRootAnswers ++ (cardBootAnswers ++
      ([printed "Block count:              14336\nBlock size:               4096\n"] ++ []))))))))

def cardTableOps : List GrowOp :=
  [.run [SFDISK, "--json", "/dev/mmcblk0"], .resolve "/dev/mmcblk0p2" false,
    .resolve "/dev/mmcblk0p1" false, .resolve "/dev/mmcblk0p2" false]

def cardRootOps : List GrowOp :=
  [.resolve "/dev/disk/by-slot/system" true, .run [FINDMNT, "-n", "-o", "FSTYPE", "/"],
    .run [BLKID, "-s", "LABEL", "-o", "value", "/dev/mmcblk0p2"]]

def cardBootOps : List GrowOp :=
  [.resolve "/dev/disk/by-slot/boot" true, .resolve "/dev/mmcblk0p1" true,
    .run [BLKID, "-s", "LABEL", "-o", "value", "/dev/mmcblk0p1"]]

def cardSurveyOps : List GrowOp :=
  [.run [FINDMNT, "-n", "-o", "SOURCE", "/"], .resolve "/dev/mmcblk0p2" true] ++ (cardRootOps ++
    ([.run [LSBLK, "-dn", "-o", "PKNAME", "/dev/mmcblk0p2"],
        .run [LSBLK, "-dn", "-o", "PARTN", "/dev/mmcblk0p2"],
        .run [BLOCKDEV, "--getsize64", "/dev/mmcblk0"]] ++ (cardTableOps ++
      ([.resolve "/dev/mmcblk0" true, .resolve "/dev/mmcblk0" true] ++ (cardBootOps ++ [])))))

def cardGrowthOps : List GrowOp :=
  [.run [GROWPART, "/dev/mmcblk0", "2"], .run [UDEVADM, "settle"]] ++ (cardTableOps ++ ([] ++
    (cardRootOps ++ (cardBootOps ++ ([.run [RESIZE2FS, "/dev/mmcblk0p2"]] ++ (cardRootOps ++
      (cardBootOps ++ ([.run [DUMPE2FS, "-h", "/dev/mmcblk0p2"]] ++ []))))))))

section

variable (s : Disk)

theorem answered_cardRoot :
    (assertRootIdentity "/dev/mmcblk0p2").Answered exec s cardRootAnswers cardRootOps () s :=
  .op (.op (.op (.ret _ _)))

theorem answered_cardBoot (n : Int) :
    (assertBootIdentity (cardPlan n)).Answered exec s cardBootAnswers cardBootOps () s :=
  .op (.op (.op (.ret _ _)))

/-- A command prints a line and returns it stripped. -/
theorem answered_command (arguments : List String) {text output : String}
    (h : Py.strip text = output) :
    (command arguments).Answered exec s [printed text] [.run arguments] output s := by
  rw [← h]
  exact .op (.ret _ s)

omit s in
/-- The table is read as it was printed. -/
theorem openTable_card {n : Int} (hn : n.natAbs < 10 ^ 5) :
    @openTable plainRepr (String.ofList (cardJson n)) = .ok (cardTable n, cardPartitions n) := by
  have hint : ∀ (d : Nat) (m : Int), 0 < d → d ≤ 4300 → m.natAbs < 10 ^ d → (Json.int m).Plain := by
    intro d m hd hle hm
    have hlen := (Nat.length_toDigits_le_iff (b := 10) (by decide) hd).mpr hm
    exact Nat.le_trans hlen hle
  have hplain : (Json.obj [("partitiontable", cardTable n)]).Plain := by
    simp only [cardTable, cardPartitions, Json.Plain, Json.PlainFields, Json.PlainItems]
    have h₁ := hint 5 1 (by decide) (by decide) (by decide)
    have h₂ := hint 5 2 (by decide) (by decide) (by decide)
    have hsector := hint 7 4194304 (by decide) (by decide) (by decide)
    refine ⟨by simp [Json.PlainKeys], ⟨by simp [Json.PlainKeys], trivial, trivial, trivial,
      hsector, ?_, trivial⟩, trivial⟩
    exact ⟨⟨by simp [Json.PlainKeys], trivial, h₁, h₁, trivial, trivial, trivial⟩,
      ⟨by simp [Json.PlainKeys], trivial, h₂, hint 5 n (by decide) (by decide) hn, trivial, trivial⟩,
      trivial⟩
  have hloads := @Json.loads_dumps ⟨true, 1, 1, none⟩ plainRepr.toNesting _ hplain
    (Nat.le_of_ble_eq_true rfl)
  have htext : (String.ofList (cardJson n)).toList
      = Json.dumps ⟨true, 1, 1, none⟩ (.obj [("partitiontable", cardTable n)]) := by
    rw [String.toList_ofList, cardJson]
  rw [← htext] at hloads
  exact @openTable_of_loads plainRepr _ _ _ hloads rfl

theorem answered_cardTable {n : Int} (hn : n.natAbs < 10 ^ 5)
    (h : (@analyzeTable plainRepr (cardTable n) (cardPartitions n) "/dev/mmcblk0p2"
      67108864).Answered exec s (cardTableAnswers n).tail cardTableOps.tail (cardPlan n) s) :
    (@readTable plainRepr "/dev/mmcblk0" "/dev/mmcblk0p2" 67108864).Answered exec s
      (cardTableAnswers n) cardTableOps (cardPlan n) s := by
  -- the answer is read as it was printed, without the line break
  have hstrip : Py.strip (String.ofList (cardJson n ++ ['\n'])) = String.ofList (cardJson n) := by
    obtain ⟨body, hbody⟩ : ∃ body, cardJson n = ('{' :: body) ++ ['}'] := ⟨_, rfl⟩
    have hlast : ∀ c ∈ (('{' :: body) ++ ['}']).getLast?, Py.isSpace c = false := by
      rw [List.getLast?_concat]
      simp [Py.isSpace]
    rw [Py.strip, String.toList_ofList, Py.stripChars_append_space _ (by decide), hbody,
      Py.stripChars_of_ends (by simp [Py.isSpace]) hlast]
  apply (answered_command s _ hstrip).bind
  rw [@analyzePartitionTable_eq plainRepr _ _ _ (openTable_card hn)]
  exact h

/-- The survey of the card returns. -/
theorem answered_cardSurvey : (@survey asciiUnicode plainRepr).Answered exec s cardSurveyAnswers
    cardSurveyOps ⟨"/dev/mmcblk0p2", "/dev/mmcblk0", "2", 67108864, cardPlan 4⟩ s := by
  have hroot : locateRoot.Answered exec s [printed "/dev/mmcblk0p2\n", leadsTo "/dev/mmcblk0p2"]
      [.run [FINDMNT, "-n", "-o", "SOURCE", "/"], .resolve "/dev/mmcblk0p2" true]
      "/dev/mmcblk0p2" s :=
    .op (.op (.ret _ _))
  have hdevice : (@locateDevice asciiUnicode "/dev/mmcblk0p2").Answered exec s
      [printed "mmcblk0\n", printed "2\n", printed "67108864\n"]
      [.run [LSBLK, "-dn", "-o", "PKNAME", "/dev/mmcblk0p2"],
        .run [LSBLK, "-dn", "-o", "PARTN", "/dev/mmcblk0p2"],
        .run [BLOCKDEV, "--getsize64", "/dev/mmcblk0"]]
      ("/dev/mmcblk0", "2", 67108864) s :=
    .op (.op (.op (.ret _ _)))
  have htable := answered_cardTable s (n := 4) (by decide) (.op (.op (.op (.ret _ _))))
  have hdisks : (assertTableDisk (cardPlan 4) "/dev/mmcblk0").Answered exec s
      [leadsTo "/dev/mmcblk0", leadsTo "/dev/mmcblk0"]
      [.resolve "/dev/mmcblk0" true, .resolve "/dev/mmcblk0" true] () s :=
    .op (.op (.ret _ _))
  apply hroot.bind
  apply (answered_cardRoot s).bind
  apply hdevice.bind
  apply htable.bind
  apply hdisks.bind
  apply (answered_cardBoot s 4).bind
  exact .ret _ s

/-- The growth of the card returns. -/
theorem answered_cardGrowth : (@growSurveyed asciiUnicode plainRepr
    ⟨"/dev/mmcblk0p2", "/dev/mmcblk0", "2", 67108864, cardPlan 4⟩).Answered exec s
      cardGrowthAnswers cardGrowthOps (67108864, cardPlan 14, 58720256) s := by
  -- the answers of each stage, in the order of the run
  have hgrow : (growPartition (cardPlan 4) "/dev/mmcblk0" "2").Answered exec s
      [printed "", printed ""]
      [.run [GROWPART, "/dev/mmcblk0", "2"], .run [UDEVADM, "settle"]] () s :=
    .op (.op (.ret _ _))
  have htable := answered_cardTable s (n := 14) (by decide) (.op (.op (.op (.ret _ _))))
  have hverified : (verifyExpandedGeometry (cardPlan 4) (cardPlan 14)).Answered exec s [] [] () s :=
    .ret _ s
  have hresize : (resizeFilesystem "/dev/mmcblk0p2").Answered exec s [printed ""]
      [.run [RESIZE2FS, "/dev/mmcblk0p2"]] () s :=
    .op (.ret _ s)
  have hfilled : (@filledFilesystem asciiUnicode "/dev/mmcblk0p2" (cardPlan 14)).Answered exec s
      [printed "Block count:              14336\nBlock size:               4096\n"]
      [.run [DUMPE2FS, "-h", "/dev/mmcblk0p2"]] 58720256 s :=
    .op (.ret _ s)
  -- the stages one after the other; the tree is looked at before and after the growth
  apply hgrow.bind
  apply htable.bind
  apply hverified.bind
  apply (answered_cardRoot s).bind
  apply (answered_cardBoot s 14).bind
  apply hresize.bind
  apply (answered_cardRoot s).bind
  apply (answered_cardBoot s 14).bind
  apply hfilled.bind
  exact .ret _ s

theorem answered_card : (@growAndVerify asciiUnicode plainRepr).Answered exec s
    (cardSurveyAnswers ++ cardGrowthAnswers) (cardSurveyOps ++ cardGrowthOps)
      (67108864, cardPlan 14, 58720256) s := by
  rw [@growAndVerify_eq asciiUnicode plainRepr]
  exact (answered_cardSurvey s).bind (answered_cardGrowth s)

end

end Storage

end Rave
