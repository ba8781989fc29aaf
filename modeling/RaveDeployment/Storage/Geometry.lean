import RaveDeployment.Storage.Device
import RaveDeployment.Lib.JsonRead

/-!
# Partition tables

`analyze_partition_table` with the checks of a plan, and what an accepted plan says of the device
(`Analyzed`). Sectors and bytes are integers without a bound. The texts of the table are Python's,
which may hold half a surrogate pair.
-/

namespace Rave

namespace Storage

def MAX_TRAILING_BYTES : Int := 16 * 1024 * 1024

/-- What Python says of a document beyond its text: how deep it may be nested, how a float, a list or
a dict is printed, and whether a float is zero. -/
class PyRepr extends Json.Nesting where
  repr : Json → String
  floatIsZero : List Char → Bool

/-- For tables without a float and without a nested text. -/
@[reducible] def plainRepr : PyRepr where
  toNesting := .default
  repr _ := ""
  floatIsZero _ := false

/-- `str(value)`. -/
def pyStr [PyRepr] : Json → PyStr
  | .null => "None"
  | .bool true => "True"
  | .bool false => "False"
  | .int n => (toString n : String)
  | .str s => s
  | v => PyRepr.repr v

/-- `bool(value)`. -/
def truthy [PyRepr] : Json → Bool
  | .null => false
  | .bool b => b
  | .int n => n ≠ 0
  | .float lexeme => !PyRepr.floatIsZero lexeme
  | .str s => s ≠ ("" : PyStr)
  | .arr items => !items.isEmpty
  | .obj fields => !fields.isEmpty

/-- What `isinstance(value, int)` admits: `True` and `False` are integers. -/
inductive PyInt where
  | int (n : Int)
  | bool (b : Bool)
  deriving DecidableEq

namespace PyInt

def val : PyInt → Int
  | int n => n
  | bool b => if b then 1 else 0

def toJson : PyInt → Json
  | int n => .int n
  | bool b => .bool b

end PyInt

/-- A partition other than ROOT, as a plan keeps it. -/
structure Unchanged where
  node : PyStr
  start : PyInt
  size : PyInt
  type : PyStr
  bootable : Bool
  deriving DecidableEq

def Unchanged.key (u : Unchanged) : PyStr × Int × Int × PyStr × Bool :=
  (u.node, u.start.val, u.size.val, u.type, u.bootable)

/-- `GrowthPlan`, of which the paths are texts. -/
structure GrowthPlan where
  disk : PyStr
  rootPartition : PyStr
  sectorSize : PyInt
  startSector : PyInt
  partitionSectors : PyInt
  endSector : Int
  finalUsableSector : Int
  trailingBytes : Int
  unchangedPartitions : List Unchanged
  deriving DecidableEq

/-- `needs_partition_growth`. -/
def GrowthPlan.needsPartitionGrowth (plan : GrowthPlan) : Bool :=
  MAX_TRAILING_BYTES < plan.trailingBytes

/-- `_integer`. -/
def integer (value : Json) (name : String) : GrowM PyInt :=
  match value with
  | .int n =>
    if 0 ≤ n then .ret (.int n)
    else .raise (.expansionError ("invalid " ++ name ++ " in partition table"))
  | .bool b => .ret (.bool b)
  | _ => .raise (.expansionError ("invalid " ++ name ++ " in partition table"))

/-- `value[key]`, where it raises neither `KeyError` nor `TypeError`. -/
def subscript : Json → String → Option Json
  | .obj fields, key => Json.get? fields key
  | _, _ => none

def tableOf (document : Json) : Option (Json × Json) := do
  let table ← subscript document "partitiontable"
  let partitions ← subscript table "partitions"
  return (table, partitions)

/-- What becomes of an exception of `json.loads`: of the three only `JSONDecodeError` is caught. -/
def GrowError.ofLoad : Json.LoadError → GrowError
  | .decode => .expansionError "invalid partition table JSON"
  | .digits => .valueError
  | .recursion => .runtimeError

/-- The `try` statement of `analyze_partition_table`. -/
def openTable [PyRepr] (tableJson : String) : Except GrowError (Json × Json) :=
  match Json.loads tableJson.toList with
  | .error e => .error (.ofLoad e)
  | .ok document =>
    match tableOf document with
    | none => .error (.expansionError "invalid partition table JSON")
    | some parts => .ok parts

/-- What a document that can be read is opened as. -/
theorem openTable_of_loads [PyRepr] {tableJson : String} {document : Json} {parts : Json × Json}
    (hloads : Json.loads tableJson.toList = .ok document) (hparts : tableOf document = some parts) :
    openTable tableJson = .ok parts := by
  rw [openTable, hloads]
  simp only [hparts]

/-- `value == text`. -/
def isText (value : Option Json) (text : String) : Bool :=
  match value with
  | some (.str s) => s = (text : PyStr)
  | _ => false

/-- `dict.get(key, default)`. -/
def getOr (fields : List (PyStr × Json)) (key : String) (default : Json) : Json :=
  (Json.get? fields key).getD default

/-- `require(isinstance(value, dict), message)`. -/
def requireDict (value : Json) (message : String) : GrowM (List (PyStr × Json)) :=
  match value with
  | .obj fields => .ret fields
  | _ => .raise (.expansionError message)

/-- `require(isinstance(value, list) and len(value) == 2, message)`. -/
def requirePair (value : Json) (message : String) : GrowM (Json × Json) :=
  match value with
  | .arr [first, second] => .ret (first, second)
  | _ => .raise (.expansionError message)

/-- An entry of the loop over the partitions. -/
structure Entry where
  partition : List (PyStr × Json)
  start : PyInt
  size : PyInt
  endSector : Int

/-- The body of the loop over the partitions, up to the comparison with ROOT. -/
def readEntry (partition : Json) : GrowM Entry := do
  let fields ← requireDict partition "invalid partition entry"
  let start ← integer (getOr fields "start" .null) "partition start"
  let size ← integer (getOr fields "size" .null) "partition size"
  require (0 < size.val) "partition size is zero"
  return ⟨fields, start, size, start.val + size.val - 1⟩

section

variable [PyRepr]

/-- What a plan keeps of a partition that is not ROOT. -/
def Entry.unchanged (e : Entry) : Unchanged where
  node := pyStr (getOr e.partition "node" .null)
  start := e.start
  size := e.size
  type := pyStr (getOr e.partition "type" (.str ""))
  bootable := truthy (getOr e.partition "bootable" (.bool false))

def isRoot (normalizedRoot : String) (e : Entry) : GrowM Bool := do
  let node ← resolve (pyStr (getOr e.partition "node" .null)) false
  return node = normalizedRoot

/-- The rest of `analyze_partition_table`, once ROOT has been found. -/
def planOf (table : List (PyStr × Json)) (sectorSize : PyInt) (deviceBytes : Int)
    (root other : Entry) : GrowM GrowthPlan := do
  require (root.endSector = max root.endSector other.endSector) "ROOT must be the final partition"
  -- the sector size is positive, so that this is Python's floor division
  let finalUsableSector := deviceBytes / sectorSize.val - 1
  require (root.endSector ≤ finalUsableSector) "ROOT extends beyond the physical boot device"
  return {
    disk := pyStr (getOr table "device" .null)
    rootPartition := pyStr (getOr root.partition "node" .null)
    sectorSize := sectorSize
    startSector := root.start
    partitionSectors := root.size
    endSector := root.endSector
    finalUsableSector := finalUsableSector
    trailingBytes := (finalUsableSector - root.endSector) * sectorSize.val
    unchangedPartitions := [other.unchanged] }

/-- `analyze_partition_table` on a document that has been read. -/
def analyzeTable (table partitions : Json) (rootPartition : String) (deviceBytes : Int) :
    GrowM GrowthPlan := do
  let table ← requireDict table "invalid partition table"
  require (isText (Json.get? table "label") "dos")
    "boot device must use the expected MBR partition table"
  require (isText (Json.get? table "unit") "sectors") "partition table must report sector units"
  let (first, second) ← requirePair partitions
    "ROOT must be the final partition in an exact BOOT/ROOT layout"
  let sectorSize ← integer (getOr table "sectorsize" .null) "sector size"
  require (0 < sectorSize.val) "partition-table sector size is zero"
  require (sectorSize.val ≤ deviceBytes) "boot device size is invalid"
  let normalizedRoot ← resolve rootPartition false
  let first ← readEntry first
  let second ← readEntry second
  let firstIsRoot ← isRoot normalizedRoot first
  let secondIsRoot ← isRoot normalizedRoot second
  -- exactly one entry is the root, and the other one is what must not change
  match firstIsRoot, secondIsRoot with
  | true, false => planOf table sectorSize deviceBytes first second
  | false, true => planOf table sectorSize deviceBytes second first
  | _, _ =>
    throw (.expansionError "ROOT partition is not uniquely present in the partition table")

/-- `analyze_partition_table`. -/
def analyzePartitionTable (tableJson rootPartition : String) (deviceBytes : Int) :
    GrowM GrowthPlan :=
  match openTable tableJson with
  | .error e => .raise e
  | .ok (table, partitions) => analyzeTable table partitions rootPartition deviceBytes

/-- A document that is opened is analyzed. -/
theorem analyzePartitionTable_eq {tableJson : String} {table partitions : Json}
    (h : openTable tableJson = .ok (table, partitions)) (rootPartition : String)
    (deviceBytes : Int) : analyzePartitionTable tableJson rootPartition deviceBytes
      = analyzeTable table partitions rootPartition deviceBytes := by
  unfold analyzePartitionTable
  rw [h]

end

/-- `verify_expanded_geometry`. -/
def verifyExpandedGeometry (before after : GrowthPlan) : GrowM Unit := do
  require (after.disk = before.disk) "boot device changed during ROOT expansion"
  require (after.rootPartition = before.rootPartition) "ROOT partition changed during expansion"
  require (after.startSector.val = before.startSector.val) "ROOT partition start sector changed"
  require (before.endSector ≤ after.endSector) "ROOT partition became smaller"
  require (after.finalUsableSector = before.finalUsableSector) "boot device geometry changed"
  require (after.unchangedPartitions.map Unchanged.key
    = before.unchangedPartitions.map Unchanged.key) "BOOT partition changed"
  require (after.trailingBytes ≤ MAX_TRAILING_BYTES)
    "multi-gigabyte trailing capacity remains after ROOT expansion"

/-- `verify_filesystem_size`. -/
def verifyFilesystemSize (partitionBytes filesystemBytes : Int) : GrowM Unit := do
  require (filesystemBytes ≤ partitionBytes) "ext4 filesystem exceeds ROOT partition"
  require (partitionBytes - filesystemBytes ≤ MAX_TRAILING_BYTES)
    "ext4 filesystem does not fill the expanded ROOT partition"

/-! ## Accepted plans

What the checks establish of a plan, for any answers and any table. -/

/-- What a plan that was accepted says of a device of `D` bytes. -/
structure Analyzed (D : Int) (plan : GrowthPlan) : Prop where
  sector_pos : 0 < plan.sectorSize.val
  start_nonneg : 0 ≤ plan.startSector.val
  size_pos : 0 < plan.partitionSectors.val
  end_eq : plan.endSector = plan.startSector.val + plan.partitionSectors.val - 1
  usable_eq : plan.finalUsableSector = D / plan.sectorSize.val - 1
  end_le : plan.endSector ≤ plan.finalUsableSector
  trailing_eq : plan.trailingBytes
    = (plan.finalUsableSector - plan.endSector) * plan.sectorSize.val
  boot : ∃ b, plan.unchangedPartitions = [b] ∧ 0 ≤ b.start.val ∧ 0 < b.size.val
    ∧ b.start.val + b.size.val - 1 ≤ plan.endSector

variable {ok : GrowOp → Prop}

/-- What passes for a number is not negative. -/
theorem within_integer (value : Json) (name : String) :
    Prog.Within ok (integer value name) fun n => 0 ≤ n.val := by
  unfold integer
  split
  · split
    · next h => exact Prog.within_ret h
    · exact Prog.within_raise _
  · next b =>
    apply Prog.within_ret
    cases b <;> decide
  · exact Prog.within_raise _

/-- An object, or an exception. -/
theorem within_requireDict (value : Json) (message : String) :
    Prog.Within ok (requireDict value message) fun _ => True := by
  unfold requireDict
  split
  · exact Prog.within_ret trivial
  · exact Prog.within_raise _

/-- Two entries, or an exception. -/
theorem within_requirePair (value : Json) (message : String) :
    Prog.Within ok (requirePair value message) fun _ => True := by
  unfold requirePair
  split
  · exact Prog.within_ret trivial
  · exact Prog.within_raise _

/-- What the loop has checked of an entry. -/
structure Entry.Valid (e : Entry) : Prop where
  start_nonneg : 0 ≤ e.start.val
  size_pos : 0 < e.size.val
  end_eq : e.endSector = e.start.val + e.size.val - 1

/-- An entry that is read is valid. -/
theorem within_readEntry (partition : Json) :
    Prog.Within ok (readEntry partition) Entry.Valid := by
  apply Prog.within_bind (within_requireDict _ _)
  intro fields _
  apply Prog.within_bind (within_integer _ _)
  intro start hstart
  apply Prog.within_bind (within_integer _ _)
  intro size _
  apply Prog.within_bind within_require
  intro _ hsize
  exact Prog.within_ret ⟨hstart, hsize, rfl⟩

variable [PyRepr] [Looks ok]

/-- Comparing an entry with ROOT looks. -/
theorem within_isRoot (normalizedRoot : String) (e : Entry) :
    Prog.Within ok (isRoot normalizedRoot e) fun _ => True := by
  apply Prog.within_bind (within_resolve _ _)
  intro node _
  exact Prog.within_ret trivial

omit [Looks ok] in
/-- A plan that is made has been analyzed. -/
theorem within_planOf (table : List (PyStr × Json)) {sectorSize : PyInt}
    (hsector : 0 < sectorSize.val) (D : Int) {root other : Entry} (hroot : root.Valid)
    (hother : other.Valid) :
    Prog.Within ok (planOf table sectorSize D root other) (Analyzed D) := by
  apply Prog.within_bind within_require
  intro _ hmax
  apply Prog.within_bind within_require
  intro _ hend
  apply Prog.within_ret
  refine ⟨hsector, hroot.start_nonneg, hroot.size_pos, hroot.end_eq, rfl, hend, rfl, ?_⟩
  refine ⟨other.unchanged, rfl, hother.start_nonneg, hother.size_pos, ?_⟩
  have hother_end := hother.end_eq
  show other.start.val + other.size.val - 1 ≤ root.endSector
  omega

theorem within_analyzeTable (table partitions : Json) (rootPartition : String) (D : Int) :
    Prog.Within ok (analyzeTable table partitions rootPartition D) (Analyzed D) := by
  apply Prog.within_bind (within_requireDict _ _)
  intro table _
  apply Prog.within_bind within_require
  intro _ _
  apply Prog.within_bind within_require
  intro _ _
  apply Prog.within_bind (within_requirePair _ _)
  intro (first, second) _
  apply Prog.within_bind (within_integer _ _)
  intro sectorSize _
  apply Prog.within_bind within_require
  intro _ hsector
  apply Prog.within_bind within_require
  intro _ _
  apply Prog.within_bind (within_resolve _ _)
  intro normalizedRoot _
  apply Prog.within_bind (within_readEntry _)
  intro first hfirst
  apply Prog.within_bind (within_readEntry _)
  intro second hsecond
  apply Prog.within_bind (within_isRoot _ _)
  intro firstIsRoot _
  apply Prog.within_bind (within_isRoot _ _)
  intro secondIsRoot _
  -- exactly one of the two is the root partition
  cases firstIsRoot <;> cases secondIsRoot
  · exact Prog.within_raise _
  · exact within_planOf table hsector D hsecond hfirst
  · exact within_planOf table hsector D hfirst hsecond
  · exact Prog.within_raise _

/-- **An accepted plan fits its device.** -/
theorem within_analyzePartitionTable (tableJson rootPartition : String) (D : Int) :
    Prog.Within ok (analyzePartitionTable tableJson rootPartition D) (Analyzed D) := by
  unfold analyzePartitionTable
  split
  · exact Prog.within_raise _
  · exact within_analyzeTable _ _ _ _

omit [PyRepr] in
/-- What the comparison of two plans has checked. -/
structure Expanded (before after : GrowthPlan) : Prop where
  start_eq : after.startSector.val = before.startSector.val
  end_le : before.endSector ≤ after.endSector
  usable_eq : after.finalUsableSector = before.finalUsableSector
  boot_eq : after.unchangedPartitions.map Unchanged.key
    = before.unchangedPartitions.map Unchanged.key
  trailing_le : after.trailingBytes ≤ MAX_TRAILING_BYTES

omit [PyRepr] [Looks ok] in
/-- What passes has been expanded. -/
theorem within_verifyExpandedGeometry (before after : GrowthPlan) :
    Prog.Within ok (verifyExpandedGeometry before after) fun _ => Expanded before after := by
  apply Prog.within_bind within_require
  intro _ _
  apply Prog.within_bind within_require
  intro _ _
  apply Prog.within_bind within_require
  intro _ hstart
  apply Prog.within_bind within_require
  intro _ hend
  apply Prog.within_bind within_require
  intro _ husable
  apply Prog.within_bind within_require
  intro _ hboot
  exact Prog.Within.mono within_require fun _ htrailing => ⟨hstart, hend, husable, hboot, htrailing⟩

omit [PyRepr] [Looks ok] in
/-- A file system that passes fills its partition. -/
theorem within_verifyFilesystemSize (P F : Int) :
    Prog.Within ok (verifyFilesystemSize P F) fun _ =>
      F ≤ P ∧ P - F ≤ MAX_TRAILING_BYTES := by
  apply Prog.within_bind within_require
  intro _ hle
  exact Prog.Within.mono within_require fun _ hfill => ⟨hle, hfill⟩

/-! ## The arithmetic of a grown device

Little is left behind ROOT and within it. -/

/-- The file system of `F` bytes fills the device of `D` bytes, up to the two allowed slacks. -/
structure FillsDevice (D : Int) (plan : GrowthPlan) (F : Int) : Prop where
  filesystem_le : F ≤ plan.partitionSectors.val * plan.sectorSize.val
  partition_le : (plan.startSector.val + plan.partitionSectors.val) * plan.sectorSize.val ≤ D
  slack_lt : D - (plan.startSector.val * plan.sectorSize.val + F)
    < 2 * MAX_TRAILING_BYTES + plan.sectorSize.val

omit [PyRepr] in
/-- A partition of `n` sectors from sector `b` on, with at most `M` bytes of whole sectors after it
and a file system that leaves at most `M` of its bytes. -/
theorem slack_bound {D s b n F M : Int} (hs : 0 < s) (hend : b + n ≤ D / s)
    (hgap : (D / s - (b + n)) * s ≤ M) (hfill : n * s - F ≤ M) :
    (b + n) * s ≤ D ∧ D - (b * s + F) < 2 * M + s := by
  -- the whole sectors of the device, and the rest of it
  have hdiv : D / s * s + D % s = D := Int.ediv_mul_add_emod D s
  have hrest_nonneg : 0 ≤ D % s := Int.emod_nonneg D (by omega)
  have hrest_lt : D % s < s := Int.emod_lt_of_pos D hs
  have hbytes : (b + n) * s ≤ D / s * s := Int.mul_le_mul_of_nonneg_right hend (by omega)
  rw [Int.sub_mul] at hgap
  have hadd : (b + n) * s = b * s + n * s := Int.add_mul b n s
  constructor
  · omega
  · omega

omit [PyRepr] in
/-- What passes all checks fills the device, up to the bound. -/
theorem fillsDevice {D F : Int} {plan : GrowthPlan} (h : Analyzed D plan)
    (htrailing : plan.trailingBytes ≤ MAX_TRAILING_BYTES)
    (hle : F ≤ plan.partitionSectors.val * plan.sectorSize.val)
    (hfill : plan.partitionSectors.val * plan.sectorSize.val - F ≤ MAX_TRAILING_BYTES) :
    FillsDevice D plan F := by
  have hend : plan.startSector.val + plan.partitionSectors.val ≤ D / plan.sectorSize.val := by
    have h₁ := h.end_eq
    have h₂ := h.usable_eq
    have h₃ := h.end_le
    omega
  have hgap : (D / plan.sectorSize.val - (plan.startSector.val + plan.partitionSectors.val))
      * plan.sectorSize.val ≤ MAX_TRAILING_BYTES := by
    have heq : plan.finalUsableSector - plan.endSector
        = D / plan.sectorSize.val - (plan.startSector.val + plan.partitionSectors.val) := by
      have h₁ := h.end_eq
      have h₂ := h.usable_eq
      omega
    rw [← heq, ← h.trailing_eq]
    exact htrailing
  have hbound := slack_bound h.sector_pos hend hgap hfill
  exact ⟨hle, hbound.1, hbound.2⟩

end Storage

end Rave
