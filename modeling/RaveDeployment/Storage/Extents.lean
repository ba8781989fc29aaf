import RaveDeployment.Storage.Geometry

/-!
# What an expansion does to the extents

Plans count in sectors and the device in bytes. `bootUndisturbed_iff` says when two plans that were
accepted and compared keep BOOT where it is, in bytes, with ROOT behind it.
-/

namespace Rave

namespace Storage

/-- The extents of two plans on a device of `D` bytes, in bytes: BOOT and the start of ROOT stay
where they are, ROOT only grows, ends within the device and begins after BOOT. -/
structure BootUndisturbed (D : Int) (before after : GrowthPlan) (boot boot' : Unchanged) : Prop where
  boot_start : boot'.start.val * after.sectorSize.val = boot.start.val * before.sectorSize.val
  boot_end : (boot'.start.val + boot'.size.val) * after.sectorSize.val
    = (boot.start.val + boot.size.val) * before.sectorSize.val
  root_start : after.startSector.val * after.sectorSize.val
    = before.startSector.val * before.sectorSize.val
  root_grows : (before.startSector.val + before.partitionSectors.val) * before.sectorSize.val
    ≤ (after.startSector.val + after.partitionSectors.val) * after.sectorSize.val
  root_within : (after.startSector.val + after.partitionSectors.val) * after.sectorSize.val ≤ D
  apart_before : (boot.start.val + boot.size.val) * before.sectorSize.val
    ≤ before.startSector.val * before.sectorSize.val
  apart_after : (boot'.start.val + boot'.size.val) * after.sectorSize.val
    ≤ after.startSector.val * after.sectorSize.val

/-- ROOT lies within the device. -/
theorem Analyzed.root_within {D : Int} {plan : GrowthPlan} (h : Analyzed D plan) :
    (plan.startSector.val + plan.partitionSectors.val) * plan.sectorSize.val ≤ D := by
  have hend : plan.startSector.val + plan.partitionSectors.val ≤ D / plan.sectorSize.val := by
    have h₁ := h.end_eq
    have h₂ := h.usable_eq
    have h₃ := h.end_le
    omega
  have hpos := h.sector_pos
  calc (plan.startSector.val + plan.partitionSectors.val) * plan.sectorSize.val
      ≤ D / plan.sectorSize.val * plan.sectorSize.val :=
        Int.mul_le_mul_of_nonneg_right hend (by omega)
    _ ≤ D := Int.ediv_mul_le D (by omega)

/-- What was accepted leaves BOOT undisturbed under the condition, and only then. -/
theorem bootUndisturbed_of_accepted {D : Int} {before after : GrowthPlan} {boot boot' : Unchanged}
    (hbefore : Analyzed D before) (hafter : Analyzed D after) (hexpanded : Expanded before after)
    (hboot : before.unchangedPartitions = [boot]) (hboot' : after.unchangedPartitions = [boot']) :
    BootUndisturbed D before after boot boot' ↔
      after.sectorSize.val = before.sectorSize.val ∧
        boot.start.val + boot.size.val ≤ before.startSector.val := by
  have hkey : boot'.key = boot.key := by
    have hkeys := hexpanded.boot_eq
    rw [hboot, hboot'] at hkeys
    exact (List.cons.inj hkeys).1
  have hstart : boot'.start.val = boot.start.val := congrArg (fun k => k.2.1) hkey
  have hsize : boot'.size.val = boot.size.val := congrArg (fun k => k.2.2.1) hkey
  have hsize_pos : 0 < boot.size.val := by
    obtain ⟨b, hb, -, hpos, -⟩ := hbefore.boot
    rw [hboot] at hb
    rw [(List.cons.inj hb).1]
    exact hpos
  have hsector := hbefore.sector_pos
  constructor
  · intro h
    -- the boot partition has sectors, so its end in bytes fixes their size
    have hsame : after.sectorSize.val = before.sectorSize.val := by
      have hend := h.boot_end
      rw [Int.add_mul, Int.add_mul, h.boot_start, hsize] at hend
      have hmul : boot.size.val * after.sectorSize.val = boot.size.val * before.sectorSize.val := by
        omega
      exact Int.eq_of_mul_eq_mul_left (by omega) hmul
    exact ⟨hsame, Int.le_of_mul_le_mul_right h.apart_before hsector⟩
  · intro ⟨hsame, hapart⟩
    have hend : before.startSector.val + before.partitionSectors.val
        ≤ after.startSector.val + after.partitionSectors.val := by
      have h₁ := hbefore.end_eq
      have h₂ := hafter.end_eq
      have h₃ := hexpanded.end_le
      omega
    refine ⟨?_, ?_, ?_, ?_, hafter.root_within, ?_, ?_⟩
    · rw [hstart, hsame]
    · rw [hstart, hsize, hsame]
    · rw [hexpanded.start_eq, hsame]
    · rw [hsame]
      exact Int.mul_le_mul_of_nonneg_right hend (by omega)
    · exact Int.mul_le_mul_of_nonneg_right hapart (by omega)
    · rw [hstart, hsize, hexpanded.start_eq, hsame]
      exact Int.mul_le_mul_of_nonneg_right hapart (by omega)

/-- What a program that only looks returns, in any run. -/
theorem of_runs {α : Type} {p : GrowM α} {Q : α → Prop} (h : Prog.Within Observes p Q)
    {s t : Disk} {a : α} (hrun : p.Runs surroundings s (.ok a) t) : Q a := by
  have hkept := h.runs (P := fun _ => True) (stable_surroundings _)
    (fun _ _ _ _ _ _ _ => trivial) hrun trivial
  exact hkept.2

/-- **When a verified expansion leaves BOOT undisturbed.** The two tables must count in sectors of
one size, and BOOT must end before ROOT starts; the checks ask for neither. -/
theorem bootUndisturbed_iff [PyRepr] {tableJson tableJson' rootPartition : String} {D : Int}
    {before after : GrowthPlan} {s t s' t' w w' : Disk}
    (hbefore : (analyzePartitionTable tableJson rootPartition D).Runs surroundings s (.ok before) t)
    (hafter : (analyzePartitionTable tableJson' rootPartition D).Runs surroundings s' (.ok after) t')
    (hverified : (verifyExpandedGeometry before after).Runs surroundings w (.ok ()) w') :
    ∃ boot boot', before.unchangedPartitions = [boot] ∧ after.unchangedPartitions = [boot'] ∧
      (BootUndisturbed D before after boot boot' ↔
        after.sectorSize.val = before.sectorSize.val ∧
          boot.start.val + boot.size.val ≤ before.startSector.val) := by
  have hbefore := of_runs (within_analyzePartitionTable _ _ _) hbefore
  have hafter := of_runs (within_analyzePartitionTable _ _ _) hafter
  have hexpanded := of_runs (within_verifyExpandedGeometry _ _) hverified
  obtain ⟨boot, hboot, -⟩ := hbefore.boot
  obtain ⟨boot', hboot', -⟩ := hafter.boot
  exact ⟨boot, boot', hboot, hboot',
    bootUndisturbed_of_accepted hbefore hafter hexpanded hboot hboot'⟩

/-- A table in which BOOT reaches into ROOT: sectors 2048 to 6143, and 4096 to 12287. -/
def overlappingPartitions : Json :=
  .arr [.obj [("node", .str "/dev/mmcblk0p1"), ("start", .int 2048), ("size", .int 4096),
      ("type", .str "c"), ("bootable", .bool true)],
    .obj [("node", .str "/dev/mmcblk0p2"), ("start", .int 4096), ("size", .int 8192),
      ("type", .str "83")]]

def overlappingTable : Json :=
  .obj [("label", .str "dos"), ("device", .str "/dev/mmcblk0"), ("unit", .str "sectors"),
    ("sectorsize", .int 512), ("partitions", overlappingPartitions)]

/-- As `sfdisk --json` prints it. -/
def overlappingJson : String :=
  String.ofList (Json.dumps ⟨true, 1, 1, none⟩ (.obj [("partitiontable", overlappingTable)]))

/-- It is read as it was printed. -/
theorem openTable_overlapping :
    @openTable plainRepr overlappingJson = .ok (overlappingTable, overlappingPartitions) := by
  have hint : ∀ n : Int, n.natAbs < 10 ^ 5 → (Json.int n).Plain := by
    intro n hn
    have hlen := (Nat.length_toDigits_le_iff (b := 10) (by decide) (show 0 < 5 by decide)).mpr hn
    exact Nat.le_trans hlen (by decide)
  have hplain : (Json.obj [("partitiontable", overlappingTable)]).Plain := by
    simp only [overlappingTable, overlappingPartitions, Json.Plain, Json.PlainFields,
      Json.PlainItems]
    refine ⟨by decide, ⟨by decide, trivial, trivial, trivial, hint 512 (by decide), ?_, trivial⟩,
      trivial⟩
    refine ⟨⟨by decide, trivial, hint 2048 (by decide), hint 4096 (by decide), trivial, trivial,
      trivial⟩, ⟨by decide, trivial, hint 4096 (by decide), hint 8192 (by decide), trivial,
      trivial⟩, trivial⟩
  have htext : overlappingJson.toList
      = Json.dumps ⟨true, 1, 1, none⟩ (.obj [("partitiontable", overlappingTable)]) := by
    rw [overlappingJson, String.toList_ofList]
  have hloads := @Json.loads_dumps ⟨true, 1, 1, none⟩ plainRepr.toNesting _ hplain (by decide)
  rw [← htext] at hloads
  exact @openTable_of_loads plainRepr _ _ _ hloads rfl

def overlappingPlan : GrowthPlan where
  disk := "/dev/mmcblk0"
  rootPartition := "/dev/mmcblk0p2"
  sectorSize := .int 512
  startSector := .int 4096
  partitionSectors := .int 8192
  endSector := 12287
  finalUsableSector := 12287
  trailingBytes := 0
  unchangedPartitions := [⟨"/dev/mmcblk0p1", .int 2048, .int 4096, "c", true⟩]

/-- ROOT resolves to itself, and then the two nodes do. -/
def overlappingAnswers : List Answer :=
  [{ path := "/dev/mmcblk0p2" }, { path := "/dev/mmcblk0p1" }, { path := "/dev/mmcblk0p2" }]

theorem returned_overlapping : (Prog.follow exec overlappingAnswers (@analyzeTable plainRepr
    overlappingTable overlappingPartitions "/dev/mmcblk0p2" 6291456) noDisk).1.returned
      = some overlappingPlan := by
  decide

theorem runs_overlapping : ∃ t, (@analyzePartitionTable plainRepr overlappingJson "/dev/mmcblk0p2"
    6291456).Runs surroundings noDisk (.ok overlappingPlan) t := by
  rw [@analyzePartitionTable_eq plainRepr _ _ _ openTable_overlapping]
  exact ⟨_, Prog.runs_follow exec_surroundings returned_overlapping⟩

/-- The plan is verified against itself. -/
theorem runs_verify_overlapping : ∃ t, (verifyExpandedGeometry overlappingPlan overlappingPlan).Runs
    surroundings noDisk (.ok ()) t := by
  have hreturned : (Prog.follow exec [] (verifyExpandedGeometry overlappingPlan overlappingPlan)
      noDisk).1.returned = some () := by
    decide
  exact ⟨_, Prog.runs_follow exec_surroundings hreturned⟩

/-- Two plans of one table, in which nothing is grown, pass with ROOT inside BOOT. -/
theorem overlapping_accepted : ¬∀ (_ : PyRepr) (tableJson tableJson' rootPartition : String)
    (D : Int) (before after : GrowthPlan) (boot boot' : Unchanged) (s t s' t' w w' : Disk),
    (analyzePartitionTable tableJson rootPartition D).Runs surroundings s (.ok before) t →
    (analyzePartitionTable tableJson' rootPartition D).Runs surroundings s' (.ok after) t' →
    (verifyExpandedGeometry before after).Runs surroundings w (.ok ()) w' →
    before.unchangedPartitions = [boot] → after.unchangedPartitions = [boot'] →
    BootUndisturbed D before after boot boot' := by
  intro h
  obtain ⟨t, hrun⟩ := runs_overlapping
  obtain ⟨w, hverified⟩ := runs_verify_overlapping
  have hundisturbed := h plainRepr _ _ _ _ _ _ _ _ _ _ _ _ _ _ hrun hrun hverified rfl rfl
  exact absurd hundisturbed.apart_before (by decide)

/-- The condition on that plan. -/
theorem bootUndisturbed_iff_overlapping : ∃ boot boot',
    overlappingPlan.unchangedPartitions = [boot] ∧ overlappingPlan.unchangedPartitions = [boot'] ∧
      (BootUndisturbed 6291456 overlappingPlan overlappingPlan boot boot' ↔
        overlappingPlan.sectorSize.val = overlappingPlan.sectorSize.val ∧
          boot.start.val + boot.size.val ≤ overlappingPlan.startSector.val) := by
  obtain ⟨t, hrun⟩ := runs_overlapping
  obtain ⟨w, hverified⟩ := runs_verify_overlapping
  exact @bootUndisturbed_iff plainRepr _ _ _ _ _ _ _ _ _ _ _ _ hrun hrun hverified

end Storage

end Rave
