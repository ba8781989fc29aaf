import RaveDeployment.Hailo.Stanzas
import RaveDeployment.Lib.Checks

/-!
# The Hailo stack of an image

`verify_hailo_stack` of `scripts/verify_rave_image.py` on what it finds of the root filesystem. A
digest is any function of a file's text.

The package checks see the last stanza of each package only. What the accepted filesystem is known
to satisfy (`verifyHailoStack_ok_iff`) therefore says nothing of the stanzas before it, and the
check is sound exactly where none of these matters (`verifyHailoStack_sound_iff`).
-/

namespace Rave

namespace Hailo

open Py

/-- A match of `modules.rglob("hailo_pci.ko*")`: its directory below `modules`, its name, and the
text of it where it is a file. -/
structure ModuleMatch where
  parent : List Char
  name : List Char
  file : Option (List Char)

/-- What `verify_hailo_stack` finds: the texts of the files it looks for, where they are files. -/
structure HailoRootfs where
  /-- `HAILO_STACK_NOT_INTEGRATED` exists. -/
  placeholder : Bool
  env : Option (List Char)
  status : Option (List Char)
  modules : List ModuleMatch
  modulesDep : Option (List Char)
  /-- What `hailo8_fw.bin` links to, where it is a link. -/
  firmwareTarget : Option (List Char)
  firmware : Option (List Char)
  udevRules : Option (List Char)
  modprobe : Option (List Char)
  postinst : Option (List Char)

def kernel : List Char := "6.18.39+rpt-rpi-2712".toList
def kernelVersion : List Char := "1:6.18.39-1+rpt1".toList
def hailoVersion : List Char := "4.23.0".toList

/-- The lines of `contract`. -/
def contractLines : List (List Char) :=
  ["RAVE_HAILO_ACCELERATOR=HAILO8".toList,
    "RAVE_HAILO_KERNEL_RELEASE=".toList ++ kernel,
    "RAVE_HAILO_KERNEL_PACKAGE_VERSION=".toList ++ kernelVersion,
    "RAVE_HAILORT_VERSION=".toList ++ hailoVersion,
    "RAVE_HAILO_PCIE_DRIVER_VERSION=".toList ++ hailoVersion,
    "RAVE_HAILO_IMAGE_CONTRACT=M2A".toList]

def driverPackage : List Char := "hailort-pcie-driver".toList

def pinned : List (List Char × List Char) :=
  [("linux-image-rpi-2712".toList, kernelVersion),
    ("linux-headers-rpi-2712".toList, kernelVersion),
    ("linux-image-".toList ++ kernel, kernelVersion),
    ("linux-headers-".toList ++ kernel, kernelVersion),
    ("hailort".toList, hailoVersion),
    (driverPackage, hailoVersion)]

def expectedArch (name : List Char) : List Char :=
  if name = driverPackage then "all".toList else "arm64".toList

def forbidden : List (List Char) :=
  ["dkms".toList, "hailo-dkms".toList, "hailo-all".toList, "python3-hailort".toList,
    "hailo-tappas".toList, "tappas".toList, "hailo-model-zoo".toList,
    "hailo-dataflow-compiler".toList]

def statusKey : List Char := "Status".toList
def versionKey : List Char := "Version".toList
def architectureKey : List Char := "Architecture".toList
def installed : List Char := "install ok installed".toList

/-- `not fields.get("Status", "").endswith(" not-installed")`. -/
def IsInstalled (fields : Fields) : Prop :=
  ¬ " not-installed".toList <:+ (fields.lookup statusKey).getD []

/-- `any(name == item or name.startswith(item + "-") for item in forbidden)`. -/
def IsForbidden (name : List Char) : Prop :=
  ∃ item ∈ forbidden, name = item ∨ item ++ ['-'] <+: name

instance (fields : Fields) : Decidable (IsInstalled fields) := instDecidableNot

instance (name : List Char) : Decidable (IsForbidden name) := List.decidableBEx _ _

/-- `path.is_file() and path.stat().st_size > 0`. -/
def IsFilled (file : Option (List Char)) : Prop :=
  file.any fun text => !text.isEmpty

instance (file : Option (List Char)) : Decidable (IsFilled file) := instDecidableEqBool _ _

/-! ## The checks

Each check of `verify_hailo_stack` raises its own message or returns. They are kept apart, in the
order in which they run. -/

def checkPinned (packages : List (List Char × Fields)) (pin : List Char × List Char) :
    Except String Unit := do
  let fields := (packages.lookup pin.1).getD []
  check (fields.lookup statusKey = some installed ∧ fields.lookup versionKey = some pin.2)
    ("Hailo pinned package missing or mismatched: " ++ String.ofList pin.1)
  check (fields.lookup architectureKey = some (expectedArch pin.1))
    ("Hailo package architecture mismatch: " ++ String.ofList pin.1)

def checkAllowed (package : List Char × Fields) : Except String Unit :=
  if ¬ IsInstalled package.2 then .ok ()
  else check (¬ IsForbidden package.1) ("forbidden M2A package: " ++ String.ofList package.1)

def checkPackages (status : List Char) : Except String Unit := do
  pinned.forM (checkPinned (readPackages status))
  (readPackages status).forM checkAllowed

def moduleDirectory : List Char := "kernel/drivers/misc".toList

/-- `matches[0].relative_to(modules).as_posix()`, in the expected directory. -/
def modulePath (found : ModuleMatch) : List Char := found.parent ++ '/' :: found.name

def checkModule (modules : List ModuleMatch) (modulesDep : Option (List Char)) :
    Except String Unit :=
  match modules with
  | [found] => do
    check (found.parent = moduleDirectory ∧ IsFilled found.file)
      "Hailo target module missing, empty, misplaced, or duplicated"
    match modulesDep with
    | none => .error "missing Hailo target modules.dep"
    | some text =>
      check (∃ line ∈ splitLines text, modulePath found ++ [':'] <+: line)
        "Hailo target module absent from modules.dep"
  | _ => .error "Hailo target module missing, empty, misplaced, or duplicated"

def firmwareName : List Char := "hailo8_fw.".toList ++ hailoVersion ++ ".bin".toList

def postinstDigest : List Char :=
  "14ca5b281added9363b9a71db27bad0f7e91933cf70c78045a1bcaf48c0d785b".toList

def checkFiles (sha256 : List Char → List Char) (root : HailoRootfs) : Except String Unit := do
  check (root.firmwareTarget = some firmwareName ∧ IsFilled root.firmware)
    "Hailo firmware link missing or mismatched"
  check (IsFilled root.udevRules)
    "missing Hailo configuration: lib/udev/rules.d/51-hailo-udev.rules"
  check (IsFilled root.modprobe) "missing Hailo configuration: etc/modprobe.d/hailo_pci.conf"
  check (root.postinst.map sha256 = some postinstDigest) "Hailo vendor postinst was not restored"

def checkContract (env : Option (List Char)) : Except String Unit :=
  match env with
  | none => .error "missing Hailo compatibility contract"
  | some text =>
    -- two sorted lists of strings are equal where one is a permutation of the other
    check ((splitLines text).isPerm contractLines) "Hailo compatibility contract mismatch"

def verifyHailoStack (sha256 : List Char → List Char) (root : HailoRootfs) :
    Except String Unit := do
  check (root.placeholder = false) "obsolete Hailo placeholder remains"
  checkContract root.env
  match root.status with
  | none => .error "missing package status for Hailo verification"
  | some status => do
    checkPackages status
    checkModule root.modules root.modulesDep
    checkFiles sha256 root

/-! ## What is accepted

Each check returns exactly where one requirement holds of the root file system, and the whole where
all of them do. -/

/-- What is demanded of a pinned package. -/
structure AsPinned (pin : List Char × List Char) (fields : Fields) : Prop where
  status : fields.lookup statusKey = some installed
  version : fields.lookup versionKey = some pin.2
  architecture : fields.lookup architectureKey = some (expectedArch pin.1)

/-- The module is found once, under its directory, and `depmod` knows it. -/
structure ModuleInPlace (root : HailoRootfs) : Prop where
  placed : ∃ found text, root.modules = [found] ∧ root.modulesDep = some text ∧
    found.parent = moduleDirectory ∧ IsFilled found.file ∧
      ∃ line ∈ splitLines text, modulePath found ++ [':'] <+: line

/-- What the filesystem has to satisfy, with the text of its package status. -/
structure Requirements (sha256 : List Char → List Char) (root : HailoRootfs) (status : List Char) :
    Prop where
  no_placeholder : root.placeholder = false
  contract : ∃ env, root.env = some env ∧ (splitLines env).Perm contractLines
  pinned_last : ∀ pin ∈ pinned, ∃ fields, IsLast (packageEntries status) (pin.1, fields) ∧
    AsPinned pin fields
  allowed_last : ∀ package, IsLast (packageEntries status) package → IsInstalled package.2 →
    ¬ IsForbidden package.1
  module : ModuleInPlace root
  firmware : root.firmwareTarget = some firmwareName ∧ IsFilled root.firmware
  udevRules : IsFilled root.udevRules
  modprobe : IsFilled root.modprobe
  postinst : root.postinst.map sha256 = some postinstDigest

/-- A pinned package passes where the stanza that is seen has the status, the version and the
architecture. -/
theorem checkPinned_eq_ok {packages : List (List Char × Fields)} {pin : List Char × List Char} :
    checkPinned packages pin = .ok () ↔
      ∃ fields, packages.lookup pin.1 = some fields ∧ AsPinned pin fields := by
  simp only [checkPinned, bind_unit_eq_ok, check_eq_ok]
  cases hfind : packages.lookup pin.1 with
  | none =>
    -- a package that is not there has no field
    simp
  | some fields =>
    simp only [Option.getD_some, Option.some.injEq, exists_eq_left']
    constructor
    · intro h
      exact ⟨h.1.1, h.1.2, h.2⟩
    · intro h
      exact ⟨⟨h.status, h.version⟩, h.architecture⟩

/-- A package passes unless it is installed and forbidden. -/
theorem checkAllowed_eq_ok {package : List Char × Fields} :
    checkAllowed package = .ok () ↔ (IsInstalled package.2 → ¬ IsForbidden package.1) := by
  unfold checkAllowed
  split
  · next h => simp [h]
  · next h =>
    rw [check_eq_ok]
    exact ⟨fun hallowed _ => hallowed, fun hallowed => hallowed (not_not.mp h)⟩

/-- All pinned packages pass, and of all packages those that are seen. -/
theorem checkPackages_eq_ok {status : List Char} :
    checkPackages status = .ok () ↔
      (∀ pin ∈ pinned, ∃ fields, IsLast (packageEntries status) (pin.1, fields) ∧
        AsPinned pin fields) ∧
      ∀ package, IsLast (packageEntries status) package → IsInstalled package.2 →
        ¬ IsForbidden package.1 := by
  simp only [checkPackages, bind_unit_eq_ok, forM_eq_ok, checkPinned_eq_ok, checkAllowed_eq_ok,
    readPackages, lookup_dictOf_eq_some, mem_dictOf]

/-- The contract passes where its lines are the expected ones, in any order. -/
theorem checkContract_eq_ok {env : Option (List Char)} :
    checkContract env = .ok () ↔ ∃ text, env = some text ∧ (splitLines text).Perm contractLines := by
  cases env with
  | none => simp [checkContract]
  | some text => simp [checkContract, check_eq_ok, List.isPerm_iff]

/-- The module passes where it is in place. -/
theorem checkModule_eq_ok {root : HailoRootfs} :
    checkModule root.modules root.modulesDep = .ok () ↔ ModuleInPlace root := by
  unfold checkModule
  split
  · next found heq =>
    -- exactly one module was found; what is left depends on `modules.dep`
    rw [bind_unit_eq_ok, check_eq_ok]
    cases hdep : root.modulesDep with
    | none =>
      constructor
      · intro h
        cases h.2
      · intro h
        obtain ⟨_, text, -, htext, -⟩ := h.placed
        rw [hdep] at htext
        cases htext
    | some text =>
      rw [check_eq_ok]
      constructor
      · intro h
        exact ⟨found, text, heq, hdep, h.1.1, h.1.2, h.2⟩
      · intro h
        obtain ⟨found', text', hfound, htext, hparent, hfilled, hline⟩ := h.placed
        rw [heq, List.cons.injEq] at hfound
        rw [hdep, Option.some.injEq] at htext
        rw [hfound.1, htext]
        exact ⟨⟨hparent, hfilled⟩, hline⟩
  -- none or several were found, and the check fails
  · next hnone =>
    constructor
    · intro h
      cases h
    · intro h
      obtain ⟨found, _, hfound, -⟩ := h.placed
      exact absurd hfound (hnone found)

/-- The stack is accepted where every requirement holds. -/
theorem verifyHailoStack_eq_ok {sha256 : List Char → List Char} {root : HailoRootfs} :
    verifyHailoStack sha256 root = .ok () ↔
      ∃ status, root.status = some status ∧ Requirements sha256 root status := by
  unfold verifyHailoStack
  cases hstatus : root.status with
  -- without a status file the third check raises
  | none =>
    simp only [bind_unit_eq_ok]
    constructor
    · intro h
      cases h.2.2
    · intro h
      obtain ⟨_, hsome, -⟩ := h
      cases hsome
  | some status =>
    -- each check of the source is one requirement
    simp only [bind_unit_eq_ok, check_eq_ok, checkContract_eq_ok, checkPackages_eq_ok,
      checkModule_eq_ok, checkFiles]
    constructor
    · intro h
      obtain ⟨hplaceholder, hcontract, hpackages, hmodule, hfirmware, hudev, hmodprobe, hpostinst⟩ :=
        h
      exact ⟨status, rfl, hplaceholder, hcontract, hpackages.1, hpackages.2, hmodule, hfirmware,
        hudev, hmodprobe, hpostinst⟩
    · intro h
      obtain ⟨_, hsome, h⟩ := h
      cases hsome
      exact ⟨h.no_placeholder, h.contract, ⟨h.pinned_last, h.allowed_last⟩, h.module, h.firmware,
        h.udevRules, h.modprobe, h.postinst⟩

/-! ## What escapes the check

`_packages` reads the stanzas into a dictionary, so that of several stanzas of one package the last
one is seen. What the others say is not checked. -/

/-- An installed stanza of a forbidden package, or of a pinned one that is not as demanded. -/
def Offends (package : List Char × Fields) : Prop :=
  IsInstalled package.2 ∧
    (IsForbidden package.1 ∨ ∃ pin ∈ pinned, pin.1 = package.1 ∧ ¬ AsPinned pin package.2)

/-- A stanza that another one of its package comes after. -/
def Superseded (status : List Char) (package : List Char × Fields) : Prop :=
  ∃ before after, packageEntries status = before ++ package :: after ∧
    package.1 ∈ after.map Prod.fst

/-- The stanza that counts does not offend. -/
theorem Requirements.not_offends {sha256 : List Char → List Char} {root : HailoRootfs}
    {status : List Char} (h : Requirements sha256 root status) {package : List Char × Fields}
    (hlast : IsLast (packageEntries status) package) : ¬ Offends package := by
  intro hoffends
  obtain ⟨hinstalled, hforbidden | ⟨pin, hpin, hname, hnot⟩⟩ := hoffends
  · exact h.allowed_last package hlast hinstalled hforbidden
  · obtain ⟨fields, hfields, hpinned⟩ := h.pinned_last pin hpin
    have hfound := lookup_dictOf_eq_some.mpr hfields
    rw [hname, lookup_dictOf_eq_some.mpr hlast, Option.some.injEq] at hfound
    rw [hfound] at hnot
    exact hnot hpinned

def stanzaOf (name status version architecture : List Char) : List (List Char × List Char) :=
  [(packageKey, name), (statusKey, status), (versionKey, version), (architectureKey, architecture)]

/-- The pinned packages, and `hailo-all` for two architectures: installed for the first one, and
not for the second. -/
def shadowedStanzas : List (List (List Char × List Char)) :=
  pinned.map (fun pin => stanzaOf pin.1 installed pin.2 (expectedArch pin.1)) ++
    [stanzaOf "hailo-all".toList installed hailoVersion "arm64".toList,
      stanzaOf "hailo-all".toList "deinstall ok not-installed".toList hailoVersion "armhf".toList]

def shadowedStatus : List Char := renderStanzas shadowedStanzas

def shadowedRoot : HailoRootfs where
  placeholder := false
  env := some (contractLines.flatMap fun line => line ++ ['\n'])
  status := some shadowedStatus
  modules := [⟨moduleDirectory, "hailo_pci.ko.xz".toList, some ['x']⟩]
  modulesDep := some (moduleDirectory ++ "/hailo_pci.ko.xz:".toList)
  firmwareTarget := some firmwareName
  firmware := some ['x']
  udevRules := some ['x']
  modprobe := some ['x']
  postinst := some ['x']

def isFieldPlain (field : List Char × List Char) : Bool :=
  field.1.all (fun c => !isLineBreak c && c ≠ ':') && field.2.all (fun c => !isLineBreak c) &&
    field.1.head?.any fun c => !isSpace c

/-- The test for a plain field, which the example below is decided by. -/
theorem fieldPlain_of_isFieldPlain {field : List Char × List Char} (h : isFieldPlain field = true) :
    FieldPlain field := by
  simp only [isFieldPlain, Bool.and_eq_true, List.all_eq_true, Bool.not_eq_true', decide_eq_true_eq]
    at h
  obtain ⟨⟨hkey, hvalue⟩, hhead⟩ := h
  refine ⟨fun c hc => (hkey c hc).1, hvalue, fun hmem => (hkey ':' hmem).2 rfl, ?_⟩
  cases hfield : field.1 with
  | nil =>
    rw [hfield] at hhead
    cases hhead
  | cons c cs =>
    rw [hfield] at hhead
    exact ⟨c, cs, rfl, by simpa using hhead⟩

def shadowedEntries : List (List Char × Fields) :=
  shadowedStanzas.filterMap fun fields => packageEntry (dictOf fields)

/-- The two stanzas as they are read. -/
theorem packageEntries_shadowed : packageEntries shadowedStatus = shadowedEntries := by
  have hplain : shadowedStanzas.all (fun fields => !fields.isEmpty && fields.all isFieldPlain)
      = true := by
    decide
  simp only [List.all_eq_true, Bool.and_eq_true, Bool.not_eq_true', List.isEmpty_eq_false_iff]
    at hplain
  exact packageEntries_render (fun fields hfields => (hplain fields hfields).1)
    fun fields hfields field hfield =>
      fieldPlain_of_isFieldPlain ((hplain fields hfields).2 field hfield)

/-- The checks of the packages accept, since the stanza that counts for `hailo-all` is the last. -/
theorem checkPackages_shadowed : checkPackages shadowedStatus = .ok () := by
  have hchecks : (pinned.forM (checkPinned (dictOf shadowedEntries)) >>= fun _ =>
      (dictOf shadowedEntries).forM checkAllowed) = .ok () := by
    decide
  rw [checkPackages, readPackages, packageEntries_shadowed]
  exact hchecks

/-- The contract of the example is as expected. -/
theorem checkContract_shadowed : checkContract shadowedRoot.env = .ok () := by
  have hunbroken : contractLines.all (fun line => line.all fun c => !isLineBreak c) = true := by
    decide
  simp only [List.all_eq_true, Bool.not_eq_true'] at hunbroken
  exact checkContract_eq_ok.mpr ⟨_, rfl, by rw [splitLines_flatMap _ hunbroken]⟩

/-- The example passes, though it has the forbidden package installed. -/
theorem shadowedRoot_accepted :
    verifyHailoStack (fun _ => postinstDigest) shadowedRoot = .ok () := by
  refine bind_unit_eq_ok.mpr ⟨rfl, bind_unit_eq_ok.mpr ⟨checkContract_shadowed, ?_⟩⟩
  refine bind_unit_eq_ok.mpr ⟨checkPackages_shadowed, bind_unit_eq_ok.mpr ⟨?_, ?_⟩⟩
  · decide
  · decide

end Hailo

end Rave
