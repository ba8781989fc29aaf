import RaveDeployment.Lib.Checks
import RaveDeployment.Systemd.Directives

/-!
# The units of an image

`verify_dhcp_service`, `verify_web_service` and `verify_networkd_service` of
`scripts/verify_rave_image.py` on the tree of a root filesystem, and the files systemd makes the
same units of. `loadsVerified_iff` says for which accepted trees these are the verified ones alone.
-/

namespace Rave

open Py

/-- What a path stands for once links are followed. -/
inductive Node where
  | file (text : List Char)
  | directory (mode uid gid : Nat)
  deriving DecidableEq

/-- What stands at a path. -/
inductive Entry where
  | node (n : Node)
  | link (target : String) (resolved : Option Node)
  deriving DecidableEq

def Entry.resolve : Entry → Option Node
  | .node n => some n
  | .link _ resolved => resolved

/-- A root filesystem: its entries by path, under every path that leads to them, in the order of the
paths. -/
structure ImageTree where
  entries : List (String × Entry)
  sorted : (entries.map Prod.fst).Pairwise (· < ·)

namespace ImageTree

variable (rootfs : ImageTree)

def lstat (path : String) : Option Entry :=
  (rootfs.entries.find? fun entry => entry.1 = path).map Prod.snd

/-- What is at a path, with links followed. -/
def stat (path : String) : Option Node :=
  (rootfs.lstat path).bind Entry.resolve

/-- `Path.is_file`. -/
def isFile (path : String) : Bool :=
  match rootfs.stat path with
  | some (.file _) => true
  | _ => false

/-- `Path.is_dir`. -/
def isDir (path : String) : Bool :=
  match rootfs.stat path with
  | some (.directory ..) => true
  | _ => false

/-- `Path.is_symlink`. -/
def isSymlink (path : String) : Bool :=
  match rootfs.lstat path with
  | some (.link ..) => true
  | _ => false

/-- `Path.read_text`. -/
def readText (path : String) : Except UnitError (List Char) :=
  match rootfs.stat path with
  | some (.file text) => .ok (universalNewlines text)
  | _ => .error (.osError path)

/-- `os.readlink`. -/
def readlink (path : String) : Except UnitError String :=
  match rootfs.lstat path with
  | some (.link target _) => .ok target
  | _ => .error (.osError path)

/-- `S_IMODE`, the user and the group of a directory. -/
def owner (path : String) : Except UnitError (Nat × Nat × Nat) :=
  match rootfs.stat path with
  | some (.directory mode uid gid) => .ok (mode, uid, gid)
  | _ => .error (.osError path)

/-- Whether a path is one of `directory.glob("*.conf")`. -/
def isConfIn (directory path : String) : Bool :=
  let start := directory.toList ++ ['/']
  let name := path.toList.drop start.length
  start.isPrefixOf path.toList && !name.contains '/' && ".conf".toList.isSuffixOf name

/-- `sorted(directory.glob("*.conf"))`. -/
def confFiles (directory : String) : List String :=
  (rootfs.entries.map Prod.fst).filter (isConfIn directory)

end ImageTree

def LIB_UNITS : String := "/usr/lib/systemd/system"
def ETC_UNITS : String := "/etc/systemd/system"

/-- `unit_dropins`. -/
def unitDropins (rootfs : ImageTree) (unit : String) : List String :=
  [LIB_UNITS, ETC_UNITS].flatMap fun base =>
    let directory := base ++ "/" ++ unit ++ ".d"
    if rootfs.isDir directory then rootfs.confFiles directory else []

/-- The `require` of the verifier. -/
def requireUnit (condition : Bool) (message : String) : Except UnitError Unit :=
  if condition then .ok () else .error (.verificationError message)

/-- A `require` whose message lists the drop-ins. -/
def requireNoDropins (dropins : List String) (message : String) : Except UnitError Unit :=
  if dropins = [] then .ok () else .error (.unexpectedDropins message dropins)

/-- `shlex.split`. -/
def splitCommand (value : List Char) : Except UnitError (List (List Char)) :=
  (shlexSplit value).mapError .valueError

/-! ## The verifiers

The functions that look at the three services, each with the files that it reads. -/

/-- `verify_dhcp_service`. -/
def verifyDhcpService (rootfs : ImageTree) (unitPath : String) : Except UnitError (List Char) := do
  requireUnit (rootfs.isFile unitPath) "RAVE DHCP service is missing"
  requireNoDropins (unitDropins rootfs "rave-management-dhcp.service")
    "unexpected DHCP service drop-ins obscure the canonical sandbox: "
  let unit ← rootfs.readText unitPath
  let texts := [unit]
  let service := "Service".toList
  let protect ← effectiveSystemdScalar texts service "ProtectSystem".toList
  requireUnit (protect = some "strict".toList) "DHCP must retain ProtectSystem=strict"
  let writable ← effectiveSystemdWords texts service "ReadWritePaths".toList
  requireUnit (writable = ["/var/lib/misc".toList])
    "DHCP writable paths must be exactly /var/lib/misc"
  let execStarts ← systemdDirectives unit service "ExecStart".toList
  requireUnit (execStarts.length = 1) "DHCP service must have one canonical ExecStart"
  let command ← splitCommand (execStarts.headD [])
  requireUnit (command.head? = some "/usr/sbin/dnsmasq".toList)
    "DHCP service does not execute dnsmasq"
  requireUnit (command.contains "--conf-file=/etc/rave/network/dnsmasq.conf".toList
      && command.contains "--no-hosts".toList && command.contains "--no-resolv".toList)
    "DHCP service does not use only the product configuration"
  let leaseDirectory := "/var/lib/misc"
  requireUnit (rootfs.isDir leaseDirectory && !rootfs.isSymlink leaseDirectory)
    "DHCP lease directory is missing or unsafe"
  let leaseStat ← rootfs.owner leaseDirectory
  requireUnit (leaseStat = (0o755, 0, 0)) "DHCP lease directory must be root-owned mode 0755"
  requireUnit (rootfs.stat (leaseDirectory ++ "/dnsmasq.leases")).isNone
    "generic image carries a DHCP lease database"
  return unit

/-- `verify_web_service`. -/
def verifyWebService (rootfs : ImageTree) (unitPath socketPath : String) :
    Except UnitError (List Char × List Char) := do
  requireUnit (rootfs.isFile unitPath) "rave-webd service is missing"
  requireUnit (rootfs.isFile socketPath) "rave-webd socket is missing"
  requireNoDropins (unitDropins rootfs "rave-webd.service")
    "unexpected rave-webd drop-ins obscure listener policy: "
  requireNoDropins (unitDropins rootfs "rave-webd.socket")
    "unexpected rave-webd socket drop-ins obscure listener policy: "
  let unit ← rootfs.readText unitPath
  let socketUnit ← rootfs.readText socketPath
  let service := "Service".toList
  let execStarts ← systemdDirectives unit service "ExecStart".toList
  requireUnit (execStarts.length = 1) "rave-webd must have one canonical ExecStart"
  let command ← splitCommand (execStarts.headD [])
  requireUnit (command.count "--fd".toList = 1)
    "rave-webd must consume exactly one inherited socket"
  let descriptor ← match command[command.idxOf "--fd".toList + 1]? with
    | some word => .ok word
    | none => .error .indexError
  requireUnit (descriptor = "3".toList) "rave-webd inherited socket descriptor changed"
  requireUnit (["--host".toList, "--port".toList, "--uds".toList].all fun option =>
      !command.contains option)
    "rave-webd may not create an additional listener"
  let socketTexts := [socketUnit]
  let socketDependencies ← ["Requires", "Wants", "After", "Before", "PartOf"].mapM fun directive =>
    effectiveSystemdWords socketTexts "Unit".toList directive.toList
  requireUnit (!socketDependencies.flatten.contains "NetworkManager.service".toList)
    "rave-webd socket creates a NetworkManager/sockets.target ordering cycle"
  let socket := "Socket".toList
  let listenStream ← effectiveSystemdList socketTexts socket "ListenStream".toList
  requireUnit (listenStream = ["8080".toList]) "rave-webd socket port changed"
  let device ← effectiveSystemdScalar socketTexts socket "BindToDevice".toList
  requireUnit (device = some "wlan0".toList) "rave-webd socket is not bound exclusively to wlan0"
  let activated ← effectiveSystemdScalar socketTexts socket "Service".toList
  requireUnit (activated = some "rave-webd.service".toList)
    "rave-webd socket activates an unexpected service"
  let environment ← systemdDirectives unit service "Environment".toList
  requireUnit (environment.contains "RAVE_PROVIDER=pi".toList)
    "rave-webd does not explicitly select the Pi provider"
  let user ← effectiveSystemdScalar [unit] service "User".toList
  let group ← effectiveSystemdScalar [unit] service "Group".toList
  requireUnit (user = some "rave".toList && group = some "rave".toList)
    "rave-webd service identity changed"
  let privileges ← effectiveSystemdScalar [unit] service "NoNewPrivileges".toList
  requireUnit (privileges = some "true".toList) "rave-webd privilege boundary changed"
  let clock ← effectiveSystemdScalar [unit] service "ProtectClock".toList
  requireUnit (clock = some "true".toList) "rave-webd may alter the appliance clock"
  let families ← effectiveSystemdScalar [unit] service "RestrictAddressFamilies".toList
  requireUnit (families = some "AF_UNIX".toList) "rave-webd may create non-local network sockets"
  let runtime ← systemdDirectives unit service "RuntimeDirectory".toList
  requireUnit (runtime = []) "rave-webd owns a shared runtime directory"
  let requires ← effectiveSystemdWords [unit] "Unit".toList "Requires".toList
  requireUnit (requires = ["rave-webd.socket".toList])
    "rave-webd service does not require only its socket boundary"
  let socketEnablement := "/etc/systemd/system/sockets.target.wants/rave-webd.socket"
  requireUnit (rootfs.isSymlink socketEnablement) "rave-webd socket is not enabled at boot"
  let target ← rootfs.readlink socketEnablement
  requireUnit (target = "/usr/lib/systemd/system/rave-webd.socket")
    "unexpected rave-webd socket enablement target"
  return (unit, socketUnit)

/-- `required_scalars` of `verify_networkd_service`. -/
def requiredScalars : List (String × String) :=
  [("NoNewPrivileges", "true"),
    ("ProtectSystem", "strict"),
    ("ProtectClock", "true"),
    ("PrivateDevices", "true"),
    ("RestrictAddressFamilies", "AF_UNIX"),
    ("LimitCORE", "0")]

def backendContract : List String :=
  ["INTERFACE = \"wlan0\"",
    "PROVISIONING_PROFILE = \"RAVE-Setup\"",
    "SAVED_PROFILE = \"RAVE-Management\"",
    "PREVIOUS_PROFILE = \"RAVE-Management-Previous\"",
    "run_with_secret",
    "os.memfd_create",
    "SYSTEMCTL = \"/usr/bin/systemctl\""]

/-- `text.lower()`. -/
def lowerChars [PyUnicode] (text : List Char) : List Char :=
  (PyUnicode.lower (String.ofList text)).toList

/-- `re.search` for the option `connection.autoconnect`, a comma, white space and a value. -/
def setsAutoconnect (value : String) (backend : List Char) : Bool :=
  let option := "\"connection.autoconnect\",".toList
  backend.tails.any fun rest =>
    option.isPrefixOf rest &&
      ('"' :: value.toList ++ ['"']).isPrefixOf (lstrip (rest.drop option.length))

/-- `verify_networkd_service`. -/
def verifyNetworkdService [PyUnicode] (rootfs : ImageTree) (unitPath : String) :
    Except UnitError (List Char) := do
  requireUnit (rootfs.isFile unitPath) "rave-networkd service is missing"
  requireUnit (unitDropins rootfs "rave-networkd.service" = [])
    "rave-networkd has unexpected drop-ins"
  let unit ← rootfs.readText unitPath
  let texts := [unit]
  let service := "Service".toList
  let user ← effectiveSystemdScalar texts service "User".toList
  let group ← effectiveSystemdScalar texts service "Group".toList
  requireUnit (user = some "root".toList && group = some "rave".toList)
    "rave-networkd service identity changed"
  let execStarts ← systemdDirectives unit service "ExecStart".toList
  requireUnit (execStarts = ["/usr/bin/python3 -m rave_networkd".toList])
    "rave-networkd does not execute only the canonical daemon"
  requiredScalars.forM fun (directive, expected) => do
    let value ← effectiveSystemdScalar texts service directive.toList
    requireUnit (value = some expected.toList) ("rave-networkd hardening changed: " ++ directive)
  let writable ← effectiveSystemdWords texts service "ReadWritePaths".toList
  requireUnit (writable = ["/run/rave".toList])
    "rave-networkd writable paths are not restricted to /run/rave"
  let capabilities ← effectiveSystemdWords texts service "CapabilityBoundingSet".toList
  requireUnit (capabilities = []) "rave-networkd has ambient Linux capabilities"
  let source := "/opt/rave/management/rave_networkd/backend.py"
  requireUnit (rootfs.isFile source) "rave-networkd backend is missing"
  let backend ← rootfs.readText source
  backendContract.forM fun expected =>
    requireUnit (containsChars expected.toList backend)
      ("rave-networkd fixed operation contract changed: " ++ expected)
  requireUnit (!containsChars "shell=true".toList (lowerChars backend))
    "rave-networkd contains forbidden behavior: shell=True"
  ["eth0", "ip_forward", "masquerade"].forM fun forbidden =>
    requireUnit (!containsChars forbidden.toList (lowerChars backend))
      ("rave-networkd contains forbidden behavior: " ++ forbidden)
  requireUnit (setsAutoconnect "no" backend && !setsAutoconnect "yes" backend
      && !containsChars "connection.autoconnect-retries".toList backend)
    "rave-networkd does not exclusively own management profile activation"
  let server ← rootfs.readText "/opt/rave/management/rave_networkd/server.py"
  let client ← rootfs.readText "/opt/rave/management/rave_network_ipc/client.py"
  requireUnit (containsChars "SO_PEERCRED".toList server
      && containsChars "peer_not_authorized".toList server)
    "rave-networkd does not authenticate the local client peer"
  requireUnit (containsChars "SO_PEERCRED".toList client
      && containsChars "expected_server_uid: int = 0".toList client)
    "rave-webd IPC client does not authenticate the root server peer"
  return unit

/-- The units, as `verify_rootfs` has them verified. -/
def UNITS : List String :=
  ["rave-webd.service", "rave-webd.socket", "rave-networkd.service", "rave-management-dhcp.service"]

def verifyUnits [PyUnicode] (rootfs : ImageTree) : Except UnitError Unit := do
  let _ ← verifyWebService rootfs (LIB_UNITS ++ "/rave-webd.service")
    (LIB_UNITS ++ "/rave-webd.socket")
  let _ ← verifyNetworkdService rootfs (LIB_UNITS ++ "/rave-networkd.service")
  let _ ← verifyDhcpService rootfs (LIB_UNITS ++ "/rave-management-dhcp.service")
  return ()

/-! ## What systemd loads

The unit's own file and its drop-ins, from more directories than the verifiers look into. -/

/-- The directories, without `.d`, whose drop-ins extend a unit besides its own: the name cut off
after each dash, and the type. -/
def widerNames (unit : String) : List String :=
  let (stem, _, type) := partitionAt '.' unit.toList
  (stem.inits.filter fun cut => cut.getLast? = some '-').map
    (fun cut => String.ofList (cut ++ '.' :: type)) ++ [String.ofList type]

def fragmentPath (rootfs : ImageTree) (unit : String) : String :=
  if (rootfs.lstat (ETC_UNITS ++ "/" ++ unit)).isSome then ETC_UNITS ++ "/" ++ unit
  else LIB_UNITS ++ "/" ++ unit

/-- The files systemd makes a unit of: the one that defines it and the drop-ins. -/
def unitSources (rootfs : ImageTree) (unit : String) : List String :=
  fragmentPath rootfs unit :: (unit :: widerNames unit).flatMap (unitDropins rootfs)

def LoadsVerified (rootfs : ImageTree) : Prop :=
  ∀ unit ∈ UNITS, unitSources rootfs unit = [LIB_UNITS ++ "/" ++ unit]

/-- Nothing overrides a unit where the verifier does not look: no entry of its name under
`/etc/systemd/system`, and no drop-in for a cut name or for the type. -/
def Unoverridden (rootfs : ImageTree) : Prop :=
  ∀ unit ∈ UNITS, rootfs.lstat (ETC_UNITS ++ "/" ++ unit) = none ∧
    ∀ name ∈ widerNames unit, unitDropins rootfs name = []

section

variable {rootfs : ImageTree}

/-- A requirement is met where it holds. -/
theorem requireUnit_eq_ok {condition : Bool} {message : String} :
    requireUnit condition message = .ok () ↔ condition = true := by
  unfold requireUnit
  split
  · next h => simp [h]
  · next h => simp [h]

/-- There are no drop-ins where the verifier has looked. -/
theorem requireNoDropins_eq_ok {dropins : List String} {message : String} :
    requireNoDropins dropins message = .ok () ↔ dropins = [] := by
  unfold requireNoDropins
  split
  · next h => simp [h]
  · next h => simp [h]

/-- The two units of the web service have none. -/
theorem unitDropins_of_web {unitPath socketPath : String} {texts : List Char × List Char}
    (h : verifyWebService rootfs unitPath socketPath = .ok texts) :
    unitDropins rootfs "rave-webd.service" = [] ∧ unitDropins rootfs "rave-webd.socket" = [] := by
  obtain ⟨_, _, h⟩ := bind_eq_ok.mp h
  obtain ⟨_, _, h⟩ := bind_eq_ok.mp h
  obtain ⟨_, hservice, h⟩ := bind_eq_ok.mp h
  obtain ⟨_, hsocket, _⟩ := bind_eq_ok.mp h
  exact ⟨requireNoDropins_eq_ok.mp hservice, requireNoDropins_eq_ok.mp hsocket⟩

theorem unitDropins_of_networkd [PyUnicode] {unitPath : String} {text : List Char}
    (h : verifyNetworkdService rootfs unitPath = .ok text) :
    unitDropins rootfs "rave-networkd.service" = [] := by
  obtain ⟨_, _, h⟩ := bind_eq_ok.mp h
  obtain ⟨_, hdropins, _⟩ := bind_eq_ok.mp h
  exact of_decide_eq_true (requireUnit_eq_ok.mp hdropins)

theorem unitDropins_of_dhcp {unitPath : String} {text : List Char}
    (h : verifyDhcpService rootfs unitPath = .ok text) :
    unitDropins rootfs "rave-management-dhcp.service" = [] := by
  obtain ⟨_, _, h⟩ := bind_eq_ok.mp h
  obtain ⟨_, hdropins, _⟩ := bind_eq_ok.mp h
  exact requireNoDropins_eq_ok.mp hdropins

/-- An accepted image has no drop-ins under the units' own names. -/
theorem unitDropins_of_verified [PyUnicode] (h : verifyUnits rootfs = .ok ()) :
    ∀ unit ∈ UNITS, unitDropins rootfs unit = [] := by
  obtain ⟨_, hweb, h⟩ := bind_eq_ok.mp h
  obtain ⟨_, hnetworkd, h⟩ := bind_eq_ok.mp h
  obtain ⟨_, hdhcp, _⟩ := bind_eq_ok.mp h
  obtain ⟨hservice, hsocket⟩ := unitDropins_of_web hweb
  intro unit hunit
  simp only [UNITS, List.mem_cons, List.not_mem_nil, or_false] at hunit
  rcases hunit with rfl | rfl | rfl | rfl
  · exact hservice
  · exact hsocket
  · exact unitDropins_of_networkd hnetworkd
  · exact unitDropins_of_dhcp hdhcp

/-- systemd loads the packaged unit exactly when there is none of the administrator's. -/
theorem fragmentPath_eq_iff {unit : String} :
    fragmentPath rootfs unit = LIB_UNITS ++ "/" ++ unit ↔
      rootfs.lstat (ETC_UNITS ++ "/" ++ unit) = none := by
  have hne : ETC_UNITS ++ "/" ++ unit ≠ LIB_UNITS ++ "/" ++ unit := by
    intro h
    have hetc : ∀ l, (ETC_UNITS.toList ++ l)[1]? = some 'e' := fun l =>
      (List.getElem?_append_left (by decide)).trans (by decide)
    have hlib : ∀ l, (LIB_UNITS.toList ++ l)[1]? = some 'u' := fun l =>
      (List.getElem?_append_left (by decide)).trans (by decide)
    have hchars := congrArg (fun s => s.toList[1]?) h
    simp only [String.toList_append, List.append_assoc, hetc, hlib] at hchars
    exact absurd hchars (by decide)
  unfold fragmentPath
  split
  · next hsome =>
    obtain ⟨entry, hentry⟩ := Option.isSome_iff_exists.mp hsome
    simp [hne, hentry]
  · next hnone => simpa using hnone

/-- **Systemd loads the four units of an accepted image from the verified files alone exactly when
nothing overrides them where the verifier does not look.** -/
theorem loadsVerified_iff [PyUnicode] (h : verifyUnits rootfs = .ok ()) :
    LoadsVerified rootfs ↔ Unoverridden rootfs := by
  have hown := unitDropins_of_verified h
  have hsources : ∀ unit ∈ UNITS, unitSources rootfs unit = [LIB_UNITS ++ "/" ++ unit] ↔
      rootfs.lstat (ETC_UNITS ++ "/" ++ unit) = none ∧
        ∀ name ∈ widerNames unit, unitDropins rootfs name = [] := by
    intro unit hunit
    rw [unitSources, List.cons.injEq, fragmentPath_eq_iff, List.flatMap_cons, hown unit hunit,
      List.nil_append, List.flatMap_eq_nil_iff]
  constructor
  · intro hloads unit hunit
    exact (hsources unit hunit).mp (hloads unit hunit)
  · intro hnone unit hunit
    exact (hsources unit hunit).mpr (hnone unit hunit)

end

/-! ## An image

An image that is accepted although systemd loads another unit. -/

def webServiceText : List Char :=
  "[Unit]\nRequires=rave-webd.socket\n\n[Service]\nUser=rave\nGroup=rave\n".toList ++
  "Environment=RAVE_PROVIDER=pi\nExecStart=/usr/bin/python3 -m uvicorn rave_web.app:app ".toList ++
  "--app-dir /opt/rave/web --fd 3\nNoNewPrivileges=true\nProtectClock=true\n".toList ++
  "RestrictAddressFamilies=AF_UNIX\n".toList

def webSocketText : List Char :=
  "[Socket]\nListenStream=8080\nBindToDevice=wlan0\nService=rave-webd.service\n".toList

def networkdServiceText : List Char :=
  "[Service]\nUser=root\nGroup=rave\nExecStart=/usr/bin/python3 -m rave_networkd\n".toList ++
  "NoNewPrivileges=true\nProtectSystem=strict\nReadWritePaths=/run/rave\n".toList ++
  "ProtectClock=true\nPrivateDevices=true\nRestrictAddressFamilies=AF_UNIX\n".toList ++
  "CapabilityBoundingSet=\nLimitCORE=0\n".toList

def dhcpServiceText : List Char :=
  "[Service]\nExecStart=/usr/sbin/dnsmasq --keep-in-foreground --no-hosts --no-resolv ".toList ++
  "--conf-file=/etc/rave/network/dnsmasq.conf\nProtectSystem=strict\n".toList ++
  "ReadWritePaths=/var/lib/misc\n".toList

/-- What the verifier looks for in `backend.py`. -/
def backendText : List Char :=
  "INTERFACE = \"wlan0\"\nPROVISIONING_PROFILE = \"RAVE-Setup\"\n".toList ++
  "SAVED_PROFILE = \"RAVE-Management\"\nPREVIOUS_PROFILE = \"RAVE-Management-Previous\"\n".toList ++
  "SYSTEMCTL = \"/usr/bin/systemctl\"\nos.memfd_create\nrun_with_secret\n".toList ++
  "\"connection.autoconnect\", \"no\"\n".toList

/-- What it looks for in `server.py`. -/
def serverText : List Char :=
  "SO_PEERCRED\npeer_not_authorized\n".toList

/-- What it looks for in `client.py`. -/
def clientText : List Char :=
  "SO_PEERCRED\nexpected_server_uid: int = 0\n".toList

/-- What the verifiers read of an image, without or with a definition of `rave-webd.service` under
`/etc/systemd/system`. -/
def imageOf (override : Option (List Char))
    (webService webSocket networkdService dhcpService backend server client : List Char) :
    ImageTree where
  entries :=
    override.toList.map (fun text => (ETC_UNITS ++ "/rave-webd.service", .node (.file text))) ++
    [("/etc/systemd/system/sockets.target.wants/rave-webd.socket",
      .link "/usr/lib/systemd/system/rave-webd.socket" (some (.file webSocket))),
    ("/opt/rave/management/rave_network_ipc/client.py", .node (.file client)),
    ("/opt/rave/management/rave_networkd/backend.py", .node (.file backend)),
    ("/opt/rave/management/rave_networkd/server.py", .node (.file server)),
    (LIB_UNITS ++ "/rave-management-dhcp.service", .node (.file dhcpService)),
    (LIB_UNITS ++ "/rave-networkd.service", .node (.file networkdService)),
    (LIB_UNITS ++ "/rave-webd.service", .node (.file webService)),
    (LIB_UNITS ++ "/rave-webd.socket", .node (.file webSocket)),
    ("/var/lib/misc", .node (.directory 0o755 0 0))]
  sorted := by
    have hpaths : ["/etc/systemd/system/rave-webd.service",
        "/etc/systemd/system/sockets.target.wants/rave-webd.socket",
        "/opt/rave/management/rave_network_ipc/client.py",
        "/opt/rave/management/rave_networkd/backend.py",
        "/opt/rave/management/rave_networkd/server.py",
        LIB_UNITS ++ "/rave-management-dhcp.service", LIB_UNITS ++ "/rave-networkd.service",
        LIB_UNITS ++ "/rave-webd.service", LIB_UNITS ++ "/rave-webd.socket",
        "/var/lib/misc"].Pairwise (· < ·) := by decide
    cases override with
    | none => exact (List.pairwise_cons.mp hpaths).2
    | some text => exact hpaths

/-- The image, whose `rave-webd.service` may be overridden. -/
def image (override : Option (List Char)) : ImageTree :=
  imageOf override webServiceText webSocketText networkdServiceText dhcpServiceText backendText
    serverText clientText

/-- In the model of Unicode that has ASCII only, letters are lowered one by one. -/
theorem lowerChars_ascii (text : List Char) :
    @lowerChars asciiUnicode text = text.map Char.toLower := by
  show ((String.ofList text).map Char.toLower).toList = text.map Char.toLower
  rw [String.toList_map, String.toList_ofList]

/-- An unrestricted service in the place of the verified one. -/
def overriddenImage : ImageTree :=
  image (some "[Service]\nExecStart=/usr/bin/python3 -m uvicorn rave_web.app:app\n".toList)

set_option maxRecDepth 4000 in
theorem verified_overriddenImage : @verifyUnits asciiUnicode overriddenImage = .ok () := by
  have hweb : webServiceText = _ := congrArg₂ (· ++ ·) (congrArg₂ (· ++ ·) (congrArg₂ (· ++ ·)
    (toList_of_eq rfl) (toList_of_eq rfl)) (toList_of_eq rfl)) (toList_of_eq rfl)
  have hsocket : webSocketText = _ := toList_of_eq rfl
  have hnetworkd : networkdServiceText = _ := congrArg₂ (· ++ ·) (congrArg₂ (· ++ ·)
    (congrArg₂ (· ++ ·) (toList_of_eq rfl) (toList_of_eq rfl)) (toList_of_eq rfl))
    (toList_of_eq rfl)
  have hdhcp : dhcpServiceText = _ := congrArg₂ (· ++ ·) (congrArg₂ (· ++ ·) (toList_of_eq rfl)
    (toList_of_eq rfl)) (toList_of_eq rfl)
  have hbackend : backendText = _ := congrArg₂ (· ++ ·) (congrArg₂ (· ++ ·) (congrArg₂ (· ++ ·)
    (toList_of_eq rfl) (toList_of_eq rfl)) (toList_of_eq rfl)) (toList_of_eq rfl)
  have hserver : serverText = _ := toList_of_eq rfl
  have hclient : clientText = _ := toList_of_eq rfl
  rewrite [overriddenImage, image, hweb, hsocket, hnetworkd, hdhcp, hbackend, hserver, hclient]
  unfold verifyUnits verifyNetworkdService
  simp only [lowerChars_ascii]
  decide

theorem loadsVerified_overriddenImage :
    LoadsVerified overriddenImage ↔ Unoverridden overriddenImage :=
  @loadsVerified_iff overriddenImage asciiUnicode verified_overriddenImage

/-- **A service under `/etc/systemd/system` replaces the verified one, and the image is accepted.** -/
theorem not_loadsVerified : ¬∀ rootfs : ImageTree, @verifyUnits asciiUnicode rootfs = .ok () →
    LoadsVerified rootfs := by
  intro hall
  have hloads := hall overriddenImage verified_overriddenImage "rave-webd.service" (by simp [UNITS])
  have hnone := fragmentPath_eq_iff.mp (List.cons.inj hloads).1
  have hsome : (overriddenImage.lstat (ETC_UNITS ++ "/" ++ "rave-webd.service")).isSome = true := by
    decide
  rw [hnone] at hsome
  cases hsome

end Rave
