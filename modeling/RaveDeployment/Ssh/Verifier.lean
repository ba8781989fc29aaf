import RaveDeployment.Lib.Checks
import RaveDeployment.Python.Text

/-!
# The sshd policy checks of the image verifier

The part of `verify_engineering_ethernet_ssh` in `scripts/verify_rave_image.py` that reads the sshd
configuration: `etc/ssh/sshd_config`, the reviewed drop-in `90-rave-ethernet.conf`, and, for one
check, the other drop-ins. The rest of the function reads other files.
-/

namespace Rave

open Py

def SSHD_CONFIG : String := "/etc/ssh/sshd_config"
def SSHD_DROP_INS : String := "/etc/ssh/sshd_config.d/"
def POLICY_PATH : String := "/etc/ssh/sshd_config.d/90-rave-ethernet.conf"
def INCLUDE_PATTERN : String := "/etc/ssh/sshd_config.d/*.conf"

/-- The regular files of a root filesystem, with their text by path, in the order of the paths. -/
structure RootFs where
  files : List (String × List Char)
  sorted : (files.map Prod.fst).Pairwise (· < ·)

/-- Why the verifier gives up: its own error, or the one of `read_text`. -/
inductive ImageError where
  | verificationError (message : String)
  | fileNotFound (path : String)
  deriving DecidableEq

namespace RootFs

variable (rootfs : RootFs)

def content (path : String) : Option (List Char) :=
  (rootfs.files.find? fun file => file.1 = path).map Prod.snd

/-- `read_text`. -/
def readText (path : String) : Except ImageError (List Char) :=
  match rootfs.content path with
  | some text => .ok (universalNewlines text)
  | none => .error (.fileNotFound path)

/-- `glob("*.conf")` in the directory of the drop-ins. -/
def isDropIn (path : String) : Bool :=
  let name := path.toList.drop SSHD_DROP_INS.toList.length
  SSHD_DROP_INS.toList.isPrefixOf path.toList && !name.contains '/' &&
    ".conf".toList.isSuffixOf name

end RootFs

def require (condition : Bool) (message : String) : Except ImageError Unit :=
  if condition then .ok () else .error (.verificationError message)

/-- An entry of `required_policy`. -/
structure Requirement where
  keyword : String
  value : String
  deriving DecidableEq

def Requirement.text (r : Requirement) : List Char :=
  r.keyword.toList ++ ' ' :: r.value.toList

def requiredPolicy : List Requirement :=
  [⟨"PubkeyAuthentication", "yes"⟩,
    ⟨"PasswordAuthentication", "no"⟩,
    ⟨"KbdInteractiveAuthentication", "no"⟩,
    ⟨"ChallengeResponseAuthentication", "no"⟩,
    ⟨"PermitEmptyPasswords", "no"⟩,
    ⟨"PermitRootLogin", "no"⟩,
    ⟨"AllowUsers", "pi"⟩,
    ⟨"AllowTcpForwarding", "no"⟩,
    ⟨"GatewayPorts", "no"⟩,
    ⟨"X11Forwarding", "no"⟩,
    ⟨"PermitTunnel", "no"⟩,
    ⟨"AllowAgentForwarding", "no"⟩]

def forbiddenPolicy : List String :=
  ["PasswordAuthentication yes",
    "KbdInteractiveAuthentication yes",
    "ChallengeResponseAuthentication yes",
    "PermitRootLogin yes",
    "AllowUsers root"]

def INCLUDE_LINE : String := "Include /etc/ssh/sshd_config.d/*.conf"

/-- `active_sshd_lines`. -/
def activeSshdLines (configuration : List Char) : List (List Char) :=
  ((splitLines configuration).map (stripChars isSpace)).filter fun line =>
    line ≠ [] ∧ line.head? ≠ some '#'

def isListenAddress [PyUnicode] (line : List Char) : Bool :=
  "listenaddress ".toList.isPrefixOf (PyUnicode.lower (String.ofList (squeeze line))).toList

/-- `sshd_configuration`: the main file and the drop-ins, in the order of their names. -/
def sshdConfiguration (rootfs : RootFs) : Except ImageError (List Char) := do
  let paths := SSHD_CONFIG :: (rootfs.files.map Prod.fst).filter RootFs.isDropIn
  let texts ← paths.mapM rootfs.readText
  return List.intercalate ['\n'] texts

/-- The part of `verify_engineering_ethernet_ssh` that looks at the configuration of sshd. -/
def verifySshPolicy [PyUnicode] (rootfs : RootFs) : Except ImageError Unit := do
  require (rootfs.content POLICY_PATH).isSome "engineering sshd policy is missing"
  let policy ← rootfs.readText POLICY_PATH
  let mainSshdConfig ← rootfs.readText SSHD_CONFIG
  require ((splitLines mainSshdConfig).contains INCLUDE_LINE.toList)
    "sshd does not include the engineering policy drop-in"
  requiredPolicy.forM fun expected =>
    require ((splitLines policy).contains expected.text)
      ("missing engineering sshd policy: " ++ String.ofList expected.text)
  forbiddenPolicy.forM fun forbidden =>
    require (!containsChars forbidden.toList policy)
      ("unsafe engineering sshd policy: " ++ forbidden)
  (activeSshdLines (← sshdConfiguration rootfs)).forM fun line =>
    require (!isListenAddress line)
      ("sshd listener policy must remain owned exclusively by ssh.socket: " ++ String.ofList line)

/-! ## What acceptance says

The three files that the verifier looks at, and what it requires of each. -/

/-- A requirement is met where it holds. -/
theorem require_eq_ok {condition : Bool} {message : String} :
    require condition message = .ok () ↔ condition = true := by
  unfold require
  split
  · next h => simp [h]
  · next h => simp [h]

/-- What is read of a file is its content, in text mode. -/
theorem RootFs.readText_eq_ok {rootfs : RootFs} {path : String} {text : List Char} :
    rootfs.readText path = .ok text ↔ ∃ stored, rootfs.content path = some stored ∧
      text = universalNewlines stored := by
  unfold RootFs.readText
  cases rootfs.content path with
  | none => simp
  | some stored => simp [eq_comm]

/-- The two files are there, as `policy` and `main`, and have the lines they must have. -/
structure PolicyAccepted (rootfs : RootFs) (policy main : List Char) : Prop where
  policy_content : rootfs.content POLICY_PATH = some policy
  main_content : rootfs.content SSHD_CONFIG = some main
  included : INCLUDE_LINE.toList ∈ splitLines (universalNewlines main)
  required : ∀ r ∈ requiredPolicy, r.text ∈ splitLines (universalNewlines policy)

/-- What the verifier has seen of an image that it accepts. -/
theorem policyAccepted_of_verified [PyUnicode] {rootfs : RootFs}
    (h : verifySshPolicy rootfs = .ok ()) : ∃ policy main, PolicyAccepted rootfs policy main := by
  obtain ⟨_, _, h⟩ := bind_eq_ok.mp h
  obtain ⟨policyText, hpolicyText, h⟩ := bind_eq_ok.mp h
  obtain ⟨mainText, hmainText, h⟩ := bind_eq_ok.mp h
  obtain ⟨_, hincluded, h⟩ := bind_eq_ok.mp h
  obtain ⟨_, hrequired, _⟩ := bind_eq_ok.mp h
  obtain ⟨policy, hpolicy, rfl⟩ := RootFs.readText_eq_ok.mp hpolicyText
  obtain ⟨main, hmain, rfl⟩ := RootFs.readText_eq_ok.mp hmainText
  refine ⟨policy, main, hpolicy, hmain, ?_, fun r hr => ?_⟩
  · have hline := require_eq_ok.mp hincluded
    exact List.contains_iff_mem.mp hline
  · have hline := require_eq_ok.mp (forM_eq_ok.mp hrequired r hr)
    exact List.contains_iff_mem.mp hline

end Rave
