import RaveDeployment.Lib.Prog
import RaveDeployment.Network.Protocol
import RaveDeployment.Python.Uuid

/-!
# The fixed commands of the backend

Every command `rave_networkd/backend.py` hands to its `CommandRunner`, as a datatype. `argv`
and `timeout` are what the source passes for it; `Backend α` is a backend method as a program
over such commands.
-/

namespace Rave

def NMCLI : String := "/usr/bin/nmcli"
def SYSTEMCTL : String := "/usr/bin/systemctl"
def INTERFACE : String := "wlan0"
def DHCP_SERVICE : String := "rave-management-dhcp.service"
def COMMAND_TIMEOUT_SECONDS : Nat := 35

/-- A profile's `connection.id`, which `nmcli` prints in one line. -/
@[ext] structure ProfileName where
  text : String
  single_line : ∀ c ∈ text.toList, Py.isLineBreak c = false
  deriving DecidableEq

/-- Whether a text is a single line can be decided. -/
theorem single_line_of_all {text : String}
    (h : (text.toList.all fun c => !Py.isLineBreak c) = true) :
    ∀ c ∈ text.toList, Py.isLineBreak c = false := by
  intro c hc
  have hc := List.all_eq_true.mp h c hc
  simpa using hc

def PROVISIONING_PROFILE : ProfileName := ⟨"RAVE-Setup", single_line_of_all (by decide)⟩
def SAVED_PROFILE : ProfileName := ⟨"RAVE-Management", single_line_of_all (by decide)⟩
def PENDING_PROFILE : ProfileName := ⟨"RAVE-Management-Pending", single_line_of_all (by decide)⟩
def PREVIOUS_PROFILE : ProfileName := ⟨"RAVE-Management-Previous", single_line_of_all (by decide)⟩

/-- What a command answers. -/
structure CommandResult where
  returncode : Int
  stdout : String
  deriving DecidableEq

/-- The properties `_profile_property` is asked for. -/
inductive ProfileProperty where
  | connectionId
  | connectionAutoconnect
  deriving DecidableEq

def ProfileProperty.name : ProfileProperty → String
  | .connectionId => "connection.id"
  | .connectionAutoconnect => "connection.autoconnect"

/-- The actions on the DHCP service. -/
inductive ServiceAction where
  | start
  | stop
  | isActive
  deriving DecidableEq

/-- The commands that `backend.py` runs. -/
inductive Command where
  | radioWifiOn
  | wifiList
  | addPending (ssid : String)
  | securePending (keyManagement : String)
  | upUuid (profile : Uuid)
  | upProvisioning
  | setIdentity (profile : Uuid) (profileId : ProfileName)
  | getProperty (profile : Uuid) (property : ProfileProperty)
  | getSsid (selector : Option Uuid)
  | listProfiles
  | deleteId (profileId : ProfileName)
  | deleteUuid (profile : Uuid)
  | showDevice
  | dhcp (action : ServiceAction)
  deriving DecidableEq

namespace Command

/-- `_nmcli_command`. -/
def nmcli (wait : Nat) (arguments : List String) : List String :=
  [NMCLI, "--wait", toString wait] ++ arguments

/-- Their arguments, as `subprocess` is given them. -/
def argv : Command → List String
  | radioWifiOn => nmcli 5 ["radio", "wifi", "on"]
  | wifiList => nmcli 12 ["--terse", "--escape", "yes", "--fields", "SSID,SIGNAL,SECURITY,IN-USE",
      "device", "wifi", "list", "ifname", INTERFACE, "--rescan", "yes"]
  | addPending ssid => nmcli 5 ["connection", "add", "type", "wifi", "ifname", INTERFACE,
      "con-name", PENDING_PROFILE.text, "ssid", ssid, "connection.autoconnect", "no",
      "ipv4.method", "auto", "ipv4.never-default", "no", "ipv6.method", "auto"]
  | securePending keyManagement => nmcli 5 ["connection", "modify", "id", PENDING_PROFILE.text,
      "802-11-wireless-security.key-mgmt", keyManagement,
      "802-11-wireless-security.psk-flags", "0"]
  | upUuid profile => nmcli 30 ["connection", "up", "uuid", profile.text, "ifname", INTERFACE]
  | upProvisioning =>
      nmcli 20 ["connection", "up", "id", PROVISIONING_PROFILE.text, "ifname", INTERFACE]
  | setIdentity profile profileId => nmcli 5 ["connection", "modify", "uuid", profile.text,
      "connection.id", profileId.text, "connection.autoconnect", "no"]
  | getProperty profile property =>
      nmcli 2 ["--get-values", property.name, "connection", "show", "uuid", profile.text]
  | getSsid selector => nmcli 2 (["--get-values", "802-11-wireless.ssid", "connection", "show"] ++
      match selector with
      | some profile => ["uuid", profile.text]
      | none => ["id", SAVED_PROFILE.text])
  | listProfiles => nmcli 2 ["--terse", "--escape", "no", "--fields", "UUID,NAME",
      "connection", "show"]
  | deleteId profileId => nmcli 5 ["connection", "delete", "id", profileId.text]
  | deleteUuid profile => nmcli 5 ["connection", "delete", "uuid", profile.text]
  | showDevice => nmcli 2 ["--get-values", "GENERAL.CONNECTION", "device", "show", INTERFACE]
  | dhcp .start => [SYSTEMCTL, "start", DHCP_SERVICE]
  | dhcp .stop => [SYSTEMCTL, "stop", DHCP_SERVICE]
  | dhcp .isActive => [SYSTEMCTL, "is-active", "--quiet", DHCP_SERVICE]

/-- The `timeout` argument, in seconds. -/
def timeout : Command → Nat
  | radioWifiOn => 8
  | wifiList => 15
  | addPending _ => 8
  | securePending _ => 8
  | upUuid _ => COMMAND_TIMEOUT_SECONDS
  | upProvisioning => 25
  | setIdentity _ _ => 8
  | getProperty _ _ => 3
  | getSsid _ => 3
  | listProfiles => 3
  | deleteId _ => 8
  | deleteUuid _ => 8
  | showDevice => 3
  | dhcp .start => 10
  | dhcp .stop => 10
  | dhcp .isActive => 3

/-- Every timeout passes the runner's own check, so `command_timeout_out_of_policy` is never
raised. -/
theorem timeout_in_policy (c : Command) :
    0 < c.timeout ∧ c.timeout ≤ COMMAND_TIMEOUT_SECONDS := by
  cases c with
  | dhcp action => cases action <;> decide
  | _ => simp [timeout, COMMAND_TIMEOUT_SECONDS]

end Command

/-! ## The runner

The two ways in which the backend runs a command: with nothing on its input, and with a secret. -/

/-- A call of the `CommandRunner`. -/
inductive RunnerCall where
  | run (command : Command)
  | runWithSecret (command : Command) (password : String)
  deriving DecidableEq

def RunnerCall.command : RunnerCall → Command
  | .run c => c
  | .runWithSecret c _ => c

/-- A call of the runner returns a result or raises. -/
abbrev RunnerAnswer (_ : RunnerCall) : Type := Except PyErr CommandResult

/-- A method of the backend: a program over runner calls. -/
abbrev Backend (α : Type) : Type := Prog PyErr RunnerCall RunnerAnswer α

namespace Backend

/-- `self._runner.run(command, timeout=...)`. -/
def run (c : Command) : Backend CommandResult :=
  .op (.run c) Prog.ofExcept

/-- `self._runner.run_with_secret(command, password=password, timeout=...)`. -/
def runWithSecret (c : Command) (password : String) : Backend CommandResult :=
  .op (.runWithSecret c password) Prog.ofExcept

def succeeds (c : Command) : Backend Bool := do
  let result ← run c
  return result.returncode == 0

end Backend

end Rave
