import RaveDeployment.Python.Text

/-!
# The wire contract and the mode policy

`rave_network_ipc/protocol.py` (modes, security classes, the two credential validators) and
`rave_network_ipc/state.py` (events and the transition table).
-/

namespace Rave

open Py

/-- The exceptions the daemon's code raises or handles by kind. -/
inductive PyErr where
  | osError
  | runtimeError (message : String)
  | valueError (message : String)
  | assertionError
  deriving DecidableEq, Repr

/-- `except (OSError, RuntimeError, ValueError)`. -/
def PyErr.handled : PyErr → Bool
  | .assertionError => false
  | _ => true

/-! ## `protocol.py`

The values that go over the socket, and what is accepted of them. -/

def MAX_NETWORKS : Nat := 64
def SSID_MAX_BYTES : Nat := 32
def PASSWORD_MIN_BYTES : Nat := 8
def PASSWORD_MAX_BYTES : Nat := 63

inductive NetworkMode where
  | unconfigured
  | stationConnecting
  | stationConnected
  | provisioningAp
  | transition
  | error
  deriving DecidableEq, Repr

def NetworkMode.value : NetworkMode → String
  | .unconfigured => "unconfigured"
  | .stationConnecting => "station_connecting"
  | .stationConnected => "station_connected"
  | .provisioningAp => "provisioning_ap"
  | .transition => "transition"
  | .error => "error"

inductive WifiSecurity where
  | open
  | wpaPersonal
  | enterprise
  | unsupported
  deriving DecidableEq, Repr

/-- `validate_ssid`. -/
def validateSsid (value : String) : Except PyErr String := do
  if value.utf8ByteSize = 0 ∨ SSID_MAX_BYTES < value.utf8ByteSize then
    throw (.valueError "ssid_length_invalid")
  if value.toList.any fun c => c = '\x00' ∨ c = '\r' ∨ c = '\n' then
    throw (.valueError "ssid_contains_control_character")
  if value.toList.any fun c => c.toNat < 0x20 ∨ c.toNat = 0x7f then
    throw (.valueError "ssid_contains_control_character")
  return value

/-- `validate_password`. -/
def validatePassword (value : String) : Except PyErr String := do
  if ¬(PASSWORD_MIN_BYTES ≤ value.utf8ByteSize ∧ value.utf8ByteSize ≤ PASSWORD_MAX_BYTES) then
    throw (.valueError "password_length_invalid")
  if value.toList.any fun c => c = '\x00' ∨ c = '\r' ∨ c = '\n' then
    throw (.valueError "password_contains_control_character")
  return value

/-- What the validator accepts it returns, and it fits into the frames of the air interface. -/
theorem validateSsid_eq_ok {value ssid : String} (h : validateSsid value = .ok ssid) :
    ssid = value ∧ ssid.utf8ByteSize ≤ SSID_MAX_BYTES := by
  by_cases hsize : value.utf8ByteSize = 0 ∨ SSID_MAX_BYTES < value.utf8ByteSize
  · simp only [validateSsid, if_pos hsize] at h
    cases h
  · simp only [validateSsid, if_neg hsize] at h
    split at h
    · cases h
    split at h
    · cases h
    · cases h
      exact ⟨rfl, by omega⟩

/-- A password that is accepted is returned as it is, and is short. -/
theorem validatePassword_eq_ok {value password : String}
    (h : validatePassword value = .ok password) :
    password = value ∧ password.utf8ByteSize ≤ PASSWORD_MAX_BYTES := by
  by_cases hsize : PASSWORD_MIN_BYTES ≤ value.utf8ByteSize ∧
      value.utf8ByteSize ≤ PASSWORD_MAX_BYTES
  · simp only [validatePassword, not_true_eq_false, hsize, and_self, if_false] at h
    split at h
    · cases h
    · cases h
      exact ⟨rfl, hsize.2⟩
  · simp only [validatePassword, if_pos hsize] at h
    cases h

/-! ## `state.py`

The table of the transitions. Where it has no entry, `transition` raises. -/

inductive NetworkEvent where
  | boot
  | noSavedNetwork
  | stationRequested
  | stationConnected
  | stationTimeout
  | provisioningRequested
  | apReady
  | apFailed
  deriving DecidableEq, Repr

def NetworkEvent.value : NetworkEvent → String
  | .boot => "boot"
  | .noSavedNetwork => "no_saved_network"
  | .stationRequested => "station_requested"
  | .stationConnected => "station_connected"
  | .stationTimeout => "station_timeout"
  | .provisioningRequested => "provisioning_requested"
  | .apReady => "ap_ready"
  | .apFailed => "ap_failed"

/-- `_TRANSITIONS`. -/
def transitions : NetworkMode → NetworkEvent → Option NetworkMode
  | .unconfigured, .boot => some .stationConnecting
  | .stationConnecting, .noSavedNetwork => some .transition
  | .stationConnecting, .stationConnected => some .stationConnected
  | .stationConnecting, .stationTimeout => some .transition
  | .stationConnecting, .provisioningRequested => some .transition
  | .stationConnected, .stationRequested => some .transition
  | .stationConnected, .provisioningRequested => some .transition
  | .stationConnected, .stationTimeout => some .transition
  | .provisioningAp, .stationRequested => some .transition
  | .provisioningAp, .provisioningRequested => some .transition
  | .transition, .stationConnected => some .stationConnected
  | .transition, .stationTimeout => some .transition
  | .transition, .apReady => some .provisioningAp
  | .transition, .apFailed => some .error
  | .error, .boot => some .stationConnecting
  | .error, .provisioningRequested => some .transition
  | _, _ => none

/-- The error a pair outside the table is refused with. -/
def invalidTransition (current : NetworkMode) (event : NetworkEvent) : PyErr :=
  .valueError ("invalid network transition: " ++ current.value ++ " + " ++ event.value)

def transition (current : NetworkMode) (event : NetworkEvent) : Except PyErr NetworkMode :=
  match transitions current event with
  | some next => .ok next
  | none => .error (invalidTransition current event)

def NetworkMode.transitional : NetworkMode → Bool
  | .stationConnecting | .transition => true
  | _ => false

end Rave
