import RaveDeployment.Network.Command
import RaveDeployment.Network.Scan

/-!
# `NetworkManagerBackend`

The methods of `rave_networkd/backend.py`, as programs over runner calls, in the source's order.
A method that returns a Python tuple returns the corresponding Lean tuple.
-/

namespace Rave

open Py

/-- `(success, ssid, error)`. -/
abbrev StationResult : Type := Bool × Option String × Option String

/-- `(success, error)`. -/
abbrev ProvisioningResult : Type := Bool × Option String

namespace Backend

/-! ## Single commands

Each method runs one command and looks at its exit status or its output. -/

/-- `_stop_dhcp`. -/
def stopDhcp : Backend Bool :=
  succeeds (.dhcp .stop)

/-- `_enable_wifi`. -/
def enableWifi : Backend Bool :=
  succeeds .radioWifiOn

/-- `_delete_profile`. -/
def deleteProfile (profile : ProfileName) : Backend Unit := do
  let _ ← run (.deleteId profile)
  return ()

/-- `_delete_profile_uuid`. -/
def deleteProfileUuid (profileUuid : Uuid) : Backend Bool :=
  succeeds (.deleteUuid profileUuid)

/-- `_set_profile_identity`. -/
def setProfileIdentity (profileUuid : Uuid) (profileId : ProfileName) : Backend Bool :=
  succeeds (.setIdentity profileUuid profileId)

/-- `_profile_property`. -/
def profileProperty (profileUuid : Uuid) (property : ProfileProperty) :
    Backend (Option String) := do
  let result ← run (.getProperty profileUuid property)
  return if result.returncode = 0 then some (strip result.stdout) else none

/-- `and` asks for the second property only when the first one is right. -/
def profileHasIdentity (profileUuid : Uuid) (profileId : ProfileName) : Backend Bool := do
  let id ← profileProperty profileUuid .connectionId
  if id = some profileId.text then
    let autoconnect ← profileProperty profileUuid .connectionAutoconnect
    return autoconnect = some "no"
  else
    return false

/-- `_active_connection`. -/
def activeConnection : Backend (Option String) := do
  let result ← run .showDevice
  return if result.returncode = 0 then some (strip result.stdout) else none

/-! ## Looking a profile up

By its name, which more than one profile may have. The look-up is refused when it is not unique. -/

/-- The loop of `_profile_uuid` over the lines of the listing: the UUIDs listed under the name,
or nothing where one of them is no UUID. -/
def profileMatches (profileId : ProfileName) : List String → Option (List Uuid)
  | [] => some []
  | line :: lines =>
    let (candidate, separator, name) := partitionAt ':' line.toList
    if separator = false ∨ String.ofList name ≠ profileId.text then profileMatches profileId lines
    else
      match Uuid.ofChars? candidate with
      | none => none
      | some profileUuid => (profileMatches profileId lines).map (profileUuid :: ·)

/-- `(lookup_ok, uuid)`: two profiles of one name are no answer. -/
def uniqueMatch : Option (List Uuid) → Bool × Option Uuid
  | none => (false, none)
  | some [] => (true, none)
  | some [profileUuid] => (true, some profileUuid)
  | some (_ :: _ :: _) => (false, none)

/-- `_profile_uuid`. -/
def profileUuid (profileId : ProfileName) : Backend (Bool × Option Uuid) := do
  let result ← run .listProfiles
  if result.returncode ≠ 0 then
    return (false, none)
  return uniqueMatch (profileMatches profileId (splitlines result.stdout))

/-- `_saved_ssid`. -/
def savedSsid (profileUuid : Option Uuid) : Backend (Option String) := do
  let result ← run (.getSsid profileUuid)
  let candidate := strip result.stdout
  if result.returncode = 0 then
    match validateSsid candidate with
    | .ok ssid => return some ssid
    | .error _ => return none
  else
    return none

/-! ## Scanning

The output is parsed line by line; what cannot be read is left out. -/

def scan [PyUnicode] : Backend (List AccessPoint) := do
  if !(← enableWifi) then
    throw (.runtimeError "wifi_radio_failed")
  let result ← run .wifiList
  if result.returncode ≠ 0 then
    throw (.runtimeError "wifi_scan_failed")
  return scanResult result.stdout

/-- `_credential_error`. -/
def credentialError (security : WifiSecurity) (password : Option String) : Option String :=
  match security, password with
  | .enterprise, _ => some "security_not_supported"
  | .unsupported, _ => some "security_not_supported"
  | .open, none => none
  | .open, some _ => some "password_not_expected"
  | .wpaPersonal, none => some "password_required"
  | .wpaPersonal, some secret =>
    match validatePassword secret with
    | .ok _ => none
    | .error _ => some "password_invalid"

/-! ## Promoting a candidate profile

A profile is created under the pending name, activated, checked and renamed; the previous one is
renamed before that and deleted after it. -/

/-- `_create_pending_profile`. -/
def createPendingProfile (accessPoint : AccessPoint) : Backend Bool := do
  let added ← run (.addPending accessPoint.ssid)
  match added.returncode == 0, accessPoint.keyManagement with
  | true, some keyManagement => succeeds (.securePending keyManagement)
  | ok, _ => return ok

/-- `_activate_pending`. -/
def activatePending (profileUuid : Uuid) (accessPoint : AccessPoint)
    (password : Option String) : Backend Bool := do
  let result ←
    if accessPoint.security = .open then run (.upUuid profileUuid)
    else match password with
      | none => throw .assertionError
      | some secret => runWithSecret (.upUuid profileUuid) secret
  return result.returncode == 0

/-- The first half of `_promote_pending_profile`: the previous profile steps back under the
backup name. -/
def backUpPrevious (previousUuid : Option Uuid) : Backend Bool :=
  match previousUuid with
  | none => return true
  | some previous => do
    if !(← setProfileIdentity previous PREVIOUS_PROFILE) then
      return false
    profileHasIdentity previous PREVIOUS_PROFILE

/-- `_promote_pending_profile`. -/
def promotePendingProfile (pendingUuid : Uuid) (previousUuid : Option Uuid) :
    Backend Bool := do
  if !(← backUpPrevious previousUuid) then
    return false
  if !(← setProfileIdentity pendingUuid SAVED_PROFILE) then
    return false
  if !(← profileHasIdentity pendingUuid SAVED_PROFILE) then
    return false
  match previousUuid with
  | none => return true
  | some previous => deleteProfileUuid previous

/-- `_rollback_promotion`. -/
def rollbackPromotion (pendingUuid : Uuid) (previousUuid : Option Uuid) : Backend Unit := do
  let _ ← setProfileIdentity pendingUuid PENDING_PROFILE
  if let some previous := previousUuid then
    let _ ← setProfileIdentity previous SAVED_PROFILE
  let _ ← deleteProfileUuid pendingUuid
  return ()

/-- The end of `_saved_profile_for_activation`: the profile takes the saved name. -/
def takeSavedName (profile : Uuid) : Backend (Option Uuid) := do
  if !(← setProfileIdentity profile SAVED_PROFILE) then
    return none
  if !(← profileHasIdentity profile SAVED_PROFILE) then
    return none
  return some profile

/-- `_saved_profile_for_activation`. -/
def savedProfileForActivation : Backend (Option Uuid) := do
  let (lookupOk, saved) ← profileUuid SAVED_PROFILE
  if lookupOk = false then
    return none
  match saved with
  | some profile => takeSavedName profile
  | none => do
    let (backupOk, backup) ← profileUuid PREVIOUS_PROFILE
    match backupOk, backup with
    | true, some profile => takeSavedName profile
    | _, _ => return none

/-! ## The public methods

What the controller calls. -/

/-- `has_saved_station`. -/
def hasSavedStation : Backend Bool := do
  let (lookupOk, saved) ← profileUuid SAVED_PROFILE
  if lookupOk = false ∨ saved.isSome then
    return lookupOk && saved.isSome
  let (backupOk, backup) ← profileUuid PREVIOUS_PROFILE
  return backupOk && backup.isSome

/-- `activate_saved_station`. -/
def activateSavedStation : Backend StationResult := do
  match ← savedProfileForActivation with
  | none => return (false, none, some "saved_station_profile_failed")
  | some profile => do
    if !(← enableWifi) then
      return (false, none, some "wifi_radio_failed")
    if !(← stopDhcp) then
      return (false, none, some "ap_dhcp_stop_failed")
    let result ← run (.upUuid profile)
    if result.returncode ≠ 0 then
      return (false, none, some "saved_station_timeout")
    let ssid ← savedSsid (some profile)
    return (true, ssid, none)

/-- The part of `connect_station` that follows the look-up of the candidate. -/
def activateAndPromote (selectedSsid : String) (pending : Uuid) (previousUuid : Option Uuid)
    (accessPoint : AccessPoint) (password : Option String) : Backend StationResult := do
  if !(← activatePending pending accessPoint password) then
    let _ ← deleteProfileUuid pending
    return (false, none, some "station_timeout")
  if !(← promotePendingProfile pending previousUuid) then
    rollbackPromotion pending previousUuid
    return (false, none, some "station_profile_persistence_failed")
  return (true, some selectedSsid, none)

/-- The part of `connect_station` that follows the credential check. -/
def replaceProfile (selectedSsid : String) (accessPoint : AccessPoint)
    (password : Option String) : Backend StationResult := do
  if !(← stopDhcp) then
    return (false, none, some "ap_dhcp_stop_failed")
  let (lookupOk, previousUuid) ← profileUuid SAVED_PROFILE
  if lookupOk = false then
    return (false, none, some "station_profile_persistence_failed")
  deleteProfile PENDING_PROFILE
  if !(← createPendingProfile accessPoint) then
    deleteProfile PENDING_PROFILE
    return (false, none, some "station_profile_failed")
  match ← profileUuid PENDING_PROFILE with
  | (true, some pending) =>
    activateAndPromote selectedSsid pending previousUuid accessPoint password
  | _ => do
    deleteProfile PENDING_PROFILE
    return (false, none, some "station_profile_failed")

/-- `connect_station`. -/
def connectStation [PyUnicode] (ssid : String) (password : Option String) :
    Backend StationResult := do
  let selectedSsid ← Prog.ofExcept (validateSsid ssid)
  match (← scan).find? fun item => item.ssid = selectedSsid with
  | none => return (false, none, some "ssid_not_found")
  | some accessPoint =>
    match credentialError accessPoint.security password with
    | some error => return (false, none, some error)
    | none => replaceProfile selectedSsid accessPoint password

/-- `activate_provisioning`. -/
def activateProvisioning : Backend ProvisioningResult := do
  if !(← enableWifi) then
    return (false, some "wifi_radio_failed")
  let result ← run .upProvisioning
  if result.returncode ≠ 0 then
    return (false, some "ap_activation_failed")
  let dhcp ← run (.dhcp .start)
  if dhcp.returncode ≠ 0 then
    return (false, some "ap_dhcp_failed")
  return (true, none)

/-- `active_station_ssid`. -/
def activeStationSsid : Backend (Option String) := do
  if (← activeConnection) ≠ some SAVED_PROFILE.text then
    return none
  savedSsid none

/-- `provisioning_ready`. -/
def provisioningReady : Backend Bool := do
  if (← activeConnection) ≠ some PROVISIONING_PROFILE.text then
    return false
  let result ← run (.dhcp .isActive)
  return result.returncode == 0

end Backend

end Rave
