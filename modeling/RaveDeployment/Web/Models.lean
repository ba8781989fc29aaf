import RaveDeployment.Network.Protocol
import RaveDeployment.Web.SystemInfo

/-!
# The models of the management API

`rave_web/models.py` beside the response of `GET /api/v1/system`. A model is built from its fields
by `validate`, which raises with the fields whose checks fail, so that what is built carries that
none does.
-/

namespace Rave

namespace Web

def Availability.value : Availability → String
  | .unavailable => "unavailable"
  | .starting => "starting"
  | .ready => "ready"
  | .degraded => "degraded"
  | .error => "error"

/-- `Field(min_length=…, max_length=…)`, as the field's name where the check fails. -/
def lengthErrors (field : String) (least most : Nat) (value : String) : List String :=
  if least ≤ value.length ∧ value.length ≤ most then [] else [field]

/-- `Field(default=None, max_length=…)`. -/
def optionalLengthErrors (field : String) (most : Nat) : Option String → List String
  | none => []
  | some value => lengthErrors field 0 most value

/-- `Field(ge=…, le=…)`. -/
def rangeErrors (field : String) (least most value : Int) : List String :=
  if least ≤ value ∧ value ≤ most then [] else [field]

/-- `Field(pattern=…)` of a pattern that admits one text. -/
def patternErrors (field text value : String) : List String :=
  if value = text then [] else [field]

/-! ## Responses

Each with the checks that its model makes; a response that is sent has passed them. -/

/-- `StatusResponse`, with what the other responses check of it. -/
structure StatusResponse where
  apiVersion : String
  validForMs : Int
  overall : Availability
  camera : ComponentStatus
  perception : ComponentStatus
  hailo : ComponentStatus
  commaLink : ComponentStatus

def StatusResponse.errors (r : StatusResponse) : List String :=
  patternErrors "api_version" "v1" r.apiVersion ++ rangeErrors "valid_for_ms" 100 5000 r.validForMs

abbrev ValidStatusResponse := { r : StatusResponse // r.errors = [] }

/-- `NetworkResponse`, of which the route fills these fields. -/
structure NetworkResponse where
  apiVersion : String
  availability : Availability
  mode : NetworkMode
  managementInterface : Option String
  localDiscoveryName : Option String
  runtimeNetwork : String
  actuationAvailable : Bool
  provisioningApActive : Bool
  stationSsid : Option String
  lastError : Option String
  deriving DecidableEq

def NetworkResponse.errors (r : NetworkResponse) : List String :=
  patternErrors "api_version" "v1" r.apiVersion ++
  optionalLengthErrors "management_interface" 32 r.managementInterface ++
  optionalLengthErrors "local_discovery_name" 253 r.localDiscoveryName ++
  patternErrors "runtime_network" "10.77.0.0/24" r.runtimeNetwork ++
  optionalLengthErrors "station_ssid" 32 r.stationSsid ++
  optionalLengthErrors "last_error" 64 r.lastError

abbrev ValidNetworkResponse := { r : NetworkResponse // r.errors = [] }

/-- `WifiNetwork`: one row of a scan. -/
structure WifiNetwork where
  ssid : String
  signalPercent : Int
  security : WifiSecurity
  connected : Bool
  deriving DecidableEq

/-- The fields whose checks fail. The validator of the network name runs when its length is
admitted. -/
def WifiNetwork.errors (n : WifiNetwork) : List String :=
  (if 1 ≤ n.ssid.length ∧ n.ssid.length ≤ 32 ∧ (validateSsid n.ssid).isOk then [] else ["ssid"]) ++
  rangeErrors "signal_percent" 0 100 n.signalPercent

/-- `WifiScanResponse`: what a scan answers. -/
structure WifiScanResponse where
  apiVersion : String
  networks : List WifiNetwork
  deriving DecidableEq

def WifiScanResponse.errors (r : WifiScanResponse) : List String :=
  patternErrors "api_version" "v1" r.apiVersion ++
  (if r.networks.length ≤ 64 then [] else ["networks"]) ++
  r.networks.flatMap WifiNetwork.errors

abbrev ValidWifiScanResponse := { r : WifiScanResponse // r.errors = [] }

/-- `NetworkActionResponse`: what an action answers. -/
structure NetworkActionResponse where
  apiVersion : String
  accepted : Bool
  mode : NetworkMode
  reason : String
  deriving DecidableEq

def NetworkActionResponse.errors (r : NetworkActionResponse) : List String :=
  patternErrors "api_version" "v1" r.apiVersion ++ lengthErrors "reason" 1 64 r.reason

abbrev ValidNetworkActionResponse := { r : NetworkActionResponse // r.errors = [] }

/-- Build a model, or raise `ValidationError` with the fields that fail. -/
def validated {α : Type} (errors : α → List String) (r : α) :
    Except (List String) { r : α // errors r = [] } :=
  if h : errors r = [] then .ok ⟨r, h⟩ else .error (errors r)

theorem validated_of_errors {α : Type} {errors : α → List String} {r : α} (h : errors r = []) :
    validated errors r = .ok ⟨r, h⟩ :=
  dif_pos h

/-- The bounds of a validity. -/
theorem ValidStatusResponse.validForMs_bounds (r : ValidStatusResponse) :
    100 ≤ r.val.validForMs ∧ r.val.validForMs ≤ 5000 := by
  have hrange : rangeErrors "valid_for_ms" 100 5000 r.val.validForMs = [] :=
    (List.append_eq_nil_iff.mp r.property).2
  unfold rangeErrors at hrange
  split at hrange
  · next h => exact h
  · cases hrange

end Web

end Rave
