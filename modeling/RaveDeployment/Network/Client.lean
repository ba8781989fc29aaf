import RaveDeployment.Network.Server
import RaveDeployment.Python.Utf8

/-!
# `NetworkdClient`

`rave_network_ipc/client.py`: what each method of the client sends, and the validators its answer
has to pass.
-/

namespace Rave

open Py

def MAX_RESPONSE_BYTES : Nat := 64 * 1024

def newlineByte : UInt8 := 0x0a

/-- `ensure_ascii=False, separators=(",", ":")`. -/
def requestStyle : JsonStyle := ⟨false, 0, 0, none⟩

/-- `separators=(",", ":")`. -/
def responseStyle : JsonStyle := ⟨true, 0, 0, none⟩

/-- `NetworkdUnavailable`. -/
structure NetworkdUnavailable where
  reason : PyStr
  deriving DecidableEq

/-- What a method of the client raises. -/
inductive ClientError where
  | unavailable (e : NetworkdUnavailable)
  /-- `RecursionError`, which `_request` does not catch. -/
  | recursion
  deriving DecidableEq

namespace NetworkdClient

/-! ## Requests

What `client.py` sends: one JSON object in one line. -/

/-- The payload of `connect`. -/
def connectPayload (ssid : String) (password : Option String) :
    Except PyErr (List (PyStr × Json)) := do
  let ssid ← validateSsid ssid
  match password with
  | none => return [("ssid", .str ssid), ("password", .null)]
  | some password => do
    let password ← validatePassword password
    return [("ssid", .str ssid), ("password", .str password)]

/-- `{"api_version": API_VERSION, "action": action, **(payload or {})}`. -/
def request (action : NetworkAction) (payload : List (PyStr × Json)) : Json :=
  .obj (payload.foldl Json.setField
    [("api_version", .str API_VERSION), ("action", .str action.value)])

def serialized (request : Json) : List UInt8 :=
  encodeUtf8 (Json.dumps requestStyle request)

/-- What `_request` hands to `sendall`. -/
def sent (action : NetworkAction) (payload : List (PyStr × Json)) : List UInt8 :=
  serialized (request action payload) ++ [newlineByte]

/-- What the method of the client for the request sends, unless it raises before. -/
def send : ParsedRequest → Except PyErr (List UInt8)
  | .status => .ok (sent .status [])
  | .scan => .ok (sent .scan [])
  | .connect ssid password => (connectPayload ssid password).map (sent .connect)
  | .provisioning => .ok (sent .provisioning [])

/-! ## Responses

What it accepts: the fields of each answer, with their types and bounds, and nothing else. -/

def STATUS_RESPONSE_FIELDS : List String :=
  ["api_version", "ok", "mode", "provisioning_ap_active", "station_ssid", "last_error"]

def requiredReason : Option Json → Bool
  | some (.str value) =>
    1 ≤ value.length && value.length ≤ 64 && !value.points.contains (.char '\n')
  | _ => false

def optionalReason : Option Json → Bool
  | some .null => true
  | value => requiredReason value

/-- What the client raises on an answer it does not accept. -/
def invalidResponse : NetworkdUnavailable := ⟨"network_management_invalid_response"⟩

/-- `NetworkMode(value)` does not raise. -/
def isNetworkMode : Option Json → Bool
  | some (.str value) =>
    [NetworkMode.unconfigured, .stationConnecting, .stationConnected, .provisioningAp, .transition,
      .error].any fun mode => (mode.value : PyStr) = value
  | _ => false

/-- `WifiSecurity(value)` does not raise. -/
def isWifiSecurity : Option Json → Bool
  | some (.str value) =>
    [WifiSecurity.open, .wpaPersonal, .enterprise, .unsupported].any fun s =>
      (s.value : PyStr) = value
  | _ => false

/-- `validate_ssid(value)` does not raise. It encodes the value, which a surrogate alone defeats. -/
def isSsid : Option Json → Bool
  | some (.str (.text value)) => (validateSsid value).isOk
  | _ => false

def isBool : Option Json → Bool
  | some (.bool _) => true
  | _ => false

def isNull : Option Json → Bool
  | some .null => true
  | _ => false

/-- `validate_status_response`. -/
def validateStatusResponse (response : List (PyStr × Json)) :
    Except NetworkdUnavailable (List (PyStr × Json)) :=
  if hasFields response STATUS_RESPONSE_FIELDS = false then .error invalidResponse
  else if isNetworkMode (lookupField response "mode") = false then .error invalidResponse
  else if isNull (lookupField response "station_ssid") = false ∧
      isSsid (lookupField response "station_ssid") = false then .error invalidResponse
  else if isBool (lookupField response "provisioning_ap_active") = false then .error invalidResponse
  else if optionalReason (lookupField response "last_error") = false then .error invalidResponse
  else .ok response

/-- `type(value) is int and 0 <= value <= 100`. -/
def isPercent : Option Json → Bool
  | some (.int n) => 0 ≤ n && n ≤ 100
  | _ => false

/-- `_validate_network`, as whether it returns. -/
def validateNetwork : Json → Bool
  | .obj network =>
    hasFields network ["ssid", "signal_percent", "security", "connected"] &&
      isSsid (lookupField network "ssid") && isWifiSecurity (lookupField network "security") &&
      isPercent (lookupField network "signal_percent") && isBool (lookupField network "connected")
  | _ => false

/-- `validate_scan_response`. -/
def validateScanResponse (response : List (PyStr × Json)) :
    Except NetworkdUnavailable (List (PyStr × Json)) :=
  if hasFields response ["api_version", "ok", "networks"] = false then .error invalidResponse
  else
    match lookupField response "networks" with
    | some (.arr networks) =>
      if MAX_NETWORKS < networks.length then .error invalidResponse
      else if networks.all validateNetwork = false then .error invalidResponse
      else .ok response
    | _ => .error invalidResponse

/-- `validate_action_response`. -/
def validateActionResponse (response : List (PyStr × Json)) :
    Except NetworkdUnavailable (List (PyStr × Json)) := do
  let status := response.filter fun f => f.1 ∉ ["accepted", "reason"].map PyStr.text
  let _ ← validateStatusResponse status
  if hasFields response (STATUS_RESPONSE_FIELDS ++ ["accepted", "reason"]) = false then
    throw invalidResponse
  if isBool (lookupField response "accepted") = false ∨
      requiredReason (lookupField response "reason") = false then
    throw invalidResponse
  return response

/-- The checks of `_request` on what `_receive` returned. -/
def checkResponse : Json → Except NetworkdUnavailable (List (PyStr × Json))
  | .obj response =>
    match lookupField response "api_version" with
    | some (.str version) =>
      if version ≠ (API_VERSION : PyStr) then .error invalidResponse
      else
        match lookupField response "ok" with
        | some (.bool true) => .ok response
        | _ =>
          match lookupField response "error" with
          | some (.str reason) =>
            if requiredReason (some (.str reason)) = true then .error ⟨reason⟩
            else .error ⟨"network_management_rejected"⟩
          | _ => .error ⟨"network_management_rejected"⟩
    | _ => .error invalidResponse
  | _ => .error invalidResponse

def validateResponse : ParsedRequest → List (PyStr × Json) →
    Except NetworkdUnavailable (List (PyStr × Json))
  | .status, response => validateStatusResponse response
  | .scan, response => validateScanResponse response
  | .connect _ _, response => validateActionResponse response
  | .provisioning, response => validateActionResponse response

end NetworkdClient

end Rave
