import RaveDeployment.Lib.Json
import RaveDeployment.Network.Consistent

/-!
# `NetworkdServer`

The request boundary of `rave_networkd/server.py`: `parse_request`, `_dispatch` and
`_serve_connection`, on the JSON values of `RaveDeployment.Lib.Json`. How the bytes of a request
arrive is in `RaveDeployment.Network.Framing`.

The controller is a function from the parsed request to what its method returns or raises;
`Shared.refusal` is the part of it that the running daemon decides before it does anything.
-/

namespace Rave

def API_VERSION : String := "v1"

inductive NetworkAction where
  | status
  | scan
  | connect
  | provisioning
  deriving DecidableEq, Repr

def NetworkAction.value : NetworkAction → String
  | .status => "status"
  | .scan => "scan"
  | .connect => "connect"
  | .provisioning => "provisioning"

def WifiSecurity.value : WifiSecurity → String
  | .open => "open"
  | .wpaPersonal => "wpa_personal"
  | .enterprise => "enterprise"
  | .unsupported => "unsupported"

def PUBLIC_PROTOCOL_ERROR_CODES : List String :=
  ["action_invalid", "api_version_invalid", "network_credentials_invalid", "peer_not_authorized",
    "request_empty", "request_fields_invalid", "request_not_object", "request_timeout",
    "request_too_large"]

def PUBLIC_OPERATION_ERROR_CODES : List String := ["network_transition_busy"]

/-- What the body of `_serve_connection` may raise. -/
inductive ServeError where
  /-- `ProtocolError`, with its code. -/
  | protocol (code : String)
  /-- `json.JSONDecodeError`. -/
  | jsonDecode
  | raised (e : PyErr)
  deriving DecidableEq

/-! ## `parse_request`

A request has exactly the fields of its action, and each is checked. -/

def lookupField (fields : List (PyStr × Json)) (key : String) : Option Json :=
  (fields.find? fun f => f.1 = (key : PyStr)).map Prod.snd

/-- `set(fields) == expected`. -/
def hasFields (fields : List (PyStr × Json)) (expected : List String) : Bool :=
  (fields.all fun f => f.1 ∈ expected.map PyStr.text) &&
    expected.all fun k => (fields.map Prod.fst).contains (k : PyStr)

/-- What `parse_request` returns. -/
inductive ParsedRequest where
  | status
  | scan
  | connect (ssid : String) (password : Option String)
  | provisioning
  deriving DecidableEq

/-- `NetworkAction(value)`, or nothing where it raises. -/
def NetworkAction.ofJson? : Option Json → Option NetworkAction
  | some (.str s) =>
    [status, scan, connect, provisioning].find? fun a => (a.value : PyStr) = s
  | _ => none

def NetworkAction.expected : NetworkAction → List String
  | .status => ["api_version", "action"]
  | .scan => ["api_version", "action"]
  | .connect => ["api_version", "action", "ssid", "password"]
  | .provisioning => ["api_version", "action"]

/-- The `ssid` and `password` of a `CONNECT`. What is no string raises `TypeError`, and what cannot be
encoded a `ValueError`. -/
def parseCredentials (fields : List (PyStr × Json)) : Option ParsedRequest :=
  match lookupField fields "ssid", lookupField fields "password" with
  | some (.str (.text ssid)), some .null => do
    let ssid ← (validateSsid ssid).toOption
    return .connect ssid none
  | some (.str (.text ssid)), some (.str (.text password)) => do
    let ssid ← (validateSsid ssid).toOption
    let password ← (validatePassword password).toOption
    return .connect ssid (some password)
  | _, _ => none

/-- `parse_request`. -/
def parseRequest (payload : Json) : Except ServeError ParsedRequest :=
  match payload with
  | .obj fields =>
    match lookupField fields "api_version" with
    | some (.str version) =>
      if version ≠ (API_VERSION : PyStr) then .error (.protocol "api_version_invalid")
      else
        match NetworkAction.ofJson? (lookupField fields "action") with
        | none => .error (.protocol "action_invalid")
        | some action =>
          if hasFields fields action.expected = false then
            .error (.protocol "request_fields_invalid")
          else
            match action with
            | .status => .ok .status
            | .scan => .ok .scan
            | .provisioning => .ok .provisioning
            | .connect =>
              match parseCredentials fields with
              | some request => .ok request
              | none => .error (.protocol "network_credentials_invalid")
    | _ => .error (.protocol "api_version_invalid")
  | _ => .error (.protocol "request_not_object")

/-! ## Responses

An error is reported by its code when the code is public, and as `internal_error` otherwise. -/

/-- The fields of `_snapshot_response`. -/
def snapshotFields (snapshot : NetworkSnapshot) : List (PyStr × Json) :=
  [("api_version", .str API_VERSION), ("ok", .bool true), ("mode", .str snapshot.mode.value),
    ("provisioning_ap_active", .bool snapshot.provisioningApActive),
    ("station_ssid", snapshot.stationSsid.elim .null fun ssid => .str ssid),
    ("last_error", snapshot.lastError.elim .null fun reason => .str reason)]

/-- `response.update({"accepted": True, "reason": reason})`. -/
def acceptedFields (reason : String) : List (PyStr × Json) :=
  [("accepted", .bool true), ("reason", .str reason)]

def networkJson (item : AccessPoint) : Json :=
  .obj [("ssid", .str item.ssid), ("signal_percent", .int item.signalPercent),
    ("security", .str item.security.value), ("connected", .bool item.connected)]

namespace ParsedRequest

def Result : ParsedRequest → Type
  | scan => List AccessPoint
  | _ => NetworkSnapshot

/-- `_dispatch`, once the controller has returned. -/
def dispatch : (r : ParsedRequest) → r.Result → Json
  | status, snapshot => .obj (snapshotFields snapshot)
  | scan, networks =>
    .obj [("api_version", .str API_VERSION), ("ok", .bool true),
      ("networks", .arr (List.map networkJson networks))]
  | connect _ _, snapshot =>
    .obj (snapshotFields snapshot ++ acceptedFields "station_connection_requested")
  | provisioning, snapshot =>
    .obj (snapshotFields snapshot ++ acceptedFields "provisioning_ap_requested")

end ParsedRequest

def errorResponseCode (code : String) : Json :=
  .obj [("api_version", .str API_VERSION), ("ok", .bool false), ("error", .str code)]

def internalErrorResponse : Json := errorResponseCode "internal_error"

def errorResponse (code : String) (publicCodes : List String) : Json :=
  if code ∈ publicCodes then errorResponseCode code else internalErrorResponse

/-- The `except` clauses of `_serve_connection`. -/
def failureResponse : ServeError → Json
  | .protocol code => errorResponse code PUBLIC_PROTOCOL_ERROR_CODES
  | .jsonDecode => errorResponseCode "request_json_invalid"
  | .raised (.runtimeError message) => errorResponse message PUBLIC_OPERATION_ERROR_CODES
  | .raised _ => internalErrorResponse

abbrev ControllerCall : Type := (r : ParsedRequest) → Except PyErr r.Result

/-- `_serve_connection`: the response to a request read from a peer. -/
def serveConnection (peerUid allowedUid : Nat) (payload : Except ServeError Json)
    (call : ControllerCall) : Json :=
  let response : Except ServeError Json := do
    if peerUid ≠ allowedUid then
      throw (.protocol "peer_not_authorized")
    let request ← parseRequest (← payload)
    match call request with
    | .ok result => return request.dispatch result
    | .error e => throw (.raised e)
  match response with
  | .ok response => response
  | .error e => failureResponse e

/-- A well-formed request from the authorized peer. -/
theorem serveConnection_parsed {uid : Nat} {payload : Json} {call : ControllerCall}
    {r : ParsedRequest} (h : parseRequest payload = .ok r) :
    serveConnection uid uid (.ok payload) call =
      match call r with
      | .ok result => r.dispatch result
      | .error e => failureResponse (.raised e) := by
  unfold serveConnection
  rw [if_neg (by simp)]
  show (match (parseRequest payload).bind _ with
    | .ok response => response
    | .error e => failureResponse e) = _
  rw [h]
  show (match (match call r with
    | .ok result => Except.ok (r.dispatch result)
    | .error e => Except.error (ServeError.raised e) : Except ServeError Json) with
    | .ok response => response
    | .error e => failureResponse e) = _
  cases call r <;> rfl

/-- A request that is not well-formed. -/
theorem serveConnection_refused {uid : Nat} {payload : Json} {call : ControllerCall}
    {e : ServeError} (h : parseRequest payload = .error e) :
    serveConnection uid uid (.ok payload) call = failureResponse e := by
  unfold serveConnection
  rw [if_neg (by simp)]
  show (match (parseRequest payload).bind _ with
    | .ok response => response
    | .error e => failureResponse e) = _
  rw [h]
  rfl

/-- Another user is told so and nothing else. -/
theorem serveConnection_unauthorized {peerUid allowedUid : Nat} (h : peerUid ≠ allowedUid)
    {payload : Except ServeError Json} {call : ControllerCall} :
    serveConnection peerUid allowedUid payload call =
      failureResponse (.protocol "peer_not_authorized") := by
  unfold serveConnection
  rw [if_pos h]
  rfl

end Rave
