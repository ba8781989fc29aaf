import RaveDeployment.Network.Framing
import RaveDeployment.Web.Models

/-!
# The network routes of the management API

`PiManagementProvider` beside `system` and the routes of `rave_web/app.py` that use it. A handler
sees the daemon only through one exchange over its socket, and a request only through its body.
What a handler raises is what the route makes of it: `NetworkdUnavailable` is an answer of its own,
anything else an internal error. Two things that a socket may bring reach the second case:
`RecursionError`, which the client does not catch, and half of a surrogate pair in a text, which
neither the models nor the encoder of a response take.
-/

namespace Rave

namespace Web

open NetworkdClient

/-! ## The socket

What one exchange over the daemon's socket can come to, before the client looks at the answer. -/

/-- What becomes of one exchange with the daemon. -/
inductive Exchange where
  /-- `OSError`, `TimeoutError` or `ValueError`: also a response that is too long or no JSON. -/
  | failed
  /-- The other side of the socket does not run as the expected user. -/
  | peerInvalid
  /-- A response that `json.loads` gives up on with `RecursionError`. -/
  | tooDeep
  | answered (response : Json)

/-- What `_receive` and `json.loads` make of the bytes of a response. -/
def Exchange.ofBytes [Json.Nesting] (codecs : Codecs) (data : List UInt8) : Exchange :=
  if MAX_RESPONSE_BYTES < data.length then .failed
  else
    match loadsBytes codecs data with
    | .error (.text .recursion) => .tooDeep
    | .error _ => .failed
    | .ok response => .answered response

/-- `_request`. -/
def Exchange.request : Exchange → Except ClientError (List (PyStr × Json))
  | .failed => .error (.unavailable ⟨"network_management_unavailable"⟩)
  | .peerInvalid => .error (.unavailable ⟨"network_management_peer_invalid"⟩)
  | .tooDeep => .error .recursion
  | .answered response => (checkResponse response).mapError .unavailable

/-- The method of the client for a request, from the exchange on. -/
def Exchange.answer (r : ParsedRequest) (x : Exchange) :
    Except ClientError (List (PyStr × Json)) := do
  let response ← x.request
  (validateResponse r response).mapError .unavailable

/-! ## Requests

The bodies of the two `POST` routes, as FastAPI reads and validates them. -/

/-- The body of a request as FastAPI reads it. -/
inductive Body where
  /-- None, or one that its content type does not call JSON. -/
  | missing
  /-- `json.JSONDecodeError`. -/
  | invalid
  /-- Any other exception, such as one over the encoding, the digits or the depth. -/
  | unreadable
  | json (value : Json)

def Body.ofBytes [Json.Nesting] (codecs : Codecs) (data : List UInt8) : Body :=
  if data = [] then .missing
  else
    match loadsBytes codecs data with
    | .error (.text .decode) => .invalid
    | .error _ => .unreadable
    | .ok value => .json value

/-- A name and a password that have passed their validators. -/
structure NetworkConnectRequest where
  ssid : String
  password : Option String
  ssid_valid : validateSsid ssid = .ok ssid
  password_valid : ∀ p ∈ password, validatePassword p = .ok p

/-- The name, where the field is a text that its validator accepts. Neither this validator nor that
of the password takes half of a surrogate pair: both encode the text. -/
def requestedSsid : Option Json → Option { ssid : String // validateSsid ssid = .ok ssid }
  | some (.str (.text ssid)) => if h : validateSsid ssid = .ok ssid then some ⟨ssid, h⟩ else none
  | _ => none

def requestedPassword :
    Option Json → Option { password : Option String // ∀ p ∈ password, validatePassword p = .ok p }
  | none => some ⟨none, fun _ hp => absurd hp (Option.not_mem_none _)⟩
  | some .null => some ⟨none, fun _ hp => absurd hp (Option.not_mem_none _)⟩
  | some (.str (.text password)) =>
    if h : validatePassword password = .ok password then
      some ⟨some password, fun _ hp => Option.mem_some_iff.mp hp ▸ h⟩
    else none
  | some _ => none

/-- The request that a body is read as, or the fields that fail. -/
def NetworkConnectRequest.ofJson : Json → Except (List PyStr) NetworkConnectRequest
  | .obj fields =>
    let extra := (fields.map Prod.fst).filter (· ∉ ["ssid", "password"].map PyStr.text)
    match requestedSsid (lookupField fields "ssid"),
      requestedPassword (lookupField fields "password"), extra with
    | some ssid, some password, [] => .ok ⟨ssid, password, ssid.property, password.property⟩
    | ssid, password, extra =>
      .error (((if ssid.isNone then ["ssid"] else []) ++
        if password.isNone then ["password"] else []).map PyStr.text ++ extra)
  | _ => .error []

/-- `ProvisioningRequest`, which has no field. -/
def ProvisioningRequest.ofJson : Json → Except (List PyStr) Unit
  | .obj [] => .ok ()
  | .obj fields => .error (fields.map Prod.fst)
  | _ => .error []

/-- What a handler gets of a body, or the status and the detail that the body is refused with:
`request_validation_failed` is the answer to all that is not read as the model. -/
def Body.read {β : Type} (model : Json → Except (List PyStr) β) : Body → Except (Nat × String) β
  | .missing => .error (422, "request_validation_failed")
  | .invalid => .error (422, "request_validation_failed")
  | .unreadable => .error (400, "There was an error parsing the body")
  | .json value => (model value).mapError fun _ => (422, "request_validation_failed")

/-! ## `PiManagementProvider`

What the provider makes of the daemon's answers. -/

/-- What a method of the provider raises. -/
inductive Raised where
  | unavailable (e : NetworkdUnavailable)
  /-- `KeyError`, `TypeError`, `ValueError`, `ValidationError` or `RecursionError`. -/
  | other
  deriving DecidableEq

def Raised.ofClient : ClientError → Raised
  | .unavailable e => .unavailable e
  | .recursion => .other

def MANAGEMENT_INTERFACE : String := "wlan0"

def MANAGEMENT_ADDRESS : String := "192.168.77.1"

/-- Build a response, whose `ValidationError` no handler catches. -/
def build {α : Type} (errors : α → List String) (r : α) :
    Except Raised { r : α // errors r = [] } :=
  (validated errors r).mapError fun _ => .other

/-- `NetworkMode(value)`. -/
def modeOf (value : Option Json) : Except Raised NetworkMode :=
  match value with
  | some (.str text) =>
    match [NetworkMode.unconfigured, .stationConnecting, .stationConnected, .provisioningAp,
      .transition, .error].find? fun mode => (mode.value : PyStr) = text with
    | some mode => .ok mode
    | none => .error .other
  | _ => .error .other

/-- `WifiSecurity(value)`. -/
def securityOf (value : Option Json) : Except Raised WifiSecurity :=
  match value with
  | some (.str text) =>
    match [WifiSecurity.open, .wpaPersonal, .enterprise, .unsupported].find? fun s =>
      (s.value : PyStr) = text with
    | some security => .ok security
    | none => .error .other
  | _ => .error .other

def boolOf : Option Json → Except Raised Bool
  | some (.bool b) => .ok b
  | _ => .error .other

/-- A field that has to be a text, which for pydantic half of a surrogate pair is not. -/
def textOf : Option Json → Except Raised String
  | some (.str (.text text)) => .ok text
  | _ => .error .other

def percentOf : Option Json → Except Raised Int
  | some (.int n) => .ok n
  | _ => .error .other

/-- `get(key)` where the field may be null. -/
def optionalTextOf : Option Json → Except Raised (Option String)
  | none => .ok none
  | some .null => .ok none
  | some (.str (.text text)) => .ok (some text)
  | some _ => .error .other

def networkAvailability : NetworkMode → Availability
  | .provisioningAp | .stationConnected => .ready
  | .stationConnecting | .transition => .starting
  | .error => .error
  | .unconfigured => .degraded

/-- `_network_fallback`, over what `_ipv4_address` returns. -/
def networkFallback (address : Option String) : NetworkResponse :=
  let active := address == some MANAGEMENT_ADDRESS
  { apiVersion := "v1"
    availability := .degraded
    mode := if active then .provisioningAp else .error
    managementInterface := some MANAGEMENT_INTERFACE
    localDiscoveryName := none
    runtimeNetwork := "10.77.0.0/24"
    actuationAvailable := false
    provisioningApActive := active
    stationSsid := none
    lastError := some "network_daemon_unavailable" }

def networkResponse (mode : NetworkMode) (provisioningApActive : Bool)
    (stationSsid lastError : Option String) : NetworkResponse where
  apiVersion := "v1"
  availability := networkAvailability mode
  mode := mode
  managementInterface := some MANAGEMENT_INTERFACE
  localDiscoveryName := none
  runtimeNetwork := "10.77.0.0/24"
  actuationAvailable := true
  provisioningApActive := provisioningApActive
  stationSsid := stationSsid
  lastError := lastError

/-- `network`. -/
def network (address : Option String) (x : Exchange) : Except Raised ValidNetworkResponse :=
  match x.answer .status with
  | .error (.unavailable _) => build NetworkResponse.errors (networkFallback address)
  | .error .recursion => .error .other
  | .ok status => do
    let mode ← modeOf (lookupField status "mode")
    let active ← boolOf (lookupField status "provisioning_ap_active")
    let stationSsid ← optionalTextOf (lookupField status "station_ssid")
    let lastError ← optionalTextOf (lookupField status "last_error")
    build NetworkResponse.errors (networkResponse mode active stationSsid lastError)

/-- An entry of the list of networks as the model reads it. -/
def wifiNetwork : Json → Except Raised WifiNetwork
  | .obj fields =>
    if fields.all fun f =>
        f.1 ∈ ["ssid", "signal_percent", "security", "connected"].map PyStr.text then do
      let ssid ← textOf (lookupField fields "ssid")
      let signalPercent ← percentOf (lookupField fields "signal_percent")
      let security ← securityOf (lookupField fields "security")
      let connected ← boolOf (lookupField fields "connected")
      return ⟨ssid, signalPercent, security, connected⟩
    else .error .other
  | _ => .error .other

/-- `wifi_networks`. -/
def wifiNetworks (x : Exchange) : Except Raised ValidWifiScanResponse := do
  let response ← (x.answer .scan).mapError .ofClient
  match lookupField response "networks" with
  | some (.arr networks) => do
    let networks ← networks.mapM wifiNetwork
    build WifiScanResponse.errors ⟨"v1", networks⟩
  | _ => throw .other

/-- What `connect_wifi` and `enable_provisioning` make of the response. -/
def actionResponse (response : List (PyStr × Json)) :
    Except Raised ValidNetworkActionResponse := do
  let accepted ← boolOf (lookupField response "accepted")
  let mode ← modeOf (lookupField response "mode")
  let reason ← textOf (lookupField response "reason")
  build NetworkActionResponse.errors ⟨"v1", accepted, mode, reason⟩

/-- `connect_wifi`: the client checks the credentials once more before it sends them. -/
def connectWifi (request : NetworkConnectRequest) (x : Exchange) :
    Except Raised ValidNetworkActionResponse := do
  let _ ← (NetworkdClient.connectPayload request.ssid request.password).mapError fun _ =>
    Raised.other
  let response ← (x.answer (.connect request.ssid request.password)).mapError .ofClient
  actionResponse response

/-- `enable_provisioning`. -/
def enableProvisioning (x : Exchange) : Except Raised ValidNetworkActionResponse := do
  let response ← (x.answer .provisioning).mapError .ofClient
  actionResponse response

/-! ## The routes

Each route calls the provider and turns what it raises into a status. -/

/-- What a route answers: a response of its model, or an error with a detail. -/
inductive Reply (α : Type) where
  | success (status : Nat) (body : α)
  | failure (status : Nat) (detail : String)
  | internalServerError

variable {α : Type}

/-- `JSONResponse` writes UTF-8, and raises where the detail has half of a surrogate pair. -/
def httpException (status : Nat) : PyStr → Reply α
  | .text detail => .failure status detail
  | .surrogates _ _ => .internalServerError

/-- A route that answers `NetworkdUnavailable` itself. -/
def guarded (status : Nat) : Except Raised α → Reply α
  | .ok body => .success status body
  | .error (.unavailable e) => httpException 503 e.reason
  | .error .other => .internalServerError

/-- `get_network`. -/
def getNetwork (address : Option String) (x : Exchange) : Reply ValidNetworkResponse :=
  match network address x with
  | .ok body => .success 200 body
  | .error _ => .internalServerError

/-- `get_wifi_networks`. -/
def getWifiNetworks (x : Exchange) : Reply ValidWifiScanResponse :=
  guarded 200 (wifiNetworks x)

/-- The route of `connect_wifi`. -/
def postConnect (body : Body) (x : Exchange) : Reply ValidNetworkActionResponse :=
  match body.read NetworkConnectRequest.ofJson with
  | .ok request => guarded 202 (connectWifi request x)
  | .error (status, detail) => .failure status detail

/-- The route of `enable_provisioning`. -/
def postProvisioning (body : Body) (x : Exchange) : Reply ValidNetworkActionResponse :=
  match body.read ProvisioningRequest.ofJson with
  | .ok () => guarded 202 (enableProvisioning x)
  | .error (status, detail) => .failure status detail

end Web

end Rave
