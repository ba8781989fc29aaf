import Mathlib.Algebra.Order.Ring.Rat
import RaveDeployment.Lib.System

/-!
# The network page

What `app.js` shows of a change of the network: the deadline of the last request and the status
line below the network list. `networkPage` is the page with the requests and the poll that are
under way, and with the server as far as the page can tell: which requests it has accepted, and
the status that a poll samples. Time is in milliseconds.
-/

namespace Rave

namespace Web

def NETWORK_ACTION_TIMEOUT_MS : ℚ := 120000

/-- The requests that change the network. -/
inductive NetworkAction where
  | station
  | provisioning
  deriving DecidableEq

def NetworkAction.mode : NetworkAction → String
  | .station => "station_connected"
  | .provisioning => "provisioning_ap"

/-- What `#network-action-status` shows. -/
inductive Message where
  | selectRefresh
  | scanning
  | selectNetwork
  | noNetworks
  | scanFailed
  | requestingStation
  | stationAccepted
  | stationUnconfirmed
  | requestingProvisioning
  | provisioningUnconfirmed
  | inProgress
  | unableToConfirm
  | stationConfirmed
  | stationFailed (lastError : String)
  deriving DecidableEq

/-- What the page keeps of the network: the message, the action with its deadline, and whether a
scan is under way. -/
structure Page where
  networkActionDeadline : Option ℚ
  message : Message
  scanInProgress : Bool
  handoffShown : Bool
  deriving DecidableEq

/-- What `renderNetworkStatus` reads of the answer of the server to show a message. -/
structure NetworkStatus where
  mode : String
  lastError : Option String
  deriving DecidableEq

/-- `label(value)`. -/
def label (value : String) : String :=
  value.map fun c => if c = '_' then ' ' else c

section Handlers

variable (now : ℚ)

/-- `updateTransitionMessage`, at a given time. -/
def updateTransitionMessage (p : Page) : Page :=
  match p.networkActionDeadline with
  | none => p
  | some deadline =>
    if now < deadline then { p with message := .inProgress }
    else { p with networkActionDeadline := none, message := .unableToConfirm }

/-- `rejectNetworkAction`. -/
def rejectNetworkAction (message : Message) (p : Page) : Page :=
  { p with networkActionDeadline := none, message := message }

/-- The status is taken for the end of the request. -/
def Confirms (network : NetworkStatus) (p : Page) : Prop :=
  network.mode = "station_connected" ∧ p.networkActionDeadline ≠ none

instance (network : NetworkStatus) (p : Page) : Decidable (Confirms network p) :=
  inferInstanceAs (Decidable (_ ∧ _))

/-- The error that the status of a restored access point carries. -/
def NetworkStatus.failure (network : NetworkStatus) : Option String :=
  if network.mode = "provisioning_ap" then network.lastError.filter (· ≠ "") else none

/-- The part of `renderNetwork` that looks at an action under way. -/
def renderNetworkStatus (network : NetworkStatus) (p : Page) : Page :=
  if Confirms network p then
    { p with networkActionDeadline := none, message := .stationConfirmed, handoffShown := true }
  else
    match network.failure with
    | some lastError =>
      { p with networkActionDeadline := none, message := .stationFailed (label lastError) }
    | none => updateTransitionMessage now p

/-- `requestStation` and `requestProvisioning` up to the request. -/
def NetworkAction.request (a : NetworkAction) (p : Page) : Page :=
  { p with
    networkActionDeadline := some (now + NETWORK_ACTION_TIMEOUT_MS)
    message := match a with
      | .station => .requestingStation
      | .provisioning => .requestingProvisioning }

/-- `requestStation` and `requestProvisioning` from the answer on. -/
def NetworkAction.complete (a : NetworkAction) (ok : Bool) (p : Page) : Page :=
  match a, ok with
  | .station, true => { p with message := .stationAccepted, handoffShown := true }
  | .station, false => rejectNetworkAction .stationUnconfirmed p
  | .provisioning, true => p
  | .provisioning, false => rejectNetworkAction .provisioningUnconfirmed p

/-- `scanWifi` up to the request. -/
def scanStarts (p : Page) : Page :=
  { p with scanInProgress := true, message := .scanning }

/-- `scanWifi` from the answer on, which is the number of networks. -/
def scanEnds (networks : Option Nat) (p : Page) : Page :=
  { p with
    scanInProgress := false
    message := match networks with
      | none => .scanFailed
      | some 0 => .noNetworks
      | some _ => .selectNetwork }

end Handlers

/-! ## The page and the server

The user, the page's polls and the server's own steps, in any order. -/

/-- A status, with the requests that the server had accepted when it was sampled. -/
structure Sample where
  status : NetworkStatus
  accepted : List Nat

/-- Where `refreshState` stands. -/
inductive Poll where
  | idle
  | asked
  | answered (x : Sample)
  | rendered

/-- The requests are numbered as they are made. The last two fields are not the page's: they record
what it has rendered since the last request, and the status that it took for its end. -/
structure Session where
  page : Page
  now : ℚ
  requests : List NetworkAction
  accepted : List Nat
  pending : List Nat
  poll : Poll
  rendered : List Sample
  confirmedBy : Option Sample

def Session.latest (s : Session) : Option (Nat × NetworkAction) :=
  s.requests.getLast?.map fun a => (s.requests.length - 1, a)

/-- A step of the session. -/
inductive Event where
  /-- Time passes. -/
  | wait (ms : ℚ)
  | request (a : NetworkAction)
  /-- The server accepts a request, whether or not its answer arrives. -/
  | accept (id : Nat)
  /-- A request is answered, or fails. -/
  | complete (id : Nat) (ok : Bool)
  | scan
  | scanned (networks : Option Nat)
  | poll
  /-- The server answers a poll. -/
  | sample (status : NetworkStatus)
  | render
  | pollEnds
  /-- The poll fails, or what it renders beside the network status does. -/
  | pollFails

def Session.Enabled (s : Session) : NetworkAction → Prop
  | .station => s.page.scanInProgress = false
  | .provisioning => ∀ id ∈ s.pending, s.requests[id]? ≠ some .provisioning

instance (s : Session) (a : NetworkAction) : Decidable (s.Enabled a) := by
  cases a
  · exact inferInstanceAs (Decidable (_ = _))
  · exact inferInstanceAs (Decidable (∀ _ ∈ _, _))

def Session.step : Event → Session → Option Session
  | .wait ms, s => if 0 ≤ ms then some { s with now := s.now + ms } else none
  | .request a, s =>
    if s.Enabled a then
      some { s with
        page := a.request s.now s.page
        requests := s.requests ++ [a]
        pending := s.requests.length :: s.pending
        rendered := [] }
    else none
  | .accept id, s =>
    if id < s.requests.length then some { s with accepted := id :: s.accepted } else none
  | .complete id ok, s =>
    if id ∈ s.pending ∧ (ok = true → id ∈ s.accepted) then
      (s.requests[id]?).map fun a =>
        { s with page := a.complete ok s.page, pending := s.pending.erase id }
    else none
  | .scan, s => if s.page.scanInProgress then none else some { s with page := scanStarts s.page }
  | .scanned networks, s =>
    if s.page.scanInProgress then some { s with page := scanEnds networks s.page } else none
  | .poll, s =>
    match s.poll with
    | .idle => if s.page.scanInProgress then none else some { s with poll := .asked }
    | _ => none
  | .sample status, s =>
    match s.poll with
    | .asked => some { s with poll := .answered ⟨status, s.accepted⟩ }
    | _ => none
  | .render, s =>
    match s.poll with
    | .answered x =>
      some { s with
        page := renderNetworkStatus s.now x.status s.page
        poll := .rendered
        rendered := x :: s.rendered
        confirmedBy := if Confirms x.status s.page then some x else s.confirmedBy }
    | _ => none
  | .pollEnds, s =>
    match s.poll with
    | .rendered => some { s with poll := .idle }
    | _ => none
  | .pollFails, s =>
    match s.poll with
    | .idle => none
    | _ => some { s with page := updateTransitionMessage s.now s.page, poll := .idle }

def networkPage : System Session Event where
  init := ⟨⟨none, .selectRefresh, false, false⟩, 0, [], [], [], .idle, [], none⟩
  step := Session.step

end Web

end Rave
