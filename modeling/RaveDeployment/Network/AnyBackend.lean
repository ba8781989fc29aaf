import RaveDeployment.Network.Daemon

/-!
# A backend that may do anything

The backend of the controller's own theorems: every method is one operation, answered by any
value of its type or by an exception of the kinds the controller handles.
-/

namespace Rave

/-- The methods of `NetworkBackend`, with their arguments. -/
inductive BackendCall where
  | hasSavedStation
  | activateSavedStation
  | connectStation (ssid : String) (password : Option String)
  | activateProvisioning
  | scan
  | activeStationSsid
  | provisioningReady
  deriving DecidableEq

def BackendCall.Result : BackendCall → Type
  | hasSavedStation => Bool
  | activateSavedStation => Bool × Option String × Option String
  | connectStation _ _ => Bool × Option String × Option String
  | activateProvisioning => Bool × Option String
  | scan => List AccessPoint
  | activeStationSsid => Option String
  | provisioningReady => Bool

/-- `OSError`, `RuntimeError` or `ValueError`. -/
abbrev HandledErr : Type := { e : PyErr // e.handled = true }

def BackendCall.Answer (c : BackendCall) : Type := Except HandledErr c.Result

def BackendCall.outcome {c : BackendCall} :
    c.Answer → Prog PyErr BackendCall BackendCall.Answer c.Result
  | .ok a => .ret a
  | .error e => .raise e.val

/-- The backend that answers as the run says. -/
def anyBackend : NetworkBackend BackendCall BackendCall.Answer where
  hasSavedStation := .op .hasSavedStation BackendCall.outcome
  activateSavedStation := .op .activateSavedStation BackendCall.outcome
  connectStation ssid password := .op (.connectStation ssid password) BackendCall.outcome
  activateProvisioning := .op .activateProvisioning BackendCall.outcome
  scan := .op .scan BackendCall.outcome
  activeStationSsid := .op .activeStationSsid BackendCall.outcome
  provisioningReady := .op .provisioningReady BackendCall.outcome

abbrev CallEvent : Type := BackendEvent BackendCall BackendCall.Answer

namespace CallEvent

def isActivation : CallEvent → Bool
  | ⟨.activateSavedStation, _⟩ => true
  | ⟨.connectStation _ _, _⟩ => true
  | ⟨.activateProvisioning, _⟩ => true
  | _ => false

/-- A call of `activate_provisioning`. -/
def isProvisioning : CallEvent → Bool
  | ⟨.activateProvisioning, _⟩ => true
  | _ => false

def succeeded : CallEvent → Bool
  | ⟨.hasSavedStation, .ok saved⟩ => saved
  | ⟨.activateSavedStation, .ok result⟩ => result.1
  | ⟨.connectStation _ _, .ok result⟩ => result.1
  | ⟨.activateProvisioning, .ok result⟩ => result.1
  | ⟨_, .ok _⟩ => true
  | ⟨_, .error _⟩ => false

/-- `has_saved_station` returned `False`, a station activation returned failure, or one of the
three raised. -/
def failedAttempt : CallEvent → Bool
  | e@⟨.hasSavedStation, _⟩ => !e.succeeded
  | e@⟨.activateSavedStation, _⟩ => !e.succeeded
  | e@⟨.connectStation _ _, _⟩ => !e.succeeded
  | _ => false

/-- The calls `reconcile` makes to see whether the network is still there. -/
def isProbe : CallEvent → Bool
  | ⟨.activeStationSsid, _⟩ => true
  | ⟨.provisioningReady, _⟩ => true
  | _ => false

/-- The item a call is made for, where the call alone decides it. -/
def requested : CallEvent → Option WorkItem
  | ⟨.hasSavedStation, _⟩ => some .boot
  | ⟨.connectStation ssid password, _⟩ => some (.connect ssid password)
  | _ => none

/-- The mode that tells how an activation went; none tells of a failed station. -/
def modeAfter (e : CallEvent) : Option NetworkMode :=
  if e.isProvisioning then some (if e.succeeded then .provisioningAp else .error)
  else if e.succeeded then some .stationConnected
  else none

end CallEvent

def lastActivation (cs : List CallEvent) : Option CallEvent :=
  (cs.filter CallEvent.isActivation).getLast?

/-- A later activation is the last one. -/
theorem lastActivation_append_of_some {cs ds : List CallEvent} {e : CallEvent}
    (h : lastActivation ds = some e) : lastActivation (cs ++ ds) = some e := by
  unfold lastActivation at h ⊢
  rw [List.filter_append, List.getLast?_append, h, Option.some_or]

/-- An activation at the end is the last one. -/
theorem lastActivation_concat {cs : List CallEvent} {e : CallEvent} (h : e.isActivation = true) :
    lastActivation (cs ++ [e]) = some e := by
  rw [lastActivation, List.filter_append, List.filter_cons_of_pos h, List.filter_nil,
    List.getLast?_concat]

theorem lastActivation_concat_probe {cs : List CallEvent} {e : CallEvent}
    (h : e.isProbe = true) : lastActivation (cs ++ [e]) = lastActivation cs := by
  obtain ⟨c, ans⟩ := e
  cases c <;> simp_all [CallEvent.isProbe, lastActivation, CallEvent.isActivation]

end Rave
