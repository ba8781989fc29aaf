import Mathlib.Logic.Function.Basic
import RaveDeployment.Web.Models
import RaveDeployment.Web.NetworkPage

/-!
# What the page shows of the appliance

`app.js` puts the state of the appliance into its elements either from the answers to one poll
(`render`) or, when there is nothing to trust, from a reason (`invalidateDynamic`). Both are lists of
assignments, in the order of the source. They assign the same properties of the same elements
(`slots_render`, `slots_invalidateDynamic`), so that whichever runs last decides all of them.
-/

namespace Rave

namespace Web

/-- What is assigned of an element. -/
inductive Property where
  | className
  | textContent
  | children
  deriving DecidableEq

/-- A property of the element that a selector finds. -/
structure Slot where
  selector : String
  property : Property
  deriving DecidableEq

/-- The element that `componentCard` makes. -/
structure Card where
  kicker : String
  dot : String
  heading : String
  reason : String
  pillClass : String
  pill : String
  deriving DecidableEq

/-- A text, or cards. -/
inductive Value where
  | text (s : String)
  | cards (cs : List Card)
  deriving DecidableEq

abbrev Dom : Type := Slot → Value

abbrev Write : Type := Slot × Value

def Dom.write (d : Dom) (w : Write) : Dom :=
  Function.update d w.1 w.2

def Dom.apply (ws : List Write) (d : Dom) : Dom :=
  ws.foldl Dom.write d

/-! ## Assignments

A list of assignments leaves the last one of each property. -/

theorem Dom.apply_append (ws vs : List Write) (d : Dom) :
    d.apply (ws ++ vs) = (d.apply ws).apply vs :=
  List.foldl_append

/-- What has no assignment stays. -/
theorem Dom.apply_of_not_mem {ws : List Write} {x : Slot} (h : x ∉ ws.map Prod.fst) (d : Dom) :
    d.apply ws x = d x := by
  induction ws generalizing d with
  | nil => rfl
  | cons w ws ih =>
    have hne : x ≠ w.1 := fun heq => h (by simp [heq])
    have hrest : x ∉ ws.map Prod.fst := fun hin => h (List.mem_cons_of_mem _ hin)
    show Dom.apply ws (d.write w) x = d x
    rw [ih hrest]
    exact Function.update_of_ne hne w.2 d

/-- What has one does not depend on what was there before. -/
theorem Dom.apply_of_mem {ws : List Write} {x : Slot} (h : x ∈ ws.map Prod.fst) (d e : Dom) :
    d.apply ws x = e.apply ws x := by
  induction ws generalizing d e with
  | nil => exact absurd h List.not_mem_nil
  | cons w ws ih =>
    show Dom.apply ws (d.write w) x = Dom.apply ws (e.write w) x
    by_cases hrest : x ∈ ws.map Prod.fst
    · exact ih hrest _ _
    · -- the first assignment is the only one
      have heq : x = w.1 := by
        rcases List.mem_cons.mp h with heq | hin
        · exact heq
        · exact absurd hin hrest
      rw [Dom.apply_of_not_mem hrest, Dom.apply_of_not_mem hrest, heq]
      show Function.update d w.1 w.2 w.1 = Function.update e w.1 w.2 w.1
      rw [Function.update_self, Function.update_self]

/-- Assignments to all that others assign leave nothing of them. -/
theorem Dom.apply_apply {ws vs : List Write} (h : ws.map Prod.fst ⊆ vs.map Prod.fst) (d : Dom) :
    (d.apply ws).apply vs = d.apply vs := by
  funext x
  by_cases hx : x ∈ vs.map Prod.fst
  · exact Dom.apply_of_mem hx _ _
  · have hws : x ∉ ws.map Prod.fst := fun hin => hx (h hin)
    rw [Dom.apply_of_not_mem hx, Dom.apply_of_not_mem hx, Dom.apply_of_not_mem hws]

/-! ## The parts

The functions of `app.js` as the assignments that they make, in their order. -/

section Render

def className (selector value : String) : Write :=
  (⟨selector, .className⟩, .text value)

def textContent (selector value : String) : Write :=
  (⟨selector, .textContent⟩, .text value)

/-- `setDynamicState`, as the assignments that it makes. -/
def setDynamicState (selector text availability : String) : List Write :=
  [className selector ("dynamic-state " ++ availability), textContent selector text]

/-- `OVERALL_COPY[availability]`, the summary and the proof. -/
def OVERALL_COPY : Availability → String × String
  | .ready => ("RAVE is ready.", "Current status confirmed")
  | .starting => ("RAVE is starting. Current status is not ready yet.", "Startup in progress")
  | .degraded => ("RAVE is available with a reported limitation.", "Attention recommended")
  | .unavailable =>
    ("RAVE does not have a current trustworthy perception state.", "Current data required")
  | .error =>
    ("RAVE status could not be confirmed through the management API.", "Status check failed")

/-- `renderOverall`, as the assignments that it makes. -/
def renderOverall (availability : Availability) : List Write :=
  [className "#status-hero" ("status-hero " ++ availability.value),
    className "#overall-state" ("status-value " ++ availability.value),
    textContent "#overall-state" (label availability.value),
    textContent "#overall-summary" (OVERALL_COPY availability).1,
    textContent "#overall-proof" (OVERALL_COPY availability).2]

/-- `componentCard`. -/
def componentCard (name : String) (availability : Availability) (reason : String) : Card where
  kicker := name
  dot := "state-dot " ++ availability.value
  heading := label availability.value
  reason := label reason
  pillClass := "pill " ++ availability.value
  pill := label availability.value

def replaceCards (cs : List Card) : Write :=
  (⟨"#component-cards", .children⟩, .cards cs)

/-- What `invalidateDynamic` assigns. -/
def invalidateDynamic (reason : String) (availability : Availability) : List Write :=
  renderOverall availability ++
  [replaceCards [componentCard "Management API" availability reason]] ++
  setDynamicState "#network-mode" "Unavailable" "unavailable" ++
  setDynamicState "#overview-network" "Unavailable" "unavailable" ++
  [textContent "#network-detail" "Management network status unavailable.",
    textContent "#overview-network-detail" "Current network state unavailable.",
    className "#network-state-marker" "state-marker unavailable",
    textContent "#network-state-marker" "Status unavailable"] ++
  setDynamicState "#rave-setup-state" "Unavailable" "unavailable" ++
  setDynamicState "#os-version" "Unavailable" "unavailable" ++
  setDynamicState "#management-state" "Unavailable" "unavailable" ++
  setDynamicState "#overview-system" "Unavailable" "unavailable" ++
  setDynamicState "#temperature" "Unavailable" "unavailable" ++
  setDynamicState "#overview-temperature" "Unavailable" "unavailable" ++
  setDynamicState "#update-state" "Unavailable" "unavailable" ++
  setDynamicState "#time-sync-state" "Unavailable" "unavailable" ++
  [textContent "#web-version" "Unavailable", textContent "#utc-time" "Unavailable",
    textContent "#rtc-state" "Unavailable"]

def truthy (value : Option String) : Option String :=
  value.filter (· ≠ "")

/-- `value || other`. -/
def orElse (value : Option String) (other : String) : String :=
  (truthy value).getD other

/-- What `renderNetworkStatus` assigns beside the message. -/
def networkStatusWrites (network : NetworkResponse) : List Write :=
  let interfaceName := orElse network.managementInterface "Unavailable"
  let station := match truthy network.stationSsid with
    | some ssid => " (" ++ ssid ++ ")"
    | none => ""
  let detail := match truthy network.stationSsid with
    | some ssid => ssid ++ " on " ++ interfaceName
    | none => interfaceName ++ " management interface"
  let mode := label network.mode.value
  [textContent "#network-detail" (mode ++ station ++ " on " ++ interfaceName ++ ".")] ++
  setDynamicState "#overview-network" mode network.availability.value ++
  [textContent "#overview-network-detail" detail,
    className "#network-state-marker" ("state-marker " ++ network.availability.value),
    textContent "#network-state-marker" (label network.availability.value ++ " status")] ++
  setDynamicState "#rave-setup-state" (if network.provisioningApActive then "Active" else "Inactive")
    (if network.provisioningApActive then "ready" else "degraded")

/-- How the browser writes a number and a time. -/
structure Formats where
  /-- `toFixed(1)` of a temperature in thousandths of a degree. -/
  toFixed : Int → String
  /-- `toISOString()` of a time in microseconds since the epoch. -/
  toISOString : Int → String

variable (formats : Formats)

/-- `renderTime`, as the assignments that it makes. -/
def renderTime (time : TimeStatus) : List Write :=
  setDynamicState "#time-sync-state"
    (if time.synchronized then "Synchronized" else "Unsynchronized")
    (if time.synchronized then "ready" else "degraded") ++
  [textContent "#utc-time" (formats.toISOString time.currentUtc),
    textContent "#rtc-state" (if time.rtcAvailable then "Available" else "Unavailable")]

/-- The answers to the three requests of a poll. -/
structure Answers where
  status : ValidStatusResponse
  network : ValidNetworkResponse
  system : ValidSystemResponse

/-- What `refreshState` assigns when its requests are answered. -/
def render (a : Answers) : List Write :=
  let status := a.status.val
  let network := a.network.val
  let system := a.system.val
  let temperature := match system.temperatureC with
    | none => "Unavailable"
    | some t => formats.toFixed t ++ " °C"
  let temperatureState := match system.temperatureC with
    | none => "degraded"
    | some _ => system.availability.value
  renderOverall status.overall ++
  [replaceCards
    [componentCard (label "camera") status.camera.availability status.camera.reason,
      componentCard (label "perception") status.perception.availability status.perception.reason,
      componentCard (label "hailo") status.hailo.availability status.hailo.reason,
      componentCard (label "comma_link") status.commaLink.availability status.commaLink.reason]] ++
  setDynamicState "#network-mode" (label network.mode.value) network.availability.value ++
  networkStatusWrites network ++
  setDynamicState "#os-version" (orElse (system.osVersion.map String.ofList) "Unavailable")
    system.availability.value ++
  setDynamicState "#management-state" (label system.availability.value) system.availability.value ++
  setDynamicState "#overview-system" (label system.availability.value) system.availability.value ++
  setDynamicState "#update-state" (label system.updateStatus.availability.value)
    system.updateStatus.availability.value ++
  [textContent "#web-version" system.webVersion] ++
  setDynamicState "#temperature" temperature temperatureState ++
  setDynamicState "#overview-temperature" temperature temperatureState ++
  renderTime formats system.time

/-! ## The same elements

Invalidating the page and rendering an answer assign the same properties, so each of them takes away
what the other has put up. -/

def dynamicSlots : List Slot :=
  (invalidateDynamic "" .unavailable).map Prod.fst

/-- The properties do not depend on what is shown. -/
theorem slots_invalidateDynamic (reason : String) (availability : Availability) :
    (invalidateDynamic reason availability).map Prod.fst = dynamicSlots :=
  rfl

def renderedSlots : List Slot :=
  (renderOverall .ready ++ [replaceCards []] ++ setDynamicState "#network-mode" "" "" ++
    [textContent "#network-detail" ""] ++ setDynamicState "#overview-network" "" "" ++
    [textContent "#overview-network-detail" "", className "#network-state-marker" "",
      textContent "#network-state-marker" ""] ++
    setDynamicState "#rave-setup-state" "" "" ++ setDynamicState "#os-version" "" "" ++
    setDynamicState "#management-state" "" "" ++ setDynamicState "#overview-system" "" "" ++
    setDynamicState "#update-state" "" "" ++ [textContent "#web-version" ""] ++
    setDynamicState "#temperature" "" "" ++ setDynamicState "#overview-temperature" "" "" ++
    setDynamicState "#time-sync-state" "" "" ++
    [textContent "#utc-time" "", textContent "#rtc-state" ""]).map Prod.fst

theorem slots_render (a : Answers) : (render formats a).map Prod.fst = renderedSlots :=
  rfl

/-- A rendering assigns nothing that invalidating leaves. -/
theorem renderedSlots_subset : renderedSlots ⊆ dynamicSlots := by
  decide

theorem dynamicSlots_subset : dynamicSlots ⊆ renderedSlots := by
  decide

end Render

end Web

end Rave
