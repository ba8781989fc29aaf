import RaveDeployment.Lib.System
import RaveDeployment.Lib.Timers
import RaveDeployment.Web.Display

/-!
# The polls of the page

`refreshState`, `scheduleRefresh`, `installFreshness` and `invalidateDynamic` of `app.js` with the
timers they set: the timer of the next poll, the timer at which what is shown is stale, and the
timer that aborts the requests of a poll. `tab` is the page in an event loop that runs a callback
when its time has come, however late, and settles the requests in any order. Time is in
milliseconds.
-/

namespace Rave

namespace Web

/-- `FETCH_TIMEOUT_MS`, after which a poll is aborted. -/
def FETCH_TIMEOUT_MS : ℚ := 1000
/-- `FAILURE_RETRY_MS`, the delay after a poll that failed. -/
def FAILURE_RETRY_MS : ℚ := 1000
/-- `MIN_POLL_MS`, the shortest delay. -/
def MIN_POLL_MS : ℚ := 250
/-- `MAX_POLL_MS`, the longest one. -/
def MAX_POLL_MS : ℚ := 2000

/-- The error of a request, as far as `refreshState` tells errors apart by their name. -/
inductive FetchError where
  | abortError
  | other
  deriving DecidableEq

/-- The callbacks of the timers. -/
inductive Callback where
  | refreshState
  | stale (ownedGeneration : Nat)
  | abort (controller : Nat)
  deriving DecidableEq

/-! ## The requests of one poll

Three requests under one abort controller. The poll is over when all have come to their end. -/

/-- A call of `refreshState` whose requests are under way: the settled ones have their result. -/
structure Flight where
  controller : Nat
  fetchTimeout : Nat
  started : ℚ
  status : Option (Except FetchError ValidStatusResponse)
  network : Option (Except FetchError ValidNetworkResponse)
  system : Option (Except FetchError ValidSystemResponse)

/-- What one of the requests comes to. -/
inductive Outcome where
  | status (r : Except FetchError ValidStatusResponse)
  | network (r : Except FetchError ValidNetworkResponse)
  | system (r : Except FetchError ValidSystemResponse)

/-- `controller.abort()`, which rejects what is pending. -/
def Flight.abort (f : Flight) : Flight :=
  { f with
    status := some (f.status.getD (.error .abortError))
    network := some (f.network.getD (.error .abortError))
    system := some (f.system.getD (.error .abortError)) }

/-- A request that is pending is settled. One that fails aborts the others. -/
def Flight.settle : Outcome → Flight → Option Flight
  | .status r, f =>
    if f.status.isSome then none
    else
      let f := { f with status := some r }
      some (if r.isOk then f else f.abort)
  | .network r, f =>
    if f.network.isSome then none
    else
      let f := { f with network := some r }
      some (if r.isOk then f else f.abort)
  | .system r, f =>
    if f.system.isSome then none
    else
      let f := { f with system := some r }
      some (if r.isOk then f else f.abort)

/-- What `refreshState` makes of the requests when all are settled: the answers, or the reason of
the first in their order that was rejected. -/
def Flight.settled (f : Flight) : Option (Except FetchError Answers) :=
  match f.status, f.network, f.system with
  | some status, some network, some system => some do
    let status ← status
    let network ← network
    let system ← system
    return ⟨status, network, system⟩
  | _, _, _ => none

/-! ## The page

The tab with its timers, its elements and the requests under way. -/

/-- What was last put into the elements, and when. -/
inductive Shown where
  | invalid (reason : String) (availability : Availability)
  | polled (a : Answers) (started rendered : ℚ)

def Shown.writes (formats : Formats) : Shown → List Write
  | .invalid reason availability => invalidateDynamic reason availability
  | .polled a _ _ => render formats a

theorem Shown.writes_invalid (formats : Formats) (reason : String) (availability : Availability) :
    (Shown.invalid reason availability).writes formats = invalidateDynamic reason availability := by
  simp only [Shown.writes]

theorem Shown.writes_polled (formats : Formats) (a : Answers) (started rendered : ℚ) :
    (Shown.polled a started rendered).writes formats = render formats a := by
  simp only [Shown.writes]

/-- The last two fields are not the page's: they record what is in the elements, and the times at
which `refreshState` was called, the last one first. -/
structure Tab where
  now : ℚ
  timers : Timers ℚ Callback
  pollTimer : Option Nat
  staleTimer : Option Nat
  freshnessGeneration : Nat
  controllers : Nat
  flights : List Flight
  scanInProgress : Bool
  dom : Dom
  shown : Shown
  calls : List ℚ

namespace Tab

/-- `invalidateDynamic`, with the timer that it clears. -/
def invalidateDynamic (reason : String) (availability : Availability) (s : Tab) : Tab :=
  { s with
    freshnessGeneration := s.freshnessGeneration + 1
    timers := s.timers.clear? s.staleTimer
    staleTimer := none
    dom := s.dom.apply (Web.invalidateDynamic reason availability)
    shown := .invalid reason availability }

theorem invalidateDynamic_dom (reason : String) (availability : Availability) (s : Tab) :
    (s.invalidateDynamic reason availability).dom =
      s.dom.apply (Web.invalidateDynamic reason availability) := by
  simp only [invalidateDynamic]

theorem invalidateDynamic_shown (reason : String) (availability : Availability) (s : Tab) :
    (s.invalidateDynamic reason availability).shown = .invalid reason availability := by
  simp only [invalidateDynamic]

/-- `installFreshness`. -/
def installFreshness (validForMs : ℚ) (s : Tab) : Tab :=
  let ownedGeneration := s.freshnessGeneration + 1
  let timers := s.timers.clear? s.staleTimer
  { s with
    freshnessGeneration := ownedGeneration
    timers := timers.set (s.now + validForMs) (.stale ownedGeneration)
    staleTimer := some timers.next }

theorem installFreshness_dom (validForMs : ℚ) (s : Tab) :
    (s.installFreshness validForMs).dom = s.dom := by
  simp only [installFreshness]

theorem installFreshness_shown (validForMs : ℚ) (s : Tab) :
    (s.installFreshness validForMs).shown = s.shown := by
  simp only [installFreshness]

/-- `scheduleRefresh`. -/
def scheduleRefresh (delayMs : ℚ) (s : Tab) : Tab :=
  let timers := s.timers.clear? s.pollTimer
  { s with
    timers := timers.set (s.now + delayMs) .refreshState
    pollTimer := some timers.next }

/-- `refreshState` up to its requests. -/
def refreshState (s : Tab) : Tab :=
  let s := { s with calls := s.now :: s.calls }
  if s.scanInProgress then s.scheduleRefresh FAILURE_RETRY_MS
  else
    { s with
      controllers := s.controllers + 1
      timers := s.timers.set (s.now + FETCH_TIMEOUT_MS) (.abort s.controllers)
      flights := ⟨s.controllers, s.timers.next, s.now, none, none, none⟩ :: s.flights }

/-- `Math.max(MIN_POLL_MS, Math.min(MAX_POLL_MS, Math.floor(validForMs / 2)))`. -/
def nextRefreshMs (validForMs : Int) : ℚ :=
  max MIN_POLL_MS (min MAX_POLL_MS (validForMs / 2 : Int))

def reasonOf : FetchError → String
  | .abortError => "status_timeout"
  | .other => "status_unavailable"

variable (formats : Formats)

/-- The `try` of `refreshState` from the answers on, and its `catch`: the page, and how long it is
until the next poll. What renders the answers may throw after some of its assignments. -/
def present (f : Flight) (r : Except FetchError Answers) (throwsAfter : Option Nat) (s : Tab) :
    Tab × ℚ :=
  match r, throwsAfter with
  | .ok a, none =>
    let s := { s with dom := s.dom.apply (render formats a), shown := .polled a f.started s.now }
    (s.installFreshness a.status.val.validForMs, nextRefreshMs a.status.val.validForMs)
  | .ok a, some n =>
    let s := { s with dom := s.dom.apply ((render formats a).take n) }
    (s.invalidateDynamic (reasonOf .other) .error, FAILURE_RETRY_MS)
  | .error e, _ => (s.invalidateDynamic (reasonOf e) .error, FAILURE_RETRY_MS)

/-- `refreshState` from the point where its requests are settled. -/
def finish (f : Flight) (r : Except FetchError Answers) (throwsAfter : Option Nat) (s : Tab) : Tab :=
  let s := { s with flights := s.flights.filter fun g => g.controller ≠ f.controller }
  let (s, delayMs) := s.present formats f r throwsAfter
  { s with timers := s.timers.clear f.fetchTimeout }.scheduleRefresh delayMs

def advance (f : Flight) (throwsAfter : Option Nat) (s : Tab) : Tab :=
  match f.settled with
  | none =>
    { s with flights := s.flights.map fun g => if g.controller = f.controller then f else g }
  | some r => s.finish formats f r throwsAfter

/-- The requests of a controller, if they are under way. -/
def findFlight (controller : Nat) (s : Tab) : Option Flight :=
  s.flights.find? fun f => f.controller = controller

def run (callback : Callback) (s : Tab) : Tab :=
  match callback with
  | .refreshState => s.refreshState
  | .stale ownedGeneration =>
    if s.freshnessGeneration = ownedGeneration then
      s.invalidateDynamic "status_stale" .unavailable
    else s
  | .abort controller =>
    match s.findFlight controller with
    | none => s
    | some f => s.advance formats f.abort none

def load (html : Dom) : Tab :=
  let blank : Tab :=
    { now := 0
      timers := .empty
      pollTimer := none
      staleTimer := none
      freshnessGeneration := 0
      controllers := 0
      flights := []
      scanInProgress := false
      dom := html
      shown := .invalid "" .unavailable
      calls := [] }
  (blank.invalidateDynamic "status_starting" .starting).refreshState

end Tab

/-- A step of the tab. -/
inductive TabEvent where
  /-- Time passes. -/
  | wait (ms : ℚ)
  /-- A timer is run. -/
  | fire (timer : Nat)
  /-- A request of a poll is settled. -/
  | settle (controller : Nat) (o : Outcome) (throwsAfter : Option Nat)
  /-- The button of `scanWifi` is pressed, and the scan ends. -/
  | scan
  | scanned

def Tab.step (formats : Formats) : TabEvent → Tab → Option Tab
  | .wait ms, s => if 0 ≤ ms then some { s with now := s.now + ms } else none
  | .fire id, s =>
    match s.timers.find? id with
    | none => none
    | some t =>
      if t.due ≤ s.now then
        some ({ s with timers := s.timers.clear id }.run formats t.callback)
      else none
  | .settle controller o throwsAfter, s =>
    match s.findFlight controller with
    | none => none
    | some f => (f.settle o).map fun f => s.advance formats f throwsAfter
  | .scan, s => if s.scanInProgress then none else some { s with scanInProgress := true }
  | .scanned, s => if s.scanInProgress then some { s with scanInProgress := false } else none

/-- The page with the elements of `index.html`. -/
def tab (html : Dom) (formats : Formats) : System Tab TabEvent where
  init := .load html
  step := Tab.step formats

/-- An event loop that runs what is due before it is late by more than `late`. -/
def Prompt (late : ℚ) (s : Tab) : TabEvent → Prop
  | .wait ms => s.timers.Punctual (s.now + ms) late
  | _ => True

instance (late : ℚ) (s : Tab) : (e : TabEvent) → Decidable (Prompt late s e)
  | .wait ms => inferInstanceAs (Decidable (s.timers.Punctual (s.now + ms) late))
  | .fire _ => .isTrue trivial
  | .settle _ _ _ => .isTrue trivial
  | .scan => .isTrue trivial
  | .scanned => .isTrue trivial

end Web

end Rave
