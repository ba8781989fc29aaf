import RaveDeployment.Lib.Prog
import RaveDeployment.Network.Scan

/-!
# `NetworkController`

The worker's side of `rave_networkd/controller.py`: `process_next`, `reconcile` and what they
call, as programs over the synchronisation operations they perform. One `with self._lock:` block
is one operation, a function on the fields the lock guards; the queue and `_operation_lock` have
operations of their own, and a backend method is whatever program the backend supplies.

The clients' side (`request_*`, `scan`) is in `RaveDeployment.Network.Daemon`.
-/

namespace Rave

open Py

inductive WorkItem where
  | boot
  | connect (ssid : String) (password : Option String)
  | provisioning
  deriving DecidableEq

/-- The fields guarded by `_lock`. -/
structure NetworkController where
  mode : NetworkMode
  stationSsid : Option String
  lastError : Option String
  deriving DecidableEq

structure NetworkSnapshot where
  mode : NetworkMode
  provisioningApActive : Bool
  stationSsid : Option String
  lastError : Option String
  deriving DecidableEq

def NetworkController.snapshot (self : NetworkController) : NetworkSnapshot where
  mode := self.mode
  provisioningApActive := self.mode = .provisioningAp
  stationSsid := self.stationSsid
  lastError := self.lastError

/-- `NetworkController.__init__`. -/
def NetworkController.new : NetworkController where
  mode := .unconfigured
  stationSsid := none
  lastError := none

/-- The body of a `with self._lock:` block. An exception keeps the writes made before it. -/
abbrev Locked (α : Type) : Type := NetworkController → Except PyErr α × NetworkController

/-- A backend, as the `NetworkBackend` protocol has it: each method is a program over the
backend's own operations `B`. -/
structure NetworkBackend (B : Type) (Ans : B → Type) where
  hasSavedStation : Prog PyErr B Ans Bool
  activateSavedStation : Prog PyErr B Ans (Bool × Option String × Option String)
  connectStation : String → Option String →
    Prog PyErr B Ans (Bool × Option String × Option String)
  activateProvisioning : Prog PyErr B Ans (Bool × Option String)
  scan : Prog PyErr B Ans (List AccessPoint)
  activeStationSsid : Prog PyErr B Ans (Option String)
  provisioningReady : Prog PyErr B Ans Bool

/-- The operations of the worker thread. -/
inductive WorkerOp (B : Type) : Type 1 where
  /-- `self._work.get(timeout=timeout)`. -/
  | workGet
  /-- `self._work.task_done()`. -/
  | taskDone
  | acquireOperation
  | releaseOperation
  /-- A `with self._lock:` block. -/
  | locked {α : Type} (body : Locked α)
  | backend (b : B)

/-- `workGet` answers nothing on `queue.Empty`. -/
def WorkerAns {B : Type} (Ans : B → Type) : WorkerOp B → Type
  | .workGet => Option WorkItem
  | .taskDone => Unit
  | .acquireOperation => Unit
  | .releaseOperation => Unit
  | .locked (α := α) _ => Except PyErr α
  | .backend b => Ans b

abbrev Worker (B : Type) (Ans : B → Type) (α : Type) : Type 1 :=
  Prog PyErr (WorkerOp B) (WorkerAns Ans) α

/-! ## The blocks under `_lock`

What is done while the lock is held, each block in one step. -/

namespace Locked

/-- `_apply_locked`. -/
def apply (event : NetworkEvent) : Locked Unit := fun self =>
  match transition self.mode event with
  | .ok next => (.ok (), { self with mode := next })
  | .error e => (.error e, self)

/-- The block of `snapshot`. -/
def snapshot : Locked NetworkSnapshot := fun self =>
  (.ok self.snapshot, self)

/-- `_apply_locked(event)`, then the writes of the two other fields. -/
def applyThenSet (event : NetworkEvent) (ssid lastError : Option String) : Locked Unit :=
  fun self =>
    match apply event self with
    | (.ok (), self) => (.ok (), { self with stationSsid := ssid, lastError := lastError })
    | (.error e, self) => (.error e, self)

/-- The block of `_reconcile_station`; the answer says whether to restore the AP. -/
def checkStation (ssid : Option String) : Locked Bool := fun self =>
  if self.mode ≠ .stationConnected then (.ok false, self)
  else
    match ssid with
    | some ssid => (.ok false, { self with stationSsid := some ssid })
    | none =>
      match apply .stationTimeout self with
      | (.ok (), self) => (.ok true, self)
      | (.error e, self) => (.error e, self)

/-- The block of `_reconcile_provisioning`; the answer says whether to restore the AP. -/
def checkProvisioning : Locked Bool := fun self =>
  if self.mode ≠ .provisioningAp then (.ok false, self)
  else
    match apply .provisioningRequested self with
    | (.ok (), self) => (.ok true, self)
    | (.error e, self) => (.error e, self)

/-- The block of `_recover_unexpected_failure`; the answer says whether to restore the AP. -/
def recover : Locked Bool := fun self =>
  if self.mode = .stationConnecting then
    match apply .stationTimeout self with
    | (.ok (), self) => (.ok true, self)
    | (.error e, self) => (.error e, self)
  else if self.mode ≠ .transition then
    (.ok false,
      { mode := .error, stationSsid := none, lastError := some "network_operation_failed" })
  else (.ok true, self)

end Locked

/-! ## The worker's methods

Between the blocks the worker calls the backend, and other threads may take the lock. -/

namespace Worker

variable {B : Type} {Ans : B → Type} {α : Type}

/-- `with self._lock:`. -/
def locked (body : Locked α) : Worker B Ans α :=
  .op (.locked body) Prog.ofExcept

def ofBackend : Prog PyErr B Ans α → Worker B Ans α
  | .ret a => .ret a
  | .raise e => .raise e
  | .op b k => .op (.backend b) fun r => ofBackend (k r)

/-- `with self._operation_lock: p`. -/
def withOperation (p : Worker B Ans α) : Worker B Ans α :=
  .op .acquireOperation fun _ => p.finallyDo (.op .releaseOperation .ret)

/-- `try p except (OSError, RuntimeError, ValueError): h`. -/
def orOnFailure (p : Worker B Ans α) (h : PyErr → Worker B Ans α) : Worker B Ans α :=
  p.handle fun e => if e.handled then h e else throw e

variable (backend : NetworkBackend B Ans)

/-- `_apply`. -/
def apply (event : NetworkEvent) : Worker B Ans Unit :=
  locked (Locked.apply event)

/-- `_station_connected`. -/
def stationConnected (ssid : Option String) : Worker B Ans Unit :=
  locked (Locked.applyThenSet .stationConnected ssid none)

/-- `_restore_provisioning`. -/
def restoreProvisioning (priorError : Option String) : Worker B Ans Unit := do
  let (success, apError) ← orOnFailure (ofBackend backend.activateProvisioning) fun _ =>
    return (false, some "ap_activation_failed")
  if success then
    locked (Locked.applyThenSet .apReady none priorError)
  else
    locked (Locked.applyThenSet .apFailed none (some (orElse apError "ap_activation_failed")))

/-- What `_process_boot` and `_process_connect` do with the result of their attempt. -/
def settleAttempt (result : Bool × Option String × Option String) (fallback : String) :
    Worker B Ans Unit := do
  let (success, ssid, error) := result
  if success then
    stationConnected ssid
  else
    apply .stationTimeout
    restoreProvisioning backend (some (orElse error fallback))

/-- `_process_boot`. -/
def processBoot : Worker B Ans Unit := do
  let saved ← ofBackend backend.hasSavedStation
  if saved then
    let result ← ofBackend backend.activateSavedStation
    settleAttempt backend result "saved_station_timeout"
  else
    apply .noSavedNetwork
    restoreProvisioning backend none

/-- `_process_connect`. -/
def processConnect (ssid : String) (password : Option String) : Worker B Ans Unit := do
  let result ← ofBackend (backend.connectStation ssid password)
  settleAttempt backend result "station_timeout"

/-- `_recover_unexpected_failure`. -/
def recoverUnexpectedFailure : Worker B Ans Unit := do
  if ← locked Locked.recover then
    restoreProvisioning backend (some "network_operation_failed")

/-- What `process_next` does with an item. -/
def processItem : WorkItem → Worker B Ans Unit
  | .boot => processBoot backend
  | .connect ssid password => processConnect backend ssid password
  | .provisioning => restoreProvisioning backend none

/-- `process_next`. -/
def processNext : Worker B Ans Bool :=
  .op .workGet fun
    | none => return false
    | some item => do
      Prog.finallyDo
        (orOnFailure (withOperation (processItem backend item)) fun e => do
          recoverUnexpectedFailure backend
          throw e)
        (.op .taskDone .ret)
      return true

/-- `_reconcile_station`. -/
def reconcileStation : Worker B Ans Unit := do
  let ssid ← orOnFailure (ofBackend backend.activeStationSsid) fun _ => return none
  if ← locked (Locked.checkStation ssid) then
    restoreProvisioning backend (some "station_connection_lost")

/-- `_reconcile_provisioning`. -/
def reconcileProvisioning : Worker B Ans Unit := do
  let ready ← orOnFailure (ofBackend backend.provisioningReady) fun _ => return false
  if ready then
    return ()
  if ← locked Locked.checkProvisioning then
    restoreProvisioning backend (some "provisioning_ap_lost")

def reconcile : Worker B Ans Unit := do
  let mode := (← locked Locked.snapshot).mode
  withOperation <|
    match mode with
    | .stationConnected => reconcileStation backend
    | .provisioningAp => reconcileProvisioning backend
    | _ => return ()

end Worker

end Rave
