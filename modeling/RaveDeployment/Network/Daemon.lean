import RaveDeployment.Lib.BoundedQueue
import RaveDeployment.Lib.System
import RaveDeployment.Network.Controller

/-!
# The running daemon

One worker thread and any number of client threads around one `NetworkController`, interleaved
at the operations on `_lock`, `_operation_lock` and the queue. Client threads are anonymous: what
matters of them is who holds a lock (at most one each) and how many are waiting between the mode
check of a `scan` and its `_operation_lock`.

A request is two steps. The first takes `_lock`, looks the transition up and puts the item; the
second writes the fields and releases `_lock`. Between them the worker may already take the item.
A refused request is the first step alone. The worker's `with self._lock:` blocks touch nothing
that is reachable without the lock, so each is one step.

The history (`accepted`, `taken`, `calls`) is written and never read by the steps.
-/

namespace Rave

variable {B : Type} {Ans : B → Type}

/-- The requests that are put into the queue. -/
inductive Request where
  | boot
  | connect (ssid : String) (password : Option String)
  | provisioning
  deriving DecidableEq

namespace Request

def item : Request → WorkItem
  | boot => .boot
  | connect ssid password => .connect ssid password
  | provisioning => .provisioning

def event : Request → NetworkEvent
  | boot => .boot
  | connect _ _ => .stationRequested
  | provisioning => .provisioningRequested

/-- The writes that end an accepted request: the mode, and for all but `request_boot` the
error field. -/
def commit (r : Request) (next : NetworkMode) (self : NetworkController) : NetworkController :=
  match r with
  | boot => { self with mode := next }
  | _ => { self with mode := next, lastError := none }

@[simp] theorem commit_mode (r : Request) (next : NetworkMode) (self : NetworkController) :
    (r.commit next self).mode = next := by
  cases r <;> rfl

end Request

/-- Who runs a backend operation. -/
inductive Thread where
  | worker
  | client
  deriving DecidableEq

/-- The holder of `_operation_lock`; a scanning client carries what is left of its
`backend.scan()`. -/
inductive Owner (B : Type) (Ans : B → Type) where
  | worker
  | client (rest : Prog PyErr B Ans (List AccessPoint))

abbrev BackendEvent (B : Type) (Ans : B → Type) : Type := (b : B) × Ans b

def workerOf (calls : List (Thread × BackendEvent B Ans)) : List (BackendEvent B Ans) :=
  calls.filterMap fun c => if c.1 = .worker then some c.2 else none

/-- The requests that were accepted, the items that were taken and the operations of the backend, in
order. No step reads it. -/
structure History (B : Type) (Ans : B → Type) where
  /-- The items put into the queue. -/
  accepted : List WorkItem
  /-- The items taken out of it. -/
  taken : List WorkItem
  /-- The backend operations performed. -/
  calls : List (Thread × BackendEvent B Ans)

/-- What the threads share. -/
structure Shared (B : Type) (Ans : B → Type) where
  controller : NetworkController
  work : BoundedQueue WorkItem 1
  /-- The request whose thread holds `_lock`, its item already put, and its next mode. -/
  lock : Option (Request × NetworkMode)
  operation : Option (Owner B Ans)
  /-- The `scan` calls past their mode check and not yet holding `_operation_lock`. -/
  scans : Nat
  history : History B Ans

/-- What the worker thread is doing: nothing, or a call with the rest of its program. A
`process_next` remembers the state it was called in, for the theorems to refer to. -/
inductive WorkerState (B : Type) (Ans : B → Type) : Type 1 where
  | idle
  | processing (start : Shared B Ans) (rest : Worker B Ans Bool)
  | reconciling (rest : Worker B Ans Unit)

/-- The shared state and what the worker is about to do. -/
structure DaemonState (B : Type) (Ans : B → Type) : Type 1 where
  shared : Shared B Ans
  worker : WorkerState B Ans

/-! ## The clients

What the threads of the server do with the controller. A scan holds the operation lock from before
the backend is called until it has returned. -/

/-- The steps of the clients' threads. -/
inductive ClientAction (B : Type) (Ans : B → Type) where
  /-- `request_boot`, `request_connect` or `request_provisioning` takes `_lock`. -/
  | request (r : Request)
  /-- The accepted request writes the fields, releases `_lock` and returns. -/
  | finishRequest
  /-- `scan` checks the mode under `_lock`. -/
  | scanCheck
  /-- A waiting `scan` takes `_operation_lock`. -/
  | scanEnter
  /-- The scanning backend performs an operation. -/
  | scanStep (answers : (b : B) → Ans b)
  /-- `scan` releases `_operation_lock` and returns or raises. -/
  | scanLeave

/-- What a client sees of its action. -/
inductive Reply where
  | pending
  | returned (snapshot : NetworkSnapshot)
  | raised (e : PyErr)
  | scanned (result : Except PyErr (List AccessPoint))

namespace Shared

/-- The fields as the next holder of `_lock` will find them. -/
def view (s : Shared B Ans) : NetworkController :=
  match s.lock with
  | none => s.controller
  | some (r, next) => r.commit next s.controller

/-- The first step of `_enqueue_transition_locked` and of the methods that call it. -/
def enqueueTransition (r : Request) (s : Shared B Ans) : Reply × Shared B Ans :=
  match transition s.controller.mode r.event with
  | .error e => (.raised e, s)
  | .ok next =>
    match s.work.put? r.item with
    | none => (.raised (.runtimeError "network_transition_busy"), s)
    | some work =>
      (.pending,
        { s with
          work := work
          lock := some (r, next)
          history.accepted := s.history.accepted ++ [r.item] })

/-- A request under `_lock`: accepted and queued, or refused. -/
def request (r : Request) (s : Shared B Ans) : Reply × Shared B Ans :=
  if r = .provisioning ∧ s.controller.mode = .provisioningAp then
    (.returned s.controller.snapshot, s)
  else s.enqueueTransition r

def record (s : Shared B Ans) (thread : Thread) (event : BackendEvent B Ans) : Shared B Ans :=
  { s with history.calls := s.history.calls ++ [(thread, event)] }

/-- `item` is taken out of the queue, which leaves `rest`. -/
def take (s : Shared B Ans) (item : WorkItem) (rest : BoundedQueue WorkItem 1) : Shared B Ans :=
  { s with work := rest, history.taken := s.history.taken ++ [item] }

def workerCalls (s : Shared B Ans) : List (BackendEvent B Ans) :=
  workerOf s.history.calls

end Shared

/-- One step of a client, or nothing where it has to wait. -/
def clientStep (backend : NetworkBackend B Ans) (a : ClientAction B Ans) (s : Shared B Ans) :
    Option (Reply × Shared B Ans) :=
  match a with
  | .request r => if s.lock.isSome then none else some (s.request r)
  | .finishRequest =>
    match s.lock with
    | none => none
    | some (r, next) =>
      let controller := r.commit next s.controller
      some (.returned controller.snapshot, { s with controller := controller, lock := none })
  | .scanCheck =>
    if s.lock.isSome then none
    else if s.controller.mode = .provisioningAp ∨ s.controller.mode = .stationConnected then
      some (.pending, { s with scans := s.scans + 1 })
    else some (.raised (.runtimeError "network_transition_busy"), s)
  | .scanEnter =>
    match s.scans, s.operation with
    | waiting + 1, none =>
      some (.pending, { s with scans := waiting, operation := some (.client backend.scan) })
    | _, _ => none
  | .scanStep answers =>
    match s.operation with
    | some (.client (.op b k)) =>
      let s' := s.record .client ⟨b, answers b⟩
      some (.pending, { s' with operation := some (.client (k (answers b))) })
    | _ => none
  | .scanLeave =>
    match s.operation with
    | some (.client (.ret networks)) =>
      some (.scanned (.ok networks), { s with operation := none })
    | some (.client (.raise e)) => some (.scanned (.error e), { s with operation := none })
    | _ => none

/-! ## The worker

The program of the worker's thread, one operation at a time. -/

/-- One operation of the worker with its answer, or nothing where it has to wait. An empty
queue answers after the timeout of `get`. -/
def workerExec (answers : (b : B) → Ans b) :
    (o : WorkerOp B) → Shared B Ans → Option (WorkerAns Ans o × Shared B Ans)
  | .workGet, s =>
    match s.work.get? with
    | none => some (none, s)
    | some (item, rest) => some (some item, s.take item rest)
  | .taskDone, s => some ((), s)
  | .acquireOperation, s =>
    match s.operation with
    | none => some ((), { s with operation := some .worker })
    | some _ => none
  | .releaseOperation, s => some ((), { s with operation := none })
  | .locked body, s =>
    match s.lock with
    | none => some ((body s.controller).1, { s with controller := (body s.controller).2 })
    | some _ => none
  | .backend b, s => some (answers b, s.record .worker ⟨b, answers b⟩)

/-- The two calls the work loop makes. It reconciles only after a `process_next` that found
nothing; here it may choose freely, so its runs are among these. -/
inductive WorkerCall where
  | processNext
  | reconcile
  deriving DecidableEq

/-! ## The system

The steps of all threads, in any order. -/

/-- The steps of all threads. -/
inductive Action (B : Type) (Ans : B → Type) where
  | client (a : ClientAction B Ans)
  | begin (call : WorkerCall)
  | work (answers : (b : B) → Ans b)
  /-- The call returns, or its exception is logged. -/
  | finishCall
  /-- The process is killed and started again. -/
  | restart

def Shared.init : Shared B Ans where
  controller := .new
  work := .empty
  lock := none
  operation := none
  scans := 0
  history := ⟨[], [], []⟩

/-- The daemon before its first step, with an idle worker. -/
def DaemonState.init : DaemonState B Ans := ⟨.init, .idle⟩

def workStep {α : Type} (answers : (b : B) → Ans b) :
    Worker B Ans α → Shared B Ans → Option (Worker B Ans α × Shared B Ans)
  | .op o k, s => (workerExec answers o s).map fun (r, t) => (k r, t)
  | _, _ => none

def finished {α : Type} : Worker B Ans α → Bool
  | .op _ _ => false
  | _ => true

/-- One step of one thread, where it is possible. -/
def daemonStep (backend : NetworkBackend B Ans) (a : Action B Ans) (d : DaemonState B Ans) :
    Option (DaemonState B Ans) :=
  match a, d.worker with
  | .client a, _ => (clientStep backend a d.shared).map fun (_, t) => { d with shared := t }
  | .begin .processNext, .idle =>
    some { d with worker := .processing d.shared (Worker.processNext backend) }
  | .begin .reconcile, .idle => some { d with worker := .reconciling (Worker.reconcile backend) }
  | .work answers, .processing start rest =>
    (workStep answers rest d.shared).map fun (rest, t) => ⟨t, .processing start rest⟩
  | .work answers, .reconciling rest =>
    (workStep answers rest d.shared).map fun (rest, t) => ⟨t, .reconciling rest⟩
  | .finishCall, .processing _ rest => if finished rest then some ⟨d.shared, .idle⟩ else none
  | .finishCall, .reconciling rest => if finished rest then some ⟨d.shared, .idle⟩ else none
  | .restart, _ => some .init
  | _, _ => none

def daemon (backend : NetworkBackend B Ans) : System (DaemonState B Ans) (Action B Ans) where
  init := .init
  step := daemonStep backend

end Rave
