import RaveDeployment.Lib.Trace
import RaveDeployment.Network.WorkerLogic

/-!
# Rules on the calls a backend issues

A rule says which call may be issued after which. A backend `Obeys` a rule when each of its
methods does, run alone and from any log; then the daemon obeys it in every run
(`clean_of_run`), because no client adds to the calls of the worker and the controller calls the
methods one at a time.

A scan is run by a client. `ScansWithin` says which calls it may issue, and `scans_of_run` that no
client ever issues another.
-/

namespace Rave

open Prog

variable {B : Type} {Ans : B → Type}

/-- A backend on its own: its calls are logged, and answered in any way. -/
def logged (rule : List (BackendEvent B Ans) → B → Prop) :
    Env B Ans (List (BackendEvent B Ans)) :=
  .sequential (fun b log => rule log b) (fun b log r log' => log' = log ++ [⟨b, r⟩])

variable {rule : List (BackendEvent B Ans) → B → Prop} {backend : NetworkBackend B Ans}
  {D : Discipline B Ans} {s t : Shared B Ans}

/-- What the worker must respect when it issues an operation. -/
def mayIssue (rule : List (BackendEvent B Ans) → B → Prop) : WorkerOp B → Shared B Ans → Prop
  | .backend b, s => rule s.workerCalls b
  | _, _ => True

section

variable {α β : Type}

/-- A method within the worker does to the worker's log what it does to its own. -/
theorem wp_ofBackend {p : Prog PyErr B Ans α}
    {Q : α → List (BackendEvent B Ans) → Prop} {R : PyErr → List (BackendEvent B Ans) → Prop}
    (h : p.wp (logged rule) Q R s.workerCalls) :
    (Worker.ofBackend p).wp (workerEnv backend D (mayIssue rule)) (fun a t => Q a t.workerCalls)
      (fun e t => R e t.workerCalls) s := by
  induction p generalizing s with
  | ret a =>
    intro t ht
    rw [later_workerCalls ht]
    exact h _ rfl
  | raise e =>
    intro t ht
    rw [later_workerCalls ht]
    exact h _ rfl
  | op b k ih =>
    intro t ht
    obtain ⟨hpre, hk⟩ := h _ rfl
    -- the clients in between issue no call of the worker's
    have hcalls : t.workerCalls = s.workerCalls := later_workerCalls ht
    refine ⟨show rule t.workerCalls b by rw [hcalls]; exact hpre, ?_⟩
    rintro r w ⟨answers, -, hx⟩
    cases hx
    refine ih _ (hk _ _ ?_)
    show _ = s.workerCalls ++ [_]
    rw [Shared.workerCalls_record_worker, hcalls]

/-- Wherever the program is started, it issues only calls that the rule allows. -/
abbrev Cleared (rule : List (BackendEvent B Ans) → B → Prop) (p : Prog PyErr B Ans α) : Prop :=
  Keeps (logged rule) (fun _ => True) p

/-- Wherever the worker's program is started, it issues only calls that the rule allows. -/
abbrev WorkerCleared (backend : NetworkBackend B Ans) (D : Discipline B Ans)
    (rule : List (BackendEvent B Ans) → B → Prop) (p : Worker B Ans α) : Prop :=
  Keeps (workerEnv backend D (mayIssue rule)) (fun _ => True) p

/-- An operation that the rule allows, and then the rest. -/
theorem workerCleared_op {o : WorkerOp B} {k : WorkerAns Ans o → Worker B Ans α}
    (ho : ∀ s, mayIssue rule o s) (hk : ∀ r, WorkerCleared backend D rule (k r)) :
    WorkerCleared backend D rule (.op o k) :=
  keeps_op (fun _ _ _ _ => trivial) (fun s _ => ho s) (fun _ _ _ _ _ => trivial) hk

theorem workerCleared_ret (a : α) : WorkerCleared backend D rule (.ret a) :=
  keeps_ret (fun _ _ _ _ => trivial) a

theorem workerCleared_locked (body : Locked α) :
    WorkerCleared backend D rule (Worker.locked body) :=
  workerCleared_op (fun _ => trivial) fun r => keeps_ofExcept (fun _ _ _ _ => trivial) r

/-- A program and its handler. -/
theorem workerCleared_orOnFailure {p : Worker B Ans α} {h : PyErr → Worker B Ans α}
    (hp : WorkerCleared backend D rule p) (hh : ∀ e, WorkerCleared backend D rule (h e)) :
    WorkerCleared backend D rule (Worker.orOnFailure p h) := by
  refine keeps_handle (fun _ _ _ _ => trivial) hp fun e => ?_
  cases e.handled with
  | true => exact hh e
  | false => exact keeps_raise (fun _ _ _ _ => trivial) e

/-- A program under the operation lock. -/
theorem workerCleared_withOperation {p : Worker B Ans α} (hp : WorkerCleared backend D rule p) :
    WorkerCleared backend D rule (Worker.withOperation p) :=
  workerCleared_op (fun _ => trivial) fun _ => keeps_finallyDo (fun _ _ _ _ => trivial) hp
    (workerCleared_op (fun _ => trivial) workerCleared_ret)

theorem workerCleared_ofBackend {p : Prog PyErr B Ans α} (hp : Cleared rule p) :
    WorkerCleared backend D rule (Worker.ofBackend p) :=
  fun _ _ => wp_ofBackend (hp _ trivial)

end

/-! ## The controller over a backend that obeys a rule

The worker issues a command only from within a method, so its own log obeys the rule when each
method does. -/

/-- Each method the worker calls obeys the rule. -/
structure Obeys (backend : NetworkBackend B Ans) (rule : List (BackendEvent B Ans) → B → Prop) :
    Prop where
  hasSavedStation : Cleared rule backend.hasSavedStation
  activateSavedStation : Cleared rule backend.activateSavedStation
  connectStation : ∀ ssid password, Cleared rule (backend.connectStation ssid password)
  activateProvisioning : Cleared rule backend.activateProvisioning
  activeStationSsid : Cleared rule backend.activeStationSsid
  provisioningReady : Cleared rule backend.provisioningReady

section

variable (h : Obeys backend rule)
include h

/-- `_restore_provisioning` obeys the rule. -/
theorem Obeys.restoreProvisioning (prior : Option String) :
    WorkerCleared backend D rule (Worker.restoreProvisioning backend prior) := by
  refine keeps_bind (workerCleared_orOnFailure (workerCleared_ofBackend h.activateProvisioning)
    fun _ => workerCleared_ret _) fun ⟨success, apError⟩ => ?_
  cases success with
  | true => exact workerCleared_locked _
  | false => exact workerCleared_locked _

theorem Obeys.settleAttempt (result : Bool × Option String × Option String) (fallback : String) :
    WorkerCleared backend D rule (Worker.settleAttempt backend result fallback) := by
  obtain ⟨success, ssid, error⟩ := result
  cases success with
  | true => exact workerCleared_locked _
  | false => exact keeps_bind (workerCleared_locked _) fun _ => h.restoreProvisioning _

theorem Obeys.processItem (item : WorkItem) :
    WorkerCleared backend D rule (Worker.processItem backend item) := by
  cases item with
  | boot =>
    refine keeps_bind (workerCleared_ofBackend h.hasSavedStation) fun saved => ?_
    cases saved with
    | true =>
      exact keeps_bind (workerCleared_ofBackend h.activateSavedStation)
        fun result => h.settleAttempt result _
    | false => exact keeps_bind (workerCleared_locked _) fun _ => h.restoreProvisioning _
  | connect ssid password =>
    exact keeps_bind (workerCleared_ofBackend (h.connectStation ssid password))
      fun result => h.settleAttempt result _
  | provisioning => exact h.restoreProvisioning none

theorem Obeys.recoverUnexpectedFailure :
    WorkerCleared backend D rule (Worker.recoverUnexpectedFailure backend) := by
  refine keeps_bind (workerCleared_locked _) fun restore => ?_
  cases restore with
  | true => exact h.restoreProvisioning _
  | false => exact workerCleared_ret _

theorem Obeys.processNext : WorkerCleared backend D rule (Worker.processNext backend) := by
  refine workerCleared_op (fun _ => trivial) fun item => ?_
  cases item with
  | none => exact workerCleared_ret _
  | some item =>
    refine keeps_bind (keeps_finallyDo (fun _ _ _ _ => trivial) (workerCleared_orOnFailure
      (workerCleared_withOperation (h.processItem item)) fun e => ?_)
      (workerCleared_op (fun _ => trivial) workerCleared_ret)) fun _ => workerCleared_ret _
    exact keeps_bind h.recoverUnexpectedFailure fun _ => keeps_raise (fun _ _ _ _ => trivial) e

theorem Obeys.reconcile : WorkerCleared backend D rule (Worker.reconcile backend) := by
  refine keeps_bind (workerCleared_locked _) fun snapshot => workerCleared_withOperation ?_
  split
  · refine keeps_bind (workerCleared_orOnFailure (workerCleared_ofBackend h.activeStationSsid)
      fun _ => workerCleared_ret _) fun ssid => keeps_bind (workerCleared_locked _) fun lost => ?_
    cases lost with
    | true => exact h.restoreProvisioning _
    | false => exact workerCleared_ret _
  · refine keeps_bind (workerCleared_orOnFailure (workerCleared_ofBackend h.provisioningReady)
      fun _ => workerCleared_ret _) fun ready => ?_
    cases ready with
    | true => exact workerCleared_ret _
    | false =>
      refine keeps_bind (workerCleared_locked _) fun lost => ?_
      cases lost with
      | true => exact h.restoreProvisioning _
      | false => exact workerCleared_ret _
  · exact workerCleared_ret _

/-- A backend that obeys the rule makes a worker that does. -/
theorem Obeys.verified : VerifiedWorker backend D (mayIssue rule) (fun _ => True)
    (fun _ _ _ => True) where
  stable _ _ _ _ := trivial
  restart _ := trivial
  processNext s _ := h.processNext s trivial
  reconcile s _ := h.reconcile s trivial
  rest_of_next _ _ _ _ := trivial

end

/-! ## Runs

From the worker's programs to every run. -/

/-- The worker's log of calls, after an operation of the worker. -/
theorem workerCalls_workerExec {answers : (b : B) → Ans b} {o : WorkerOp B}
    {r : WorkerAns Ans o} (h : workerExec answers o s = some (r, t)) :
    t.workerCalls = s.workerCalls ∨
      ∃ b, o = .backend b ∧ t.workerCalls = s.workerCalls ++ [⟨b, answers b⟩] := by
  rcases workerExec_cases h with ⟨item, rest, -, rfl⟩ | ⟨b, ho, rfl⟩ | ⟨-, hhist, -⟩
  · exact .inl rfl
  · exact .inr ⟨b, ho, Shared.workerCalls_record_worker s _⟩
  · exact .inl (by rw [Shared.workerCalls, hhist, Shared.workerCalls])

/-- **A backend that obeys a rule obeys it in the daemon.** -/
theorem clean_of_run (h : Obeys backend rule) {as : List (Action B Ans)} {d : DaemonState B Ans}
    (run : (daemon backend).Run D.ok .init as d) :
    Clean (fun log e => rule log e.1) d.shared.workerCalls := by
  let I (d : DaemonState B Ans) : Prop :=
    WorkerSafe backend D (mayIssue rule) (fun _ => True) (fun _ _ _ => True) d ∧
      Clean (fun log e => rule log e.1) d.shared.workerCalls
  -- the invariant: the worker obeys the rule, and its calls so far are clean
  have hinit : I .init := ⟨trivial, clean_nil⟩
  refine (run.invariant (I := I) hinit ?_).2
  rintro d a d' ⟨hsafe, hclean⟩ hok hs
  refine ⟨workerSafe_step h.verified hsafe hok hs, ?_⟩
  cases daemonStep_move hs with
  | client hc =>
    cases clientStep_move hc with
    | quiet _ _ _ _ _ hcalls => rwa [hcalls]
    | accept _ _ _ _ _ _ _ _ _ hcalls => rwa [hcalls]
  | worker hnext hx =>
    rcases workerCalls_workerExec hx with hcalls | ⟨b, rfl, hcalls⟩
    · rwa [hcalls]
    · rw [hcalls]
      exact hclean.concat (workerSafe_pre hsafe hnext)
  | silent hs => rwa [hs]
  | restart hs => rw [hs]; exact clean_nil

/-! ## Scans

Scans run on the threads of clients. Their commands come between those of the worker, at any point.
-/

def ScansWithin (backend : NetworkBackend B Ans) (kind : B → Prop) : Prop :=
  Cleared (fun _ b => kind b) backend.scan

/-- What is left of a scan issues only calls of this kind, and so have all clients. -/
def ClientsWithin (kind : B → Prop) (s : Shared B Ans) : Prop :=
  (∀ rest, s.operation = some (.client rest) → ∃ log, rest.wp (logged fun _ b => kind b)
    (fun _ _ => True) (fun _ _ => True) log) ∧
  ∀ c ∈ s.history.calls, c.1 = .client → kind c.2.1

variable {kind : B → Prop}

/-- A client's step keeps the clients to commands of this kind. -/
theorem clientsWithin_clientStep (hscan : ScansWithin backend kind) {a : ClientAction B Ans}
    {reply : Reply} (h : ClientsWithin kind s)
    (hs : clientStep backend a s = some (reply, t)) : ClientsWithin kind t := by
  obtain ⟨hrest, hcalls⟩ := h
  cases a with
  | request r =>
    simp only [clientStep] at hs
    split at hs
    · cases hs
    · rcases request_cases (Option.some.inj hs) with ⟨rfl, -⟩ | ⟨-, next, work, -, -, rfl⟩
      · exact ⟨hrest, hcalls⟩
      · exact ⟨hrest, hcalls⟩
  | finishRequest =>
    simp only [clientStep] at hs
    split at hs <;> cases hs
    exact ⟨hrest, hcalls⟩
  | scanCheck =>
    simp only [clientStep] at hs
    split at hs
    · cases hs
    · split at hs <;> cases hs <;> exact ⟨hrest, hcalls⟩
  | scanEnter =>
    simp only [clientStep] at hs
    split at hs <;> cases hs
    refine ⟨?_, hcalls⟩
    intro rest h
    cases h
    exact ⟨[], hscan [] trivial⟩
  | scanStep answers =>
    simp only [clientStep] at hs
    split at hs
    · next b k hop =>
      cases hs
      -- the call is one that a scan may make, and so are those that may follow
      obtain ⟨log, hwp⟩ := hrest _ hop
      obtain ⟨hkind, hk⟩ := hwp log rfl
      refine ⟨?_, ?_⟩
      · intro rest h
        cases h
        exact ⟨_, hk (answers b) _ rfl⟩
      · intro c hc hclient
        rcases List.mem_append.mp hc with hc | hc
        · exact hcalls c hc hclient
        · rw [List.mem_singleton.mp hc]
          exact hkind
    · cases hs
  | scanLeave =>
    simp only [clientStep] at hs
    split at hs
    · cases hs
      exact ⟨by simp, hcalls⟩
    · cases hs
      exact ⟨by simp, hcalls⟩
    · cases hs

/-- The worker's steps leave the clients' commands alone. -/
theorem clientsWithin_workerExec {answers : (b : B) → Ans b} {o : WorkerOp B}
    {r : WorkerAns Ans o} (h : ClientsWithin kind s)
    (hx : workerExec answers o s = some (r, t)) : ClientsWithin kind t := by
  obtain ⟨hrest, hcalls⟩ := h
  rcases workerExec_cases hx with ⟨item, rest, -, rfl⟩ | ⟨b, -, rfl⟩ | ⟨-, hhist, hop⟩
  · exact ⟨hrest, hcalls⟩
  · refine ⟨hrest, fun c hc hclient => ?_⟩
    rcases List.mem_append.mp hc with hc | hc
    · exact hcalls c hc hclient
    · rw [List.mem_singleton.mp hc] at hclient
      cases hclient
  · refine ⟨fun rest ht => ?_, by rwa [hhist]⟩
    rcases hop with hop | hop | hop <;> rw [hop] at ht
    · exact hrest rest ht
    · cases ht
    · cases ht

/-- **No client issues anything but the calls of a scan.** -/
theorem scans_of_run (hscan : ScansWithin backend kind) {as : List (Action B Ans)}
    {d : DaemonState B Ans} (run : (daemon backend).Run D.ok .init as d) :
    ∀ c ∈ d.shared.history.calls, c.1 = .client → kind c.2.1 := by
  have hinit : ClientsWithin kind (Shared.init : Shared B Ans) :=
    ⟨by simp [Shared.init], by simp [Shared.init]⟩
  refine (run.invariant (I := fun d => ClientsWithin kind d.shared) hinit ?_).2
  intro d a d' h _ hs
  cases daemonStep_move hs with
  | client hc => exact clientsWithin_clientStep hscan h hc
  | worker _ hx => exact clientsWithin_workerExec h hx
  | silent hs => rwa [hs]
  | restart hs => rwa [hs]

end Rave
