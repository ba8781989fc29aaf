import RaveDeployment.Lib.Levels
import RaveDeployment.Network.AnyBackend

/-!
# The worker over a backend and over its calls

The controller's worker is written against the `NetworkBackend` protocol. Over `anyBackend` a method
is one call, answered by its outcome; over a backend with operations of its own it is a program of
them. `carries_processNext` and `carries_reconcile`: the second carries out the first, as long as
its methods raise only what the controller handles.
-/

namespace Rave

open Prog

variable {B : Type} {Ans : B → Type}

/-! ## The methods

The backend's methods as operations of the level above, each with the program that carries it out
below. -/

def NetworkBackend.method (backend : NetworkBackend B Ans) :
    (c : BackendCall) → Prog PyErr B Ans c.Result
  | .hasSavedStation => backend.hasSavedStation
  | .activateSavedStation => backend.activateSavedStation
  | .connectStation ssid password => backend.connectStation ssid password
  | .activateProvisioning => backend.activateProvisioning
  | .scan => backend.scan
  | .activeStationSsid => backend.activeStationSsid
  | .provisioningReady => backend.provisioningReady

/-- The outcome of a method is the answer to the call, unless it is an exception that the controller
does not handle. -/
def BackendCall.report (c : BackendCall) : Except PyErr c.Result → Option c.Answer
  | .ok a => some (.ok a)
  | .error e => if h : e.handled = true then some (.error ⟨e, h⟩) else none

def NetworkBackend.methods (backend : NetworkBackend B Ans) :
    Methods PyErr Ans BackendCall.Answer where
  Value := BackendCall.Result
  method := backend.method
  report := BackendCall.report

def WorkerOp.Value : WorkerOp BackendCall → Type
  | .workGet => Option WorkItem
  | .taskDone => Unit
  | .acquireOperation => Unit
  | .releaseOperation => Unit
  | .locked (α := α) _ => Except PyErr α
  | .backend c => c.Result

/-- The operations on the locks and the queue are the same at both levels. -/
def NetworkBackend.workerMethod (backend : NetworkBackend B Ans) :
    (o : WorkerOp BackendCall) → Worker B Ans o.Value
  | .workGet => .op .workGet .ret
  | .taskDone => .op .taskDone .ret
  | .acquireOperation => .op .acquireOperation .ret
  | .releaseOperation => .op .releaseOperation .ret
  | .locked body => .op (.locked body) .ret
  | .backend c => Worker.ofBackend (backend.method c)

/-- What the level above sees of an operation that has ended. -/
def WorkerOp.report :
    (o : WorkerOp BackendCall) → Except PyErr o.Value → Option (WorkerAns BackendCall.Answer o)
  | .backend c, out => c.report out
  | .workGet, .ok item => some item
  | .taskDone, .ok _ => some ()
  | .acquireOperation, .ok _ => some ()
  | .releaseOperation, .ok _ => some ()
  | .locked _, .ok out => some out
  | _, .error _ => none

def NetworkBackend.workerMethods (backend : NetworkBackend B Ans) :
    Methods PyErr (WorkerAns Ans) (WorkerAns BackendCall.Answer) where
  Value := WorkerOp.Value
  method := backend.workerMethod
  report := WorkerOp.report

/-! ## The worker's programs

The worker over the calls of the backend is carried out by the worker over its commands: the same
text, with each call replaced by the method's program. -/

section Programs

variable {backend : NetworkBackend B Ans} {α : Type}

/-- A call is reported as what its method returned, or as an error that the controller handles. -/
theorem report_eq_some {c : BackendCall} {out : Except PyErr c.Result} {r : c.Answer}
    (h : c.report out = some r) :
    (∃ a, out = .ok a ∧ r = .ok a) ∨ ∃ e, out = .error e.val ∧ r = .error e := by
  cases out with
  | ok a => exact .inl ⟨a, rfl, (Option.some.inj h).symm⟩
  | error e =>
    simp only [BackendCall.report] at h
    split at h
    · next he => exact .inr ⟨⟨e, he⟩, rfl, (Option.some.inj h).symm⟩
    · cases h

theorem carries_method (c : BackendCall) :
    Carries backend.methods (.op c BackendCall.outcome) (backend.method c) := by
  refine ⟨Prog.ofExcept, (attempt_bind_ofExcept (backend.method c)).symm, ?_⟩
  intro out r hreport
  rcases report_eq_some hreport with ⟨a, rfl, rfl⟩ | ⟨e, rfl, rfl⟩
  · exact carries_ret a
  · exact carries_raise e.val

/-- A call of the worker. -/
theorem carries_call (c : BackendCall) :
    Carries backend.workerMethods (Worker.ofBackend (.op c BackendCall.outcome))
      (Worker.ofBackend (backend.method c)) := by
  refine ⟨Prog.ofExcept, (attempt_bind_ofExcept (Worker.ofBackend (backend.method c))).symm, ?_⟩
  intro out r hreport
  rcases report_eq_some hreport with ⟨a, rfl, rfl⟩ | ⟨e, rfl, rfl⟩
  · exact carries_ret a
  · exact carries_raise e.val

/-- Taking an item is the same operation on both levels. -/
theorem carries_workGet {k : Option WorkItem → Worker BackendCall BackendCall.Answer α}
    {f : Option WorkItem → Worker B Ans α}
    (h : ∀ item, Carries backend.workerMethods (k item) (f item)) :
    Carries backend.workerMethods (.op .workGet k) (.op .workGet f) := by
  refine carries_one id id rfl (fun _ => rfl) ?_ fun _ => rfl
  intro item r hreport
  rw [← Option.some.inj hreport]
  exact h item

theorem carries_taskDone :
    Carries backend.workerMethods (.op .taskDone .ret) (.op .taskDone .ret) :=
  carries_one id id rfl (fun _ => rfl) (fun _ _ _ => carries_ret ()) fun _ => rfl

theorem carries_releaseOperation :
    Carries backend.workerMethods (.op .releaseOperation .ret) (.op .releaseOperation .ret) :=
  carries_one id id rfl (fun _ => rfl) (fun _ _ _ => carries_ret ()) fun _ => rfl

theorem carries_locked (body : Locked α) :
    Carries backend.workerMethods (Worker.locked body) (Worker.locked body) := by
  refine carries_one id id rfl (fun _ => rfl) ?_ fun _ => rfl
  intro out r hreport
  rw [← Option.some.inj hreport]
  exact carries_ofExcept out

/-- What is done under the operation lock is carried out under the operation lock. -/
theorem carries_withOperation {q : Worker BackendCall BackendCall.Answer α} {p : Worker B Ans α}
    (h : Carries backend.workerMethods q p) :
    Carries backend.workerMethods (Worker.withOperation q) (Worker.withOperation p) := by
  refine carries_one id id rfl (fun _ => rfl) ?_ fun _ => rfl
  intro _ _ _
  exact carries_finallyDo h carries_releaseOperation

/-- A handler is carried out by a handler. -/
theorem carries_orOnFailure {q : Worker BackendCall BackendCall.Answer α} {p : Worker B Ans α}
    {g : PyErr → Worker BackendCall BackendCall.Answer α} {f : PyErr → Worker B Ans α}
    (h : Carries backend.workerMethods q p)
    (hf : ∀ e, Carries backend.workerMethods (g e) (f e)) :
    Carries backend.workerMethods (Worker.orOnFailure q g) (Worker.orOnFailure p f) := by
  apply carries_handle h
  intro e
  split
  · exact hf e
  · exact carries_raise e

/-- `_restore_provisioning`. -/
theorem carries_restoreProvisioning (priorError : Option String) :
    Carries backend.workerMethods (Worker.restoreProvisioning anyBackend priorError)
      (Worker.restoreProvisioning backend priorError) := by
  apply carries_bind
  · exact carries_orOnFailure (carries_call .activateProvisioning) fun _ => carries_ret _
  · intro (success, apError)
    dsimp only
    split
    · exact carries_locked _
    · exact carries_locked _

/-- What is made of the result of an attempt. -/
theorem carries_settleAttempt (result : Bool × Option String × Option String) (fallback : String) :
    Carries backend.workerMethods (Worker.settleAttempt anyBackend result fallback)
      (Worker.settleAttempt backend result fallback) := by
  obtain ⟨success, ssid, error⟩ := result
  unfold Worker.settleAttempt
  dsimp only
  split
  · exact carries_locked _
  · exact carries_bind (carries_locked _) fun _ => carries_restoreProvisioning _

/-- What `process_next` does with an item. -/
theorem carries_processItem (item : WorkItem) :
    Carries backend.workerMethods (Worker.processItem anyBackend item)
      (Worker.processItem backend item) := by
  cases item with
  | boot =>
    apply carries_bind (carries_call .hasSavedStation)
    intro saved
    split
    · exact carries_bind (carries_call .activateSavedStation) fun result =>
        carries_settleAttempt result _
    · exact carries_bind (carries_locked _) fun _ => carries_restoreProvisioning _
  | connect ssid password =>
    exact carries_bind (carries_call (.connectStation ssid password)) fun result =>
      carries_settleAttempt result _
  | provisioning => exact carries_restoreProvisioning none

/-- `_recover_unexpected_failure`. -/
theorem carries_recoverUnexpectedFailure :
    Carries backend.workerMethods (Worker.recoverUnexpectedFailure anyBackend)
      (Worker.recoverUnexpectedFailure backend) := by
  apply carries_bind (carries_locked _)
  intro restore
  split
  · exact carries_restoreProvisioning _
  · exact carries_ret ()

/-- **`process_next` over a backend carries out `process_next` over its calls.** -/
theorem carries_processNext :
    Carries backend.workerMethods (Worker.processNext anyBackend) (Worker.processNext backend) := by
  apply carries_workGet
  intro item
  cases item with
  | none => exact carries_ret false
  | some item =>
    refine carries_bind (carries_finallyDo (carries_orOnFailure
      (carries_withOperation (carries_processItem item)) ?_) carries_taskDone) fun _ =>
        carries_ret true
    intro e
    exact carries_bind carries_recoverUnexpectedFailure fun _ => carries_raise e

/-- A periodic check, and the restoration that may follow it. -/
theorem carries_check_restore (body : Locked Bool) (prior : String) :
    Carries backend.workerMethods
      ((Worker.locked body).bind fun restore =>
        if restore then Worker.restoreProvisioning anyBackend (some prior)
        else (Prog.ret () : Worker BackendCall BackendCall.Answer Unit))
      ((Worker.locked body).bind fun restore =>
        if restore then Worker.restoreProvisioning backend (some prior)
        else (Prog.ret () : Worker B Ans Unit)) := by
  apply carries_bind (carries_locked body)
  intro restore
  split
  · exact carries_restoreProvisioning _
  · exact carries_ret ()

/-- **`reconcile`** likewise. -/
theorem carries_reconcile :
    Carries backend.workerMethods (Worker.reconcile anyBackend) (Worker.reconcile backend) := by
  apply carries_bind (carries_locked _)
  intro snapshot
  apply carries_withOperation
  split
  · apply carries_bind
    · exact carries_orOnFailure (carries_call .activeStationSsid) fun _ => carries_ret _
    · exact fun ssid => carries_check_restore _ _
  · apply carries_bind
    · exact carries_orOnFailure (carries_call .provisioningReady) fun _ => carries_ret _
    · intro ready
      split
      · exact carries_ret ()
      · exact carries_check_restore _ _
  · exact carries_ret ()

end Programs

/-! ## What the methods ask

The commands of a method, read off the log of the worker. -/

/-- The operations on the backend in a journal of the worker. -/
def backendEvents (log : Journal (WorkerAns Ans)) : List (BackendEvent B Ans) :=
  log.filterMap fun
    | ⟨.backend b, r⟩ => some ⟨b, r⟩
    | _ => none

/-- An operation of the backend, as the worker asks it. -/
def workerEvent (e : BackendEvent B Ans) : (o : WorkerOp B) × WorkerAns Ans o :=
  ⟨.backend e.1, e.2⟩

@[simp] theorem backendEvents_nil : backendEvents ([] : Journal (WorkerAns Ans)) = [] := rfl

@[simp] theorem backendEvents_append (log late : Journal (WorkerAns Ans)) :
    backendEvents (log ++ late) = backendEvents log ++ backendEvents late :=
  List.filterMap_append

@[simp] theorem backendEvents_workerEvent (late : List (BackendEvent B Ans)) :
    backendEvents (late.map workerEvent) = late := by
  induction late with
  | nil => rfl
  | cons e late ih => exact congrArg (e :: ·) ih

/-- A run of a method within the worker is a run of the method. -/
theorem runs_ofBackend {α : Type} {p : Prog PyErr B Ans α} {out : Except PyErr α}
    {log log' : Journal (WorkerAns Ans)}
    (h : (Worker.ofBackend p).Runs (freely (WorkerAns Ans)) log out log') :
    ∃ late : Journal Ans, log' = log ++ late.map workerEvent ∧ p.Runs (freely Ans) [] out late := by
  -- on the program; every command of it is one event of the worker's log
  induction p generalizing log with
  | ret a =>
    cases h with
    | ret hl =>
      cases hl
      exact ⟨[], (List.append_nil _).symm, .ret rfl⟩
  | raise e =>
    cases h with
    | raise hl =>
      cases hl
      exact ⟨[], (List.append_nil _).symm, .raise rfl⟩
  | op b k ih =>
    cases h with
    | op hl hx rest =>
      cases hl
      cases hx
      obtain ⟨late, hlog, hrun⟩ := ih _ rest
      refine ⟨⟨b, _⟩ :: late, ?_, .op rfl rfl (runs_log_append hrun [⟨b, _⟩])⟩
      rw [hlog, List.append_assoc]
      rfl

/-- Stopped between two operations, a method has asked the backend only. -/
theorem reaches_ofBackend {α : Type} {p : Prog PyErr B Ans α} {q : Worker B Ans α}
    {log log' : Journal (WorkerAns Ans)}
    (h : (Worker.ofBackend p).Reaches (freely (WorkerAns Ans)) log q log') :
    ∃ late : Journal Ans, log' = log ++ late.map workerEvent := by
  -- on the program: a command of the backend adds one event, and nothing else runs
  induction p generalizing log with
  | ret a =>
    cases h with
    | refl hl =>
      cases hl
      exact ⟨[], (List.append_nil _).symm⟩
  | raise e =>
    cases h with
    | refl hl =>
      cases hl
      exact ⟨[], (List.append_nil _).symm⟩
  | op b k ih =>
    cases h with
    | refl hl =>
      cases hl
      exact ⟨[], (List.append_nil _).symm⟩
    | @op _ _ _ _ _ _ _ r hl hx rest =>
      cases hl
      cases hx
      obtain ⟨late, hlog⟩ := ih r rest
      refine ⟨⟨b, r⟩ :: late, ?_⟩
      rw [hlog, List.append_assoc]
      rfl

/-- The last of the operations on the backend is one. -/
theorem backend_of_events {late : Journal (WorkerAns Ans)} {events : Journal Ans} {o : WorkerOp B}
    {r : WorkerAns Ans o} (h : late ++ [⟨o, r⟩] = [] ++ events.map workerEvent) :
    ∃ b, o = .backend b := by
  have hmem : (⟨o, r⟩ : (o : WorkerOp B) × WorkerAns Ans o) ∈ events.map workerEvent := by
    rw [List.nil_append] at h
    rw [← h]
    exact List.mem_append_right _ (List.mem_singleton.mpr rfl)
  obtain ⟨e, -, he⟩ := List.mem_map.mp hmem
  exact ⟨e.1, (congrArg Sigma.fst he).symm⟩

def WorkerOp.Same : WorkerOp BackendCall → Prop
  | .backend _ => False
  | _ => True

/-- An operation of the worker is the same on both levels, or a call. -/
theorem WorkerOp.same_or (o : WorkerOp BackendCall) : o.Same ∨ ∃ c, o = .backend c := by
  cases o with
  | backend c => exact .inr ⟨c, rfl⟩
  | _ => exact .inl trivial

/-- Its run asks the backend nothing. -/
theorem backendEvents_same {backend : NetworkBackend B Ans} {o : WorkerOp BackendCall}
    (ho : o.Same) {out : Except PyErr o.Value} {late : Journal (WorkerAns Ans)}
    (h : (backend.workerMethod o).Runs (freely (WorkerAns Ans)) [] out late) :
    backendEvents late = [] := by
  have single : ∀ {b : WorkerOp B} {out : Except PyErr (WorkerAns Ans b)},
      (∀ x : WorkerAns Ans b, backendEvents [⟨b, x⟩] = []) →
      (Prog.op b .ret).Runs (freely (WorkerAns Ans)) [] out late → backendEvents late = [] := by
    intro b out hb hrun
    obtain ⟨x, -, rfl⟩ := runs_one hrun
    exact hb x
  cases o with
  | workGet => exact single (fun _ => rfl) h
  | taskDone => exact single (fun _ => rfl) h
  | acquireOperation => exact single (fun _ => rfl) h
  | releaseOperation => exact single (fun _ => rfl) h
  | locked body => exact single (fun _ => rfl) h
  | backend c => exact absurd ho id

/-- In the middle of its program an operation has asked the backend only. -/
theorem backend_of_underway {backend : NetworkBackend B Ans} {α : Type} {p : Worker B Ans α}
    {q : Worker BackendCall BackendCall.Answer α} {late : Journal (WorkerAns Ans)} {o : WorkerOp B}
    {r : WorkerAns Ans o} (h : Underway backend.workerMethods p q (late ++ [⟨o, r⟩])) :
    ∃ b, o = .backend b := by
  generalize hlog : late ++ [⟨o, r⟩] = log at h
  cases h with
  | ret a => exact absurd hlog (List.append_ne_nil_of_right_ne_nil late (List.cons_ne_nil _ _))
  | raise e => exact absurd hlog (List.append_ne_nil_of_right_ne_nil late (List.cons_ne_nil _ _))
  | @within o' _ _ _ _ _ hreach _ =>
    subst hlog
    obtain ⟨x, rest, hcons⟩ := List.exists_cons_of_ne_nil
      (List.append_ne_nil_of_right_ne_nil late (List.cons_ne_nil (⟨o, r⟩ : (o : WorkerOp B) × _) []))
    -- an operation of the worker itself has no inner step to be under way in
    have hsame : ¬o'.Same := by
      intro ho
      rw [hcons] at hreach
      cases o' with
      | backend c => exact ho
      | workGet => exact not_reaches_one hreach
      | taskDone => exact not_reaches_one hreach
      | acquireOperation => exact not_reaches_one hreach
      | releaseOperation => exact not_reaches_one hreach
      | locked body => exact not_reaches_one hreach
    obtain ⟨c, rfl⟩ := o'.same_or.resolve_left hsame
    obtain ⟨late', hlate'⟩ := reaches_ofBackend hreach
    exact backend_of_events hlate'

/-- What the worker's journals carry out, their operations on the backend do. -/
theorem carriedOut_backendEvents {backend : NetworkBackend B Ans} {log : Journal (WorkerAns Ans)}
    {log' : Journal (WorkerAns BackendCall.Answer)}
    (h : CarriedOut backend.workerMethods log log') :
    CarriedOut backend.methods (backendEvents log) (backendEvents log') := by
  induction h with
  | nil => exact .nil
  | @op log late log' o out r _ hrun hreport ih =>
    rw [backendEvents_append, backendEvents_append]
    rcases o.same_or with ho | ⟨c, rfl⟩
    · have hsame : backendEvents [(⟨o, r⟩ : (o : WorkerOp BackendCall) × _)] = [] := by
        cases o with
        | backend c => exact absurd ho id
        | _ => rfl
      rw [backendEvents_same ho hrun, hsame, List.append_nil, List.append_nil]
      exact ih
    · obtain ⟨late', rfl, hrun'⟩ := runs_ofBackend hrun
      rw [List.nil_append, backendEvents_workerEvent]
      exact ih.op hrun' hreport

/-- The answers of the worker's operations are those of the backend where they are its. -/
def AnsweredBy (ok : (b : B) → Ans b → Bool) : (o : WorkerOp B) → WorkerAns Ans o → Prop
  | .backend b, r => ok b r = true
  | _, _ => True

/-- As long as its operations are answered so, the backend raises only what the controller
handles. -/
def RaisesHandled (backend : NetworkBackend B Ans) (ok : (b : B) → Ans b → Bool) : Prop :=
  ∀ c late e, (backend.method c).Runs (freely Ans) [] (.error e) late →
    (∀ x ∈ late, ok x.1 x.2 = true) → e.handled = true

/-- Where the operations are answered as assumed, every method that has ended is reported. -/
theorem answering_methods {backend : NetworkBackend B Ans} {ok : (b : B) → Ans b → Bool}
    (h : RaisesHandled backend ok) : Answering backend.methods fun b r => ok b r = true := by
  intro c out late hrun hlate
  cases out with
  | ok a => exact ⟨_, rfl⟩
  | error e => exact ⟨_, dif_pos (h c late e hrun hlate)⟩

theorem answering_workerMethods {backend : NetworkBackend B Ans} {ok : (b : B) → Ans b → Bool}
    (h : RaisesHandled backend ok) : Answering backend.workerMethods (AnsweredBy ok) := by
  intro o out late hrun hlate
  -- every operation of the worker itself is one step with one answer
  have single : ∀ {b : WorkerOp B} {out : Except PyErr (WorkerAns Ans b)},
      (Prog.op b .ret).Runs (freely (WorkerAns Ans)) [] out late → ∃ x, out = .ok x :=
    fun hone => (runs_one hone).imp fun _ hx => hx.1
  cases o with
  | backend c =>
    -- a method of the backend answers because each of its commands does
    obtain ⟨late', rfl, hrun'⟩ := runs_ofBackend hrun
    refine answering_methods h c out late' hrun' ?_
    intro x hx
    exact hlate (workerEvent x) (List.mem_map_of_mem hx)
  | workGet =>
    obtain ⟨x, rfl⟩ := single hrun
    exact ⟨x, rfl⟩
  | taskDone =>
    obtain ⟨x, rfl⟩ := single hrun
    exact ⟨x, rfl⟩
  | acquireOperation =>
    obtain ⟨x, rfl⟩ := single hrun
    exact ⟨x, rfl⟩
  | releaseOperation =>
    obtain ⟨x, rfl⟩ := single hrun
    exact ⟨x, rfl⟩
  | locked body =>
    obtain ⟨x, rfl⟩ := single hrun
    exact ⟨x, rfl⟩

end Rave
