import RaveDeployment.Network.Runner
import RaveDeployment.Network.SecretOnce
import RaveDeployment.Network.Server

/-!
# The password does not interfere

Two daemons that start in the same state are given the same actions, but for the passwords in the
`CONNECT` requests, and their runners give the same answers. `observeStep_alike` says that no step
tells them apart, `observe_alike` that no run does; `serveConnection_alike` is the same for the
response on the wire. `password_noninterference` puts them together with what
`RaveDeployment.Network.SecretOnce` and `RaveDeployment.Network.Runner` say about the calls that carry
the password.
-/

namespace Rave

open Prog

/-- The same request, with another password. -/
inductive RequestAlike : Request → Request → Prop where
  | same (r : Request) : RequestAlike r r
  | connect (ssid : String) {p p' : String} (hp : PasswordAccepted p) (hp' : PasswordAccepted p') :
      RequestAlike (.connect ssid (some p)) (.connect ssid (some p'))

abbrev RunnerAnswers : Type := (call : RunnerCall) → RunnerAnswer call

def AnswersAlike (answers answers' : RunnerAnswers) : Prop :=
  ∀ b b', CallAlike b b' → answers b = answers' b'

/-- The same step of a client, with another password. -/
inductive ClientAlike : ClientAction RunnerCall RunnerAnswer → ClientAction RunnerCall RunnerAnswer →
    Prop where
  | request {r r' : Request} (h : RequestAlike r r') : ClientAlike (.request r) (.request r')
  | finishRequest : ClientAlike .finishRequest .finishRequest
  | scanCheck : ClientAlike .scanCheck .scanCheck
  | scanEnter : ClientAlike .scanEnter .scanEnter
  | scanStep {answers answers' : RunnerAnswers} (h : AnswersAlike answers answers') :
      ClientAlike (.scanStep answers) (.scanStep answers')
  | scanLeave : ClientAlike .scanLeave .scanLeave

/-- The same step, with another password. -/
inductive ActionAlike : Action RunnerCall RunnerAnswer → Action RunnerCall RunnerAnswer → Prop where
  | client {a a' : ClientAction RunnerCall RunnerAnswer} (h : ClientAlike a a') :
      ActionAlike (.client a) (.client a')
  | begin (call : WorkerCall) : ActionAlike (.begin call) (.begin call)
  | work {answers answers' : RunnerAnswers} (h : AnswersAlike answers answers') :
      ActionAlike (.work answers) (.work answers')
  | finishCall : ActionAlike .finishCall .finishCall
  | restart : ActionAlike .restart .restart

/-- Logged calls that differ at most in the password handed to the runner. -/
structure LoggedAlike (c c' : Thread × BackendEvent RunnerCall RunnerAnswer) : Prop where
  thread : c.1 = c'.1
  call : CallAlike c.2.1 c'.2.1
  answer : c.2.2 = c'.2.2

/-- The request whose thread holds `_lock`. -/
structure LockAlike (l l' : Request × NetworkMode) : Prop where
  request : RequestAlike l.1 l'.1
  next : l.2 = l'.2

/-- States that differ in passwords only. -/
structure SharedAlike (s s' : Shared RunnerCall RunnerAnswer) : Prop where
  controller : s.controller = s'.controller
  work : List.Forall₂ ItemAlike s.work.items s'.work.items
  lock : Option.Rel LockAlike s.lock s'.lock
  operation : s.operation = s'.operation
  scans : s.scans = s'.scans
  calls : List.Forall₂ LoggedAlike s.history.calls s'.history.calls

/-- Workers that are at the same point, with another password. -/
inductive WorkerAlike : WorkerState RunnerCall RunnerAnswer →
    WorkerState RunnerCall RunnerAnswer → Prop where
  | idle : WorkerAlike .idle .idle
  | processing {start start' : Shared RunnerCall RunnerAnswer}
      {rest rest' : Worker RunnerCall RunnerAnswer Bool} (h : Lockstep WorkerPairing rest rest') :
      WorkerAlike (.processing start rest) (.processing start' rest')
  | reconciling {rest rest' : Worker RunnerCall RunnerAnswer Unit}
      (h : Lockstep WorkerPairing rest rest') :
      WorkerAlike (.reconciling rest) (.reconciling rest')

/-- Daemons that differ in passwords only. -/
structure StateAlike (d d' : DaemonState RunnerCall RunnerAnswer) : Prop where
  shared : SharedAlike d.shared d'.shared
  worker : WorkerAlike d.worker d'.worker

/-! ## The clients

Two daemons whose clients differ in a password only. Each step of one is matched by a step of the
other, with the same answer to the client. -/

variable {s s' : Shared RunnerCall RunnerAnswer}

/-- What a client sees, and the state it leaves. -/
structure ReplyAlike (x x' : Reply × Shared RunnerCall RunnerAnswer) : Prop where
  reply : x.1 = x'.1
  shared : SharedAlike x.2 x'.2

theorem RequestAlike.item {r r' : Request} (h : RequestAlike r r') : ItemAlike r.item r'.item := by
  cases h with
  | same => exact .same _
  | connect ssid hp hp' => exact .connect ssid hp hp'

theorem RequestAlike.event {r r' : Request} (h : RequestAlike r r') : r.event = r'.event := by
  cases h <;> rfl

theorem RequestAlike.commit {r r' : Request} (h : RequestAlike r r') (next : NetworkMode)
    (self : NetworkController) : r.commit next self = r'.commit next self := by
  cases h <;> rfl

/-- One asks for the access point exactly when the other does. -/
theorem RequestAlike.provisioning {r r' : Request} (h : RequestAlike r r') :
    r = .provisioning ↔ r' = .provisioning := by
  cases h <;> simp

/-- A request is put into both queues or into none. -/
theorem enqueueTransition_alike {r r' : Request} (h : SharedAlike s s') (hr : RequestAlike r r') :
    ReplyAlike (s.enqueueTransition r) (s'.enqueueTransition r') := by
  unfold Shared.enqueueTransition
  rw [hr.event, h.controller]
  split
  · exact ⟨rfl, h⟩
  · have hput := BoundedQueue.put?_rel h.work hr.item
    rcases optionRel_cases hput with ⟨hq, hq'⟩ | ⟨work, work', hq, hq', hwork⟩
    · rw [hq, hq']
      exact ⟨rfl, h⟩
    · rw [hq, hq']
      exact ⟨rfl, rfl, hwork, .some ⟨hr, rfl⟩, h.operation, h.scans, h.calls⟩

/-- A request is accepted by both or refused by both, with the same answer. -/
theorem request_alike {r r' : Request} (h : SharedAlike s s') (hr : RequestAlike r r') :
    ReplyAlike (s.request r) (s'.request r') := by
  unfold Shared.request
  by_cases hap : r = .provisioning ∧ s.controller.mode = .provisioningAp
  · have hap' : r' = .provisioning ∧ s'.controller.mode = .provisioningAp :=
      ⟨hr.provisioning.mp hap.1, h.controller ▸ hap.2⟩
    rw [if_pos hap, if_pos hap', h.controller]
    exact ⟨rfl, h⟩
  · have hap' : ¬(r' = .provisioning ∧ s'.controller.mode = .provisioningAp) := fun h' =>
      hap ⟨hr.provisioning.mpr h'.1, h.controller ▸ h'.2⟩
    rw [if_neg hap, if_neg hap']
    exact enqueueTransition_alike h hr

/-- A call is logged with its answer. -/
theorem SharedAlike.record (h : SharedAlike s s') (thread : Thread) {b b' : RunnerCall}
    {answers answers' : RunnerAnswers} (hb : CallAlike b b')
    (hanswers : AnswersAlike answers answers') :
    SharedAlike (s.record thread ⟨b, answers b⟩) (s'.record thread ⟨b', answers' b'⟩) :=
  ⟨h.controller, h.work, h.lock, h.operation, h.scans,
    List.rel_append h.calls (.cons ⟨rfl, hb, hanswers b b' hb⟩ .nil)⟩

/-- **No step of a client tells the two daemons apart.** -/
theorem clientStep_alike [PyUnicode] {a a' : ClientAction RunnerCall RunnerAnswer}
    (h : SharedAlike s s')
    (ha : ClientAlike a a') : Option.Rel ReplyAlike (clientStep networkManagerBackend a s)
      (clientStep networkManagerBackend a' s') := by
  obtain ⟨controller, work, lock, operation, scans, history⟩ := s
  obtain ⟨controller', work', lock', operation', scans', history'⟩ := s'
  obtain ⟨rfl, hwork, hlock, rfl, rfl, hcalls⟩ := h
  cases ha with
  | request hr =>
    cases hlock with
    | none => exact .some (request_alike ⟨rfl, hwork, .none, rfl, rfl, hcalls⟩ hr)
    | some hl => exact .none
  | finishRequest =>
    cases hlock with
    | none => exact .none
    | @some l l' hl =>
      obtain ⟨r, next⟩ := l
      obtain ⟨r', next'⟩ := l'
      obtain ⟨hr, rfl⟩ := hl
      have hcommit := hr.commit next controller
      exact .some ⟨by simp only [hcommit], hcommit, hwork, .none, rfl, rfl, hcalls⟩
  | scanCheck =>
    cases hlock with
    | none =>
      simp only [clientStep]
      split
      · exact .none
      split
      · exact .some ⟨rfl, rfl, hwork, .none, rfl, rfl, hcalls⟩
      · exact .some ⟨rfl, rfl, hwork, .none, rfl, rfl, hcalls⟩
    | some hl => exact .none
  | scanEnter =>
    cases scans with
    | zero => exact .none
    | succ waiting =>
      cases operation with
      | none => exact .some ⟨rfl, rfl, hwork, hlock, rfl, rfl, hcalls⟩
      | some owner => exact .none
  | @scanStep answers answers' hanswers =>
    cases operation with
    | none => exact .none
    | some owner =>
      cases owner with
      | worker => exact .none
      | client rest =>
        cases rest with
        | ret networks => exact .none
        | raise e => exact .none
        | op b k =>
          -- a scan carries no password, so both ask the same and are answered the same
          have hanswer : answers b = answers' b := hanswers b b (.same b)
          have hlog := List.rel_append hcalls
            (.cons ⟨rfl, .same b, hanswer⟩ .nil : List.Forall₂ LoggedAlike
              [(.client, ⟨b, answers b⟩)] [(.client, ⟨b, answers' b⟩)])
          refine .some ⟨rfl, rfl, hwork, hlock, ?_, rfl, hlog⟩
          show some (Owner.client (k (answers b))) = some (Owner.client (k (answers' b)))
          rw [hanswer]
  | scanLeave =>
    cases operation with
    | none => exact .none
    | some owner =>
      cases owner with
      | worker => exact .none
      | client rest =>
        cases rest with
        | ret networks => exact .some ⟨rfl, rfl, hwork, hlock, rfl, rfl, hcalls⟩
        | raise e => exact .some ⟨rfl, rfl, hwork, hlock, rfl, rfl, hcalls⟩
        | op b k => exact .none

/-! ## The worker

The worker's program depends on the password in one place, the secret that is handed to the runner.
-/

/-- The operations of the worker are answered alike, and leave states alike behind. -/
theorem workerExec_alike {o o' : WorkerOp RunnerCall}
    {A : WorkerAns RunnerAnswer o → WorkerAns RunnerAnswer o' → Prop}
    {answers answers' : RunnerAnswers} (h : SharedAlike s s') (ho : WorkerPairing o o' A)
    (hanswers : AnswersAlike answers answers') :
    Option.Rel (fun x x' => A x.1 x'.1 ∧ SharedAlike x.2 x'.2) (workerExec answers o s)
      (workerExec answers' o' s') := by
  obtain ⟨controller, work, lock, operation, scans, history⟩ := s
  obtain ⟨controller', work', lock', operation', scans', history'⟩ := s'
  cases ho with
  -- the items alone may differ in the password
  | get =>
    have hget := BoundedQueue.get?_rel h.work
    obtain ⟨rfl, hwork, hlock, rfl, rfl, hcalls⟩ := h
    simp only [workerExec]
    rcases optionRel_cases hget with ⟨hq, hq'⟩ | ⟨x, x', hq, hq', hitem, hrest⟩
    · rw [hq, hq']
      exact .some ⟨.none, rfl, hwork, hlock, rfl, rfl, hcalls⟩
    · rw [hq, hq']
      exact .some ⟨.some hitem, rfl, hrest, hlock, rfl, rfl, hcalls⟩
  | same o ho =>
    cases o with
    | workGet => exact absurd rfl ho
    | taskDone => exact .some ⟨rfl, h⟩
    | acquireOperation =>
      obtain ⟨rfl, hwork, hlock, rfl, rfl, hcalls⟩ := h
      cases operation with
      | none => exact .some ⟨rfl, rfl, hwork, hlock, rfl, rfl, hcalls⟩
      | some owner => exact .none
    | releaseOperation =>
      exact .some ⟨rfl, h.controller, h.work, h.lock, rfl, h.scans, h.calls⟩
    | locked body =>
      obtain ⟨rfl, hwork, hlock, rfl, rfl, hcalls⟩ := h
      cases hlock with
      | none => exact .some ⟨rfl, rfl, hwork, .none, rfl, rfl, hcalls⟩
      | some hl => exact .none
    | backend b => exact .some ⟨hanswers b b (.same b), h.record .worker (.same b) hanswers⟩
  -- only this one is answered by the programs that the worker runs
  | call hb => exact .some ⟨hanswers _ _ hb, h.record .worker hb hanswers⟩

/-- One step of the worker, in both. -/
theorem workStep_alike {α : Type} {rest rest' : Worker RunnerCall RunnerAnswer α}
    {answers answers' : RunnerAnswers} (h : SharedAlike s s')
    (hrest : Lockstep WorkerPairing rest rest') (hanswers : AnswersAlike answers answers') :
    Option.Rel (fun x x' => Lockstep WorkerPairing x.1 x'.1 ∧ SharedAlike x.2 x'.2)
      (workStep answers rest s) (workStep answers' rest' s') := by
  cases hrest with
  | ret a => exact .none
  | raise e => exact .none
  | @op o o' A k k' ho hk =>
    exact optionRel_map (workerExec_alike h ho hanswers) fun x x' hx => ⟨hk _ _ hx.1, hx.2⟩

theorem finished_alike {α : Type} {rest rest' : Worker RunnerCall RunnerAnswer α}
    (h : Lockstep WorkerPairing rest rest') : finished rest = finished rest' := by
  cases h <;> rfl

/-- The fields as the next holder of `_lock` finds them. -/
theorem SharedAlike.view (h : SharedAlike s s') : s.view = s'.view := by
  obtain ⟨controller, work, lock, operation, scans, history⟩ := s
  obtain ⟨controller', work', lock', operation', scans', history'⟩ := s'
  obtain ⟨rfl, -, hlock, rfl, rfl, -⟩ := h
  cases hlock with
  | none => rfl
  | @some l l' hl =>
    obtain ⟨r, next⟩ := l
    obtain ⟨r', next'⟩ := l'
    obtain ⟨hr, rfl⟩ := hl
    exact hr.commit next controller

/-- A client sees the same snapshot. -/
theorem SharedAlike.snapshot? (h : SharedAlike s s') : s.snapshot? = s'.snapshot? := by
  have hlock : s.lock.isSome = s'.lock.isSome := by
    rcases optionRel_cases h.lock with ⟨hl, hl'⟩ | ⟨l, l', hl, hl', -⟩
    · rw [hl, hl']
    · rw [hl, hl']
      rfl
  rw [Shared.snapshot?, Shared.snapshot?, hlock, h.controller]

/-! ## Runs

The steps put together, over both runs. -/

variable [PyUnicode]

def observeStep (a : Action RunnerCall RunnerAnswer) (d : DaemonState RunnerCall RunnerAnswer) :
    Option (Option Reply × DaemonState RunnerCall RunnerAnswer) :=
  match a with
  | .client a =>
    (clientStep networkManagerBackend a d.shared).map fun (reply, t) =>
      (some reply, { d with shared := t })
  | a => (daemonStep networkManagerBackend a d).map fun d' => (none, d')

/-- What the clients see of a list of actions, and the state it ends in. -/
def observe : List (Action RunnerCall RunnerAnswer) → DaemonState RunnerCall RunnerAnswer →
    Option (List (Option Reply) × DaemonState RunnerCall RunnerAnswer)
  | [], d => some ([], d)
  | a :: as, d => do
    let (reply, d) ← observeStep a d
    let (replies, d) ← observe as d
    return (reply :: replies, d)

/-- The steps are the daemon's. -/
theorem observeStep_daemonStep (a : Action RunnerCall RunnerAnswer)
    (d : DaemonState RunnerCall RunnerAnswer) :
    (observeStep a d).map Prod.snd = daemonStep networkManagerBackend a d := by
  cases a with
  | client a =>
    simp only [observeStep, daemonStep, Option.map_map]
    rfl
  | _ => simp [observeStep]

variable {d d' : DaemonState RunnerCall RunnerAnswer}

/-- **No step tells the two daemons apart**: it is possible in both or in neither, the client sees
the same, and the states are alike again. -/
theorem observeStep_alike {a a' : Action RunnerCall RunnerAnswer} (h : StateAlike d d')
    (ha : ActionAlike a a') : Option.Rel (fun x x' => x.1 = x'.1 ∧ StateAlike x.2 x'.2)
      (observeStep a d) (observeStep a' d') := by
  obtain ⟨s, worker⟩ := d
  obtain ⟨s', worker'⟩ := d'
  obtain ⟨hshared, hworker⟩ := h
  cases ha with
  | client ha =>
    apply optionRel_map (clientStep_alike hshared ha)
    rintro ⟨reply, t⟩ ⟨reply', t'⟩ ⟨hreply, ht⟩
    exact ⟨congrArg some hreply, ht, hworker⟩
  | begin call =>
    cases hworker with
    | idle =>
      cases call with
      | processNext => exact .some ⟨rfl, hshared, .processing lockstep_processNext⟩
      | reconcile => exact .some ⟨rfl, hshared, .reconciling lockstep_reconcile⟩
    | processing h => cases call <;> exact .none
    | reconciling h => cases call <;> exact .none
  | work hanswers =>
    cases hworker with
    | idle => exact .none
    | processing hrest =>
      apply optionRel_map (optionRel_map (workStep_alike hshared hrest hanswers) ?_)
      · exact fun x x' hx => ⟨rfl, hx⟩
      · exact fun x x' hx => ⟨hx.2, .processing hx.1⟩
    | reconciling hrest =>
      apply optionRel_map (optionRel_map (workStep_alike hshared hrest hanswers) ?_)
      · exact fun x x' hx => ⟨rfl, hx⟩
      · exact fun x x' hx => ⟨hx.2, .reconciling hx.1⟩
  | finishCall =>
    cases hworker with
    | idle => exact .none
    | processing hrest =>
      -- programs in step have both returned or both not
      have hfinished := finished_alike hrest
      simp only [observeStep, daemonStep, hfinished]
      split
      · exact .some ⟨rfl, hshared, .idle⟩
      · exact .none
    | reconciling hrest =>
      have hfinished := finished_alike hrest
      simp only [observeStep, daemonStep, hfinished]
      split
      · exact .some ⟨rfl, hshared, .idle⟩
      · exact .none
  | restart => exact .some ⟨rfl, ⟨rfl, .nil, .none, rfl, rfl, .nil⟩, .idle⟩

/-- **No run tells the two daemons apart.** -/
theorem observe_alike {as as' : List (Action RunnerCall RunnerAnswer)} (h : StateAlike d d')
    (has : List.Forall₂ ActionAlike as as') :
    Option.Rel (fun x x' => x.1 = x'.1 ∧ StateAlike x.2 x'.2) (observe as d) (observe as' d') := by
  induction has generalizing d d' with
  | nil => exact .some ⟨rfl, h⟩
  | cons ha _ ih =>
    apply optionRel_bind (observeStep_alike h ha)
    rintro ⟨reply, e⟩ ⟨reply', e'⟩ ⟨rfl, he⟩
    apply optionRel_bind (ih he)
    rintro ⟨replies, f⟩ ⟨replies', f'⟩ ⟨rfl, hf⟩
    exact .some ⟨rfl, hf⟩

/-! ## Requests on the wire

The password comes out of a JSON document, of which everything else is the same. -/

/-- The payload of a request, with its password somewhere among the other fields. -/
def passwordPayload (before after : List (PyStr × Json)) (password : String) : Json :=
  .obj (before ++ (.text "password", .str password) :: after)

/-- Two controllers that deal with alike requests the same way. -/
structure ControllersAlike (call call' : ControllerCall) : Prop where
  same : ∀ r, call r = call' r
  connect : ∀ ssid p p', PasswordAccepted p → PasswordAccepted p' →
    (call (.connect ssid (some p)) : Except PyErr NetworkSnapshot) =
      call' (.connect ssid (some p'))

section

omit [PyUnicode]

variable (before after : List (PyStr × Json)) {p p' : String}

/-- A field is looked up from the left. -/
theorem lookupField_append (fs gs : List (PyStr × Json)) (key : String) :
    lookupField (fs ++ gs) key = (lookupField fs key).or (lookupField gs key) := by
  unfold lookupField
  rw [List.find?_append]
  cases fs.find? fun f => f.1 = (key : PyStr) <;> rfl

/-- Every other field is the same. -/
theorem lookupField_other {key : String} (hkey : key ≠ "password") :
    lookupField (before ++ (.text "password", .str p) :: after) key =
      lookupField (before ++ (.text "password", .str p') :: after) key := by
  have hcons : ∀ p : String, lookupField ((.text "password", .str p) :: after) key =
      lookupField after key := by
    intro p
    simp [lookupField, Ne.symm hkey]
  rw [lookupField_append, lookupField_append, hcons, hcons]

/-- The password is an earlier field of that name, or the one in question. -/
theorem lookupField_password :
    lookupField (before ++ (.text "password", .str p) :: after) "password" =
      (lookupField before "password").or (some (.str p)) := by
  rw [lookupField_append]
  simp [lookupField]

/-- The names of the fields do not depend on the password. -/
theorem hasFields_alike (expected : List String) :
    hasFields (before ++ (.text "password", .str p) :: after) expected =
      hasFields (before ++ (.text "password", .str p') :: after) expected := by
  simp [hasFields]

/-- The credentials are refused alike, accepted equal, or accepted with the one password and the
other. -/
theorem parseCredentials_alike (hp : PasswordAccepted p) (hp' : PasswordAccepted p') :
    parseCredentials (before ++ (.text "password", .str p) :: after) =
      parseCredentials (before ++ (.text "password", .str p') :: after) ∨
    ∃ ssid, parseCredentials (before ++ (.text "password", .str p) :: after) =
        some (.connect ssid (some p)) ∧
      parseCredentials (before ++ (.text "password", .str p') :: after) =
        some (.connect ssid (some p')) := by
  have hp : validatePassword p = .ok p := hp
  have hp' : validatePassword p' = .ok p' := hp'
  -- neither the SSID nor an earlier password is the field in question
  have hssid : lookupField (before ++ (.text "password", .str p) :: after) "ssid" =
      lookupField (before ++ (.text "password", .str p') :: after) "ssid" :=
        lookupField_other before after (by decide)
  unfold parseCredentials
  rw [hssid, lookupField_password, lookupField_password]
  cases lookupField before "password" with
  -- an earlier password hides this one
  | some earlier => exact .inl rfl
  | none =>
    cases lookupField (before ++ (.text "password", .str p') :: after) "ssid" with
    | none => exact .inl rfl
    | some v =>
      cases v with
      | str s =>
        cases s with
        | surrogates _ _ => exact .inl rfl
        | text ssid =>
          cases hv : validateSsid ssid with
          | error e => exact .inl (by simp [hv, Except.toOption])
          -- both passwords are valid, so both requests are for that SSID
          | ok ssid => exact .inr ⟨ssid, by simp [hv, hp, Except.toOption],
              by simp [hv, hp', Except.toOption]⟩
      | _ => exact .inl rfl

/-- Two documents that differ in the password are parsed to the same, or to the same connection with
their passwords. -/
theorem parseRequest_alike (hp : PasswordAccepted p) (hp' : PasswordAccepted p') :
    parseRequest (passwordPayload before after p) = parseRequest (passwordPayload before after p') ∨
    ∃ ssid, parseRequest (passwordPayload before after p) = .ok (.connect ssid (some p)) ∧
      parseRequest (passwordPayload before after p') = .ok (.connect ssid (some p')) := by
  -- no field but the password differs, so that every other check reads the same
  have hversion : lookupField (before ++ (.text "password", .str p) :: after) "api_version" =
      lookupField (before ++ (.text "password", .str p') :: after) "api_version" :=
    lookupField_other before after (by decide)
  have haction : lookupField (before ++ (.text "password", .str p) :: after) "action" =
      lookupField (before ++ (.text "password", .str p') :: after) "action" :=
    lookupField_other before after (by decide)
  have hfields : ∀ expected, hasFields (before ++ (.text "password", .str p) :: after) expected =
      hasFields (before ++ (.text "password", .str p') :: after) expected := hasFields_alike before after
  unfold parseRequest passwordPayload
  dsimp only
  rw [hversion, haction]
  split
  · next version _ =>
    split
    · exact .inl rfl
    split
    · exact .inl rfl
    · next action _ =>
      rw [hfields]
      split
      · exact .inl rfl
      -- the password is read by `connect` alone
      cases action with
      | connect =>
        dsimp only
        rcases parseCredentials_alike before after hp hp' with h | ⟨ssid, h, h'⟩
        · rw [h]
          exact .inl rfl
        · rw [h, h']
          exact .inr ⟨ssid, rfl, rfl⟩
      | _ => exact .inl rfl
  · exact .inl rfl

/-- **The response does not depend on the password**, whether the request is refused, fails or is
taken. -/
theorem serveConnection_alike (peerUid allowedUid : Nat) {call call' : ControllerCall}
    (hp : PasswordAccepted p) (hp' : PasswordAccepted p') (hcall : ControllersAlike call call') :
    serveConnection peerUid allowedUid (.ok (passwordPayload before after p)) call =
      serveConnection peerUid allowedUid (.ok (passwordPayload before after p')) call' := by
  by_cases huid : peerUid = allowedUid
  · subst huid
    rcases parseRequest_alike before after hp hp' with h | ⟨ssid, h, h'⟩
    -- the two payloads parse alike: the same request or the same refusal
    · have hsame : call = call' := funext hcall.same
      cases hparse : parseRequest (passwordPayload before after p') with
      | ok r =>
        rw [serveConnection_parsed hparse, serveConnection_parsed (h.trans hparse), hsame]
      | error e =>
        rw [serveConnection_refused hparse, serveConnection_refused (h.trans hparse)]
    -- both are connections, and the controllers answer them alike
    · rw [serveConnection_parsed h, serveConnection_parsed h']
      have hconnect := hcall.connect ssid p p' hp hp'
      cases hresult : call' (.connect ssid (some p')) with
      | ok snapshot =>
        have hcalled : call (.connect ssid (some p)) = .ok snapshot := hconnect.trans hresult
        rw [hcalled]
        rfl
      | error e =>
        have hcalled : call (.connect ssid (some p)) = .error e := hconnect.trans hresult
        rw [hcalled]
  · rw [serveConnection_unauthorized huid, serveConnection_unauthorized huid]

end

/-! ## The whole

What is visible of the two runs: the answers, the logged commands without their secrets, and the
snapshots. -/

/-- What the operating system sees of a logged call: its thread, the arguments of its command, its
timeout, whether a password goes with it, and its answer. -/
def visible (c : Thread × BackendEvent RunnerCall RunnerAnswer) :
    Thread × List String × Nat × Bool × Except PyErr CommandResult :=
  (c.1, c.2.1.command.argv, c.2.1.command.timeout, c.2.1.secret?.isSome, c.2.2)

omit [PyUnicode] in
/-- Commands that are alike look the same. -/
theorem visible_alike {c c' : Thread × BackendEvent RunnerCall RunnerAnswer}
    (h : LoggedAlike c c') : visible c = visible c' := by
  obtain ⟨thread, b, r⟩ := c
  obtain ⟨thread', b', r'⟩ := c'
  obtain ⟨hthread, hcall, hanswer⟩ := h
  have hcommand : b.command = b'.command := by cases hcall <;> rfl
  have hsecret : b.secret?.isSome = b'.secret?.isSome := by cases hcall <;> rfl
  simp only at hthread hanswer hcommand hsecret
  simp only [visible, hthread, hcommand, hsecret, hanswer]

omit [PyUnicode] in
theorem map_visible_alike {cs cs' : List (Thread × BackendEvent RunnerCall RunnerAnswer)}
    (h : List.Forall₂ LoggedAlike cs cs') : cs.map visible = cs'.map visible := by
  induction h with
  | nil => rfl
  | cons hc _ ih => rw [List.map_cons, List.map_cons, visible_alike hc, ih]

def DaemonState.atRest (controller : NetworkController) (work : BoundedQueue WorkItem 1) :
    DaemonState RunnerCall RunnerAnswer where
  shared :=
    { controller := controller
      work := work
      lock := none
      operation := none
      scans := 0
      history := ⟨[], [], []⟩ }
  worker := .idle

omit [PyUnicode] in
theorem forall₂_itemAlike (items : List WorkItem) : List.Forall₂ ItemAlike items items := by
  induction items with
  | nil => exact .nil
  | cons item items ih => exact .cons (.same item) ih

/-- Over a run, no password is handed over twice. -/
theorem spentOnce_observe {as : List (Action RunnerCall RunnerAnswer)} {replies : List (Option Reply)}
    (h : SpentOnce d) (hs : observe as d = some (replies, d')) : SpentOnce d' := by
  induction as generalizing d replies with
  | nil =>
    cases hs
    exact h
  | cons a as ih =>
    obtain ⟨⟨reply, e⟩, he, hs⟩ := Option.bind_eq_some_iff.mp hs
    obtain ⟨⟨replies', e'⟩, he', hs⟩ := Option.bind_eq_some_iff.mp hs
    cases hs
    have hstep : daemonStep networkManagerBackend a d = some e := by
      rw [← observeStep_daemonStep, he]
      rfl
    exact ih (spentOnce_step h hstep) he'

/-- Every command returns 0: the network is listed, the new profile is, and it takes its name. -/
def caveAnswer : Command → CommandResult
  | .wifiList => ⟨0, "cave:50:WPA2:"⟩
  | .listProfiles => ⟨0, "00000000-0000-0000-0000-000000000001:RAVE-Management-Pending\n"⟩
  | .getProperty _ .connectionId => ⟨0, "RAVE-Management\n"⟩
  | .getProperty _ .connectionAutoconnect => ⟨0, "no\n"⟩
  | _ => ⟨0, ""⟩

/-- A `CONNECT`, from the request to the end of the call that takes it. -/
def connecting (password : String) : List (Action RunnerCall RunnerAnswer) :=
  [.client (.request (.connect "cave" (some password))), .client .finishRequest,
    .begin .processNext] ++
  List.replicate 17 (.work fun b => .ok (caveAnswer b.command)) ++ [.finishCall]

omit [PyUnicode] in
/-- The two runs differ in the password. -/
theorem connecting_alike {p p' : String} (hp : PasswordAccepted p) (hp' : PasswordAccepted p') :
    List.Forall₂ ActionAlike (connecting p) (connecting p') := by
  have hwork : ActionAlike (.work fun b => .ok (caveAnswer b.command))
      (.work fun b => .ok (caveAnswer b.command)) := by
    refine .work fun b b' h => ?_
    cases h <;> rfl
  have hworks : ∀ n, List.Forall₂ ActionAlike
      (List.replicate n (.work fun b => .ok (caveAnswer b.command)) ++ [.finishCall])
      (List.replicate n (.work fun b => .ok (caveAnswer b.command)) ++ [.finishCall]) := by
    intro n
    induction n with
    | zero => exact .cons .finishCall .nil
    | succ n ih => exact .cons hwork ih
  exact .cons (.client (.request (.connect "cave" hp hp'))) (.cons (.client .finishRequest)
    (.cons (.begin .processNext) (hworks 17)))

def takingAll : ControllerCall
  | .scan => .ok []
  | .status | .connect _ _ | .provisioning => .ok ⟨.stationConnecting, false, none, none⟩

omit [PyUnicode] in
/-- A controller that takes every request does so alike. -/
theorem controllersAlike_takingAll : ControllersAlike takingAll takingAll :=
  ⟨fun _ => rfl, fun _ _ _ _ _ => rfl⟩

end Rave
