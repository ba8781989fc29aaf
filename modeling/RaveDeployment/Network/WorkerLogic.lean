import Mathlib.Logic.Relation
import RaveDeployment.Network.Daemon

/-!
# Reasoning about the worker under interference

The worker's programs are verified with `Prog.wp` in an environment whose `later` is any number
of client steps: between two of its operations the clients may do whatever the discipline of the
theorem at hand lets them do.

* `clientStep_move` says once what a client step can do: nothing that matters (`ClientMove.quiet`)
  or put an accepted item (`ClientMove.accept`). Stability of an assertion is read off it.
* `run_safe` transfers a verified `process_next` and `reconcile` to every run of the daemon.
-/

namespace Rave

variable {B : Type} {Ans : B → Type}

/-! ## What a client step can do

Said once, with its guards; every invariant of the shared state is derived from it. -/

/-- The two kinds of client step, seen from the worker. -/
inductive ClientMove (a : ClientAction B Ans) (s t : Shared B Ans) : Prop where
  | quiet (hview : t.view = s.view) (hwork : t.work = s.work)
      (hlock : t.lock.isSome → s.lock.isSome)
      (hacc : t.history.accepted = s.history.accepted)
      (htaken : t.history.taken = s.history.taken) (hcalls : t.workerCalls = s.workerCalls)
  | accept (r : Request) (ha : a = .request r) (hlock : s.lock = none)
      (hnext : transitions s.view.mode r.event = some t.view.mode)
      (hview : t.view = r.commit t.view.mode s.view) (hwork : s.work.items = [])
      (hwork' : t.work.items = [r.item])
      (hacc : t.history.accepted = s.history.accepted ++ [r.item])
      (htaken : t.history.taken = s.history.taken) (hcalls : t.workerCalls = s.workerCalls)

namespace Shared

/-- While nobody is in the middle of a request, the controller is what is seen. -/
theorem view_of_lock {s : Shared B Ans} (h : s.lock = none) : s.view = s.controller := by
  simp [view, h]

theorem workerCalls_record_client (s : Shared B Ans) (e : BackendEvent B Ans) :
    (s.record .client e).workerCalls = s.workerCalls := by
  simp [record, workerCalls, workerOf, List.filterMap_append]

theorem workerCalls_record_worker (s : Shared B Ans) (e : BackendEvent B Ans) :
    (s.record .worker e).workerCalls = s.workerCalls ++ [e] := by
  simp [record, workerCalls, workerOf, List.filterMap_append]

end Shared

/-- `transition` returns what the table says. -/
theorem transition_eq_ok {m next : NetworkMode} {e : NetworkEvent} :
    transition m e = .ok next ↔ transitions m e = some next := by
  unfold transition
  cases h : transitions m e <;> simp

/-- What a request does: it is refused or answered without a trace, or its item is put. -/
theorem request_cases {r : Request} {s t : Shared B Ans} {reply : Reply}
    (h : s.request r = (reply, t)) :
    (t = s ∧ reply ≠ .pending) ∨
    (reply = .pending ∧ ∃ next work, transitions s.controller.mode r.event = some next ∧
      s.work.put? r.item = some work ∧
      t = { s with
        work := work
        lock := some (r, next)
        history.accepted := s.history.accepted ++ [r.item] }) := by
  unfold Shared.request at h
  split at h
  · cases h
    exact .inl ⟨rfl, by simp⟩
  unfold Shared.enqueueTransition at h
  split at h
  · cases h
    exact .inl ⟨rfl, by simp⟩
  · next next hnext =>
    split at h
    · cases h
      exact .inl ⟨rfl, by simp⟩
    -- the one way that changes the state
    · next work hput =>
      cases h
      exact .inr ⟨rfl, next, work, transition_eq_ok.mp hnext, hput, rfl⟩

/-- **What a client step can do**, once for all theorems. -/
theorem clientStep_move {backend : NetworkBackend B Ans} {a : ClientAction B Ans}
    {s t : Shared B Ans} {reply : Reply} (h : clientStep backend a s = some (reply, t)) :
    ClientMove a s t := by
  cases a with
  | request r =>
    simp only [clientStep] at h
    split at h
    · cases h
    · next hlock =>
      have hlock : s.lock = none := by simpa using hlock
      rcases request_cases (Option.some.inj h) with ⟨rfl, -⟩ | ⟨-, next, work, hnext, hput, rfl⟩
      · exact .quiet rfl rfl id rfl rfl rfl
      · -- the queue has one place, so it was empty before and holds this item alone now
        obtain ⟨hnil, hitem⟩ := BoundedQueue.items_eq_nil_of_put? hput
        refine .accept r rfl hlock ?_ ?_ hnil hitem rfl rfl rfl
        · simpa [Shared.view, hlock] using hnext
        · simp [Shared.view, hlock]
  | finishRequest =>
    simp only [clientStep] at h
    split at h
    · cases h
    · next r next hlock =>
      cases h
      exact .quiet (by simp [Shared.view, hlock]) rfl (by simp) rfl rfl rfl
  -- the steps of a scan touch neither the queue nor the controller
  | scanCheck =>
    simp only [clientStep] at h
    split at h
    · cases h
    · split at h
      all_goals
        cases h
        exact .quiet rfl rfl id rfl rfl rfl
  | scanEnter =>
    simp only [clientStep] at h
    split at h
    · cases h
      exact .quiet rfl rfl id rfl rfl rfl
    · cases h
  | scanStep answers =>
    simp only [clientStep] at h
    split at h
    · cases h
      exact .quiet rfl rfl id rfl rfl (Shared.workerCalls_record_client s _)
    · cases h
  | scanLeave =>
    simp only [clientStep] at h
    split at h
    · cases h
      exact .quiet rfl rfl id rfl rfl rfl
    · cases h
      exact .quiet rfl rfl id rfl rfl rfl
    · cases h

/-! ## What a step of the daemon can do

The same for the steps of all threads. -/

def WorkerState.next : WorkerState B Ans → Option (WorkerOp B)
  | .processing _ (.op o _) => some o
  | .reconciling (.op o _) => some o
  | _ => none

/-- A step of the daemon, seen from the shared state. -/
inductive DaemonMove (backend : NetworkBackend B Ans) (d d' : DaemonState B Ans) : Prop where
  | client {a : ClientAction B Ans} {reply : Reply}
      (h : clientStep backend a d.shared = some (reply, d'.shared))
  | worker {o : WorkerOp B} {answers : (b : B) → Ans b} {r : WorkerAns Ans o}
      (hnext : d.worker.next = some o) (h : workerExec answers o d.shared = some (r, d'.shared))
  | silent (h : d'.shared = d.shared)
  | restart (h : d'.shared = .init)

/-- A step of the worker executes its next operation. -/
theorem workStep_eq_some {α : Type} {answers : (b : B) → Ans b} {p p' : Worker B Ans α}
    {s t : Shared B Ans} (h : workStep answers p s = some (p', t)) :
    ∃ (o : WorkerOp B) (k : WorkerAns Ans o → Worker B Ans α) (r : WorkerAns Ans o),
      p = .op o k ∧ p' = k r ∧ workerExec answers o s = some (r, t) := by
  cases p with
  | ret a => cases h
  | raise e => cases h
  | op o k =>
    obtain ⟨⟨r, w⟩, hx, hw⟩ := Option.map_eq_some_iff.mp h
    obtain ⟨rfl, rfl⟩ := Prod.mk.inj hw
    exact ⟨o, k, r, rfl, rfl, hx⟩

/-- The inversion lemma of the daemon. -/
theorem daemonStep_move {backend : NetworkBackend B Ans} {a : Action B Ans}
    {d d' : DaemonState B Ans} (h : daemonStep backend a d = some d') :
    DaemonMove backend d d' := by
  obtain ⟨s, worker⟩ := d
  cases a with
  | client a =>
    obtain ⟨⟨reply, t⟩, hc, rfl⟩ := Option.map_eq_some_iff.mp h
    exact .client hc
  | begin call => cases worker <;> cases call <;> cases h <;> exact .silent rfl
  -- a step of a call is a step of its first operation
  | work answers =>
    cases worker with
    | idle => cases h
    | processing start p =>
      obtain ⟨⟨p', t⟩, hw, rfl⟩ := Option.map_eq_some_iff.mp h
      obtain ⟨o, k, r, rfl, -, hx⟩ := workStep_eq_some hw
      exact .worker rfl hx
    | reconciling p =>
      obtain ⟨⟨p', t⟩, hw, rfl⟩ := Option.map_eq_some_iff.mp h
      obtain ⟨o, k, r, rfl, -, hx⟩ := workStep_eq_some hw
      exact .worker rfl hx
  | finishCall =>
    cases worker with
    | idle => cases h
    | processing start p => cases p <;> cases h <;> exact .silent rfl
    | reconciling p => cases p <;> cases h <;> exact .silent rfl
  | restart => cases h; exact .restart rfl

/-- What an operation of the worker does to the queue and the log. -/
theorem workerExec_cases {answers : (b : B) → Ans b} {o : WorkerOp B} {r : WorkerAns Ans o}
    {s t : Shared B Ans} (h : workerExec answers o s = some (r, t)) :
    (∃ item rest, s.work.get? = some (item, rest) ∧ t = s.take item rest) ∨
    (∃ b, o = .backend b ∧ t = s.record .worker ⟨b, answers b⟩) ∨
    (t.work = s.work ∧ t.history = s.history ∧
      (t.operation = s.operation ∨ t.operation = some .worker ∨ t.operation = none)) := by
  cases o with
  | workGet =>
    simp only [workerExec] at h
    split at h
    · cases h
      exact .inr (.inr ⟨rfl, rfl, .inl rfl⟩)
    · next item rest hget =>
      cases h
      exact .inl ⟨item, rest, hget, rfl⟩
  -- the three that touch neither the queue nor the log, and at most the lock
  | taskDone =>
    cases h
    exact .inr (.inr ⟨rfl, rfl, .inl rfl⟩)
  | acquireOperation =>
    simp only [workerExec] at h
    split at h <;> cases h
    exact .inr (.inr ⟨rfl, rfl, .inr (.inl rfl)⟩)
  | releaseOperation =>
    cases h
    exact .inr (.inr ⟨rfl, rfl, .inr (.inr rfl)⟩)
  | locked body =>
    simp only [workerExec] at h
    split at h <;> cases h
    exact .inr (.inr ⟨rfl, rfl, .inl rfl⟩)
  | backend b =>
    cases h
    exact .inr (.inl ⟨b, rfl, rfl⟩)

/-! ## The environment of the worker

The worker's program, with client steps before each of its operations. -/

/-- What the runs of a theorem are restricted to: which client actions and which worker
operations may happen in which state, and whether the process may be restarted. -/
structure Discipline (B : Type) (Ans : B → Type) where
  client : Shared B Ans → ClientAction B Ans → Bool
  worker : Shared B Ans → WorkerOp B → ((b : B) → Ans b) → Bool
  restart : Bool

def Discipline.any : Discipline B Ans where
  client _ _ := true
  worker _ _ _ := true
  restart := true

/-- The operation the worker is about to perform satisfies the discipline. -/
def Discipline.head {α : Type} (D : Discipline B Ans) (s : Shared B Ans)
    (answers : (b : B) → Ans b) : Worker B Ans α → Bool
  | .op o _ => D.worker s o answers
  | _ => true

def Discipline.check (D : Discipline B Ans) (d : DaemonState B Ans) : Action B Ans → Bool
  | .client a => D.client d.shared a
  | .begin _ => true
  | .work answers =>
    match d.worker with
    | .idle => true
    | .processing _ rest => D.head d.shared answers rest
    | .reconciling rest => D.head d.shared answers rest
  | .finishCall => true
  | .restart => D.restart

def Discipline.ok (D : Discipline B Ans) (d : DaemonState B Ans) (a : Action B Ans) : Prop :=
  D.check d a = true

variable (backend : NetworkBackend B Ans) (D : Discipline B Ans)

def ClientStep (s t : Shared B Ans) : Prop :=
  ∃ a reply, D.client s a ∧ clientStep backend a s = some (reply, t)

/-- The worker's surroundings; `pre` is what a theorem demands where an operation is issued. -/
def workerEnv (pre : WorkerOp B → Shared B Ans → Prop) :
    Env (WorkerOp B) (WorkerAns Ans) (Shared B Ans) where
  later := Relation.ReflTransGen (ClientStep backend D)
  later_refl _ := .refl
  later_trans h h' := h.trans h'
  pre := pre
  exec o s r t := ∃ answers, D.worker s o answers ∧ workerExec answers o s = some (r, t)

variable {backend D} {pre : WorkerOp B → Shared B Ans → Prop}

/-- An assertion is stable when every client move keeps it. -/
theorem stable_of_move {P : Shared B Ans → Prop}
    (h : ∀ s t a, P s → D.client s a → ClientMove a s t → P t) {s t : Shared B Ans} (hP : P s)
    (hst : (workerEnv backend D pre).later s t) : P t := by
  change Relation.ReflTransGen (ClientStep backend D) s t at hst
  induction hst with
  | refl => exact hP
  | tail _ hstep ih =>
    obtain ⟨a, reply, hok, hs⟩ := hstep
    exact h _ _ a ih hok (clientStep_move hs)

/-- The clients leave the worker's log alone. -/
theorem later_workerCalls {s t : Shared B Ans} (h : (workerEnv backend D pre).later s t) :
    t.workerCalls = s.workerCalls := by
  refine stable_of_move (P := fun t => t.workerCalls = s.workerCalls) ?_ rfl h
  intro u w a hu _ hm
  cases hm with
  | quiet _ _ _ _ _ hcalls => rw [hcalls, hu]
  | accept _ _ _ _ _ _ _ _ _ hcalls => rw [hcalls, hu]

/-- The clients take no item. -/
theorem later_taken {s t : Shared B Ans} (h : (workerEnv backend D pre).later s t) :
    t.history.taken = s.history.taken := by
  refine stable_of_move (P := fun t => t.history.taken = s.history.taken) ?_ rfl h
  intro u w a hu _ hm
  cases hm with
  | quiet _ _ _ _ htaken _ => rw [htaken, hu]
  | accept _ _ _ _ _ _ _ _ htaken _ => rw [htaken, hu]

/-- In `TRANSITION` every request is refused. -/
theorem later_transition {s t : Shared B Ans} (h : (workerEnv backend D pre).later s t)
    (hs : s.view.mode = .transition) : t.view.mode = .transition ∧ t.work = s.work := by
  refine stable_of_move (P := fun t => t.view.mode = .transition ∧ t.work = s.work) ?_ ⟨hs, rfl⟩ h
  rintro u w a ⟨hu, hwork⟩ _ hm
  cases hm with
  | quiet hview hw _ _ _ _ => exact ⟨by rw [hview, hu], by rw [hw, hwork]⟩
  | accept r _ _ hnext _ _ _ _ _ _ =>
    rw [hu] at hnext
    cases r <;> exact absurd hnext (by simp [Request.event, transitions])

/-- Requests lead from a transitional mode to a transitional mode. -/
theorem later_transitional {s t : Shared B Ans} (h : (workerEnv backend D pre).later s t)
    (hs : s.view.mode.transitional = true) : t.view.mode.transitional = true := by
  refine stable_of_move (P := fun t => t.view.mode.transitional = true) ?_ hs h
  intro u w a hu _ hm
  cases hm with
  | quiet hview _ _ _ _ _ => rw [hview, hu]
  | accept r _ _ hnext _ _ _ _ _ _ =>
    revert hu hnext
    cases r <;> cases u.view.mode <;> cases w.view.mode <;>
      simp [Request.event, transitions, NetworkMode.transitional]

/-! ## Rules for the worker's operations

One rule for each operation. After it the clients may have done anything that the discipline lets
them do. -/

namespace Worker

variable {α β : Type} {Q : α → Shared B Ans → Prop} {R : PyErr → Shared B Ans → Prop}
  {s : Shared B Ans}

/-- A `with self._lock:` block runs on the fields the clients left behind. -/
theorem wp_locked {body : Locked α}
    (h : ∀ t, (workerEnv backend D pre).later s t → pre (.locked body) t ∧
      (t.lock = none → (Prog.ofExcept (body t.view).1 : Worker B Ans α).wp
        (workerEnv backend D pre) Q R { t with controller := (body t.view).2 })) :
    (locked body : Worker B Ans α).wp (workerEnv backend D pre) Q R s := by
  intro t ht
  obtain ⟨hpre, hbody⟩ := h t ht
  refine ⟨hpre, ?_⟩
  rintro r w ⟨answers, -, hx⟩
  simp only [workerExec] at hx
  split at hx
  · next hlock =>
    cases hx
    rw [Shared.view_of_lock hlock] at hbody
    exact hbody hlock
  · cases hx

/-- `with self._operation_lock: p` runs `p` somewhat later; the lock itself is invisible to
assertions that do not mention it. -/
theorem wp_withOperation {p : Worker B Ans α}
    (hacq : ∀ t, pre .acquireOperation t) (hrel : ∀ t, pre .releaseOperation t)
    (hQ : ∀ a t, Q a t → Q a { t with operation := none })
    (hR : ∀ e t, R e t → R e { t with operation := none })
    (hQl : ∀ a t w, (workerEnv backend D pre).later t w → Q a t → Q a w)
    (hRl : ∀ e t w, (workerEnv backend D pre).later t w → R e t → R e w)
    (h : ∀ t, (workerEnv backend D pre).later s t →
      p.wp (workerEnv backend D pre) Q R { t with operation := some .worker }) :
    (withOperation p).wp (workerEnv backend D pre) Q R s := by
  intro t ht
  refine ⟨hacq t, ?_⟩
  rintro r w ⟨answers, -, hx⟩
  simp only [workerExec] at hx
  split at hx
  -- the lock was free; the body runs under it, and both its ends release the lock
  · cases hx
    refine Prog.wp_finallyDo.mpr (Prog.wp_mono (h t ht) ?_ ?_)
    -- between the body and the release, and after it, the clients take their steps
    · rintro a u hu v hv
      refine ⟨hrel v, ?_⟩
      rintro r' w' ⟨answers', -, hx'⟩
      cases hx'
      exact fun x hx u' hu' => hQl a _ _ hu' (hQl a _ _ hx (hQ a v (hQl a u v hv hu)))
    · rintro e u hu v hv
      refine ⟨hrel v, ?_⟩
      rintro r' w' ⟨answers', -, hx'⟩
      cases hx'
      exact fun x hx u' hu' => hRl e _ _ hu' (hRl e _ _ hx (hR e v (hRl e u v hv hu)))
  · cases hx

end Worker

/-! ## From verified calls to runs

Where both of the worker's calls are verified, every run keeps what they establish. -/

variable (backend D pre) in
/-- A verified worker: between two calls the shared state satisfies `rest`, a `process_next`
called in `s` ends in `next s`, and a `reconcile` ends in `rest` again. -/
structure VerifiedWorker (rest : Shared B Ans → Prop)
    (next : Shared B Ans → Except PyErr Bool → Shared B Ans → Prop) : Prop where
  stable : ∀ s t, rest s → ClientStep backend D s t → rest t
  restart : D.restart → rest .init
  processNext : ∀ s, rest s → (Worker.processNext backend).wp (workerEnv backend D pre)
    (fun b => next s (.ok b)) (fun e => next s (.error e)) s
  reconcile : ∀ s, rest s → (Worker.reconcile backend).wp (workerEnv backend D pre)
    (fun _ => rest) (fun _ => rest) s
  rest_of_next : ∀ s out t, next s out t → rest t

/-- What holds of a daemon state when the worker is verified. -/
def WorkerSafe (backend : NetworkBackend B Ans) (D : Discipline B Ans)
    (pre : WorkerOp B → Shared B Ans → Prop) (rest : Shared B Ans → Prop)
    (next : Shared B Ans → Except PyErr Bool → Shared B Ans → Prop)
    (d : DaemonState B Ans) : Prop :=
  match d.worker with
  | .idle => rest d.shared
  | .processing s p => p.wp (workerEnv backend D pre) (fun b => next s (.ok b))
      (fun e => next s (.error e)) d.shared
  | .reconciling p =>
    p.wp (workerEnv backend D pre) (fun _ => rest) (fun _ => rest) d.shared

section

variable {rest : Shared B Ans → Prop}
  {next : Shared B Ans → Except PyErr Bool → Shared B Ans → Prop}

/-- One operation of a verified program leaves a verified program. -/
theorem workStep_wp {α : Type} {p p' : Worker B Ans α} {Q : α → Shared B Ans → Prop}
    {R : PyErr → Shared B Ans → Prop} {s t : Shared B Ans} {answers : (b : B) → Ans b}
    (h : p.wp (workerEnv backend D pre) Q R s) (hok : D.head s answers p = true)
    (hs : workStep answers p s = some (p', t)) : p'.wp (workerEnv backend D pre) Q R t := by
  obtain ⟨o, k, r, rfl, rfl, hx⟩ := workStep_eq_some hs
  exact (h s .refl).2 r t ⟨answers, hok, hx⟩

/-- **Every step keeps a verified worker verified.** -/
theorem workerSafe_step (V : VerifiedWorker backend D pre rest next) {d d' : DaemonState B Ans}
    {a : Action B Ans} (h : WorkerSafe backend D pre rest next d) (hok : D.ok d a)
    (hs : daemonStep backend a d = some d') : WorkerSafe backend D pre rest next d' := by
  obtain ⟨s, worker⟩ := d
  cases a with
  -- a client moves under the worker: what is left of its program holds from any state that follows
  | client a =>
    obtain ⟨⟨reply, t⟩, hc, hd⟩ := Option.map_eq_some_iff.mp hs
    cases hd
    have hstep : ClientStep backend D s t := ⟨a, reply, hok, hc⟩
    cases worker with
    | idle => exact V.stable s t h hstep
    | processing start p => exact Prog.wp_later h (.single hstep)
    | reconciling p => exact Prog.wp_later h (.single hstep)
  | begin call =>
    cases worker with
    | idle =>
      cases call with
      | processNext => cases hs; exact V.processNext s h
      | reconcile => cases hs; exact V.reconcile s h
    | processing start p => cases call <;> cases hs
    | reconciling p => cases call <;> cases hs
  | work answers =>
    cases worker with
    | idle => cases hs
    | processing start p =>
      obtain ⟨⟨p', t⟩, hw, hd⟩ := Option.map_eq_some_iff.mp hs
      cases hd
      exact workStep_wp h hok hw
    | reconciling p =>
      obtain ⟨⟨p', t⟩, hw, hd⟩ := Option.map_eq_some_iff.mp hs
      cases hd
      exact workStep_wp h hok hw
  -- a call that has returned: its postcondition is what the next call starts from
  | finishCall =>
    cases worker with
    | idle => cases hs
    | processing start p =>
      cases p with
      | ret b => cases hs; exact V.rest_of_next start _ s (h s .refl)
      | raise e => cases hs; exact V.rest_of_next start _ s (h s .refl)
      | op o k => cases hs
    | reconciling p =>
      cases p with
      | ret b => cases hs; exact h s .refl
      | raise e => cases hs; exact h s .refl
      | op o k => cases hs
  | restart => cases hs; exact V.restart hok

/-- What a theorem demands of an operation holds where a verified worker performs it. -/
theorem workerSafe_pre {d : DaemonState B Ans} {o : WorkerOp B}
    (h : WorkerSafe backend D pre rest next d) (ho : d.worker.next = some o) : pre o d.shared := by
  obtain ⟨s, worker⟩ := d
  cases worker with
  | idle => cases ho
  | processing start p =>
    cases p with
    | op o' k => cases ho; exact (h s .refl).1
    | _ => cases ho
  | reconciling p =>
    cases p with
    | op o' k => cases ho; exact (h s .refl).1
    | _ => cases ho

/-- **Runs.** From a state between two calls that satisfies `rest`, every run of a verified
worker is safe. -/
theorem run_safe (V : VerifiedWorker backend D pre rest next) {s : Shared B Ans} (h0 : rest s)
    {as : List (Action B Ans)} {d : DaemonState B Ans}
    (run : (daemon backend).Run D.ok ⟨s, .idle⟩ as d) :
    WorkerSafe backend D pre rest next d := by
  have hidle : WorkerSafe backend D pre rest next ⟨s, .idle⟩ := h0
  exact run.invariant hidle fun _ _ _ h hok hs => workerSafe_step V h hok hs

/-- What a `process_next` that is about to return or raise has achieved. -/
theorem next_of_finished (V : VerifiedWorker backend D pre rest next) {s start : Shared B Ans}
    (h0 : rest s) {as : List (Action B Ans)} {t : Shared B Ans} {out : Except PyErr Bool}
    (run : (daemon backend).Run D.ok ⟨s, .idle⟩ as ⟨t, .processing start (Prog.ofExcept out)⟩) :
    next start out t := by
  have h := run_safe V h0 run
  cases out with
  | ok b => exact h t .refl
  | error e => exact h t .refl

end

end Rave
