import RaveDeployment.Network.Levels
import RaveDeployment.Network.WorkerSpec

/-!
# The daemon over a backend refines the daemon over its calls

The theorems on the controller are about `anyBackend`, where a backend method is one step that may
answer anything. Over a backend whose methods take steps of their own, with clients between them,
the daemon does the same: `refines_of_run` matches every run of it with a run over `anyBackend` in
which each method is called when it has ended, with the outcome it has come to. What the threads
share is the same at both levels, and the operations on the backend are, one after the other, the
runs of the methods that are called.
-/

namespace Rave

open Prog

variable {B : Type} {Ans : B → Type}

/-- The runs in which the backend's operations are answered so. -/
def Discipline.answeredBy (ok : (b : B) → Ans b → Bool) : Discipline B Ans where
  client s a :=
    match a, s.operation with
    | .scanStep answers, some (.client (.op b _)) => ok b (answers b)
    | _, _ => true
  worker _ o answers :=
    match o with
    | .backend b => ok b (answers b)
    | _ => true
  restart := true

/-! ## What is the same at both levels

The two daemons share the controller, the queue, the locks and what the clients see. The logs
differ: one has the commands, the other the calls. -/

/-- The states differ at most in the calls and in what holds the operation lock. -/
structure Shared.Alike (s : Shared B Ans) (t : AnyState) : Prop where
  controller : t.controller = s.controller
  work : t.work = s.work
  lock : t.lock = s.lock
  scans : t.scans = s.scans
  accepted : t.history.accepted = s.history.accepted
  taken : t.history.taken = s.history.taken

variable (backend : NetworkBackend B Ans) (ok : (b : B) → Ans b → Bool)

/-- The operation lock is held by the same thread, and a scan is as far at both levels. -/
inductive OwnerMatches : Option (Owner B Ans) → Option (Owner BackendCall BackendCall.Answer) →
    Prop where
  | none : OwnerMatches none none
  | worker : OwnerMatches (some .worker) (some .worker)
  | client {p : Prog PyErr B Ans (List AccessPoint)}
      {q : Prog PyErr BackendCall BackendCall.Answer (List AccessPoint)} {late : Journal Ans}
      (h : Underway backend.methods p q late) (hlate : ∀ x ∈ late, ok x.1 x.2 = true) :
      OwnerMatches (some (.client p)) (some (.client q))

/-- From two lists of calls on, the worker's operations on the backend are the runs of the methods
that it has called, and what the method under way has asked. -/
def Adds (base : List (BackendEvent B Ans)) (base' : List CallEvent) (s : Shared B Ans) (t : AnyState)
    (late : Journal (WorkerAns Ans)) : Prop :=
  ∃ log log', s.workerCalls = base ++ backendEvents (log ++ late) ∧
    t.workerCalls = base' ++ backendEvents log' ∧ CarriedOut backend.workerMethods log log'

/-- The worker is in the same call, and as far at both levels. -/
inductive WorkerMatches (s : Shared B Ans) (t : AnyState) :
    WorkerState B Ans → WorkerState BackendCall BackendCall.Answer → Prop where
  | idle (h : Adds backend [] [] s t []) : WorkerMatches s t .idle .idle
  | processing {start : Shared B Ans} {start' : AnyState} {p : Worker B Ans Bool}
      {q : Worker BackendCall BackendCall.Answer Bool} {late : Journal (WorkerAns Ans)}
      (hp : Underway backend.workerMethods p q late) (hlate : ∀ x ∈ late, AnsweredBy ok x.1 x.2)
      (h : Adds backend [] [] s t late)
      (hstart : Adds backend start.workerCalls start'.workerCalls s t late) :
      WorkerMatches s t (.processing start p) (.processing start' q)
  | reconciling {p : Worker B Ans Unit} {q : Worker BackendCall BackendCall.Answer Unit}
      {late : Journal (WorkerAns Ans)} (hp : Underway backend.workerMethods p q late)
      (hlate : ∀ x ∈ late, AnsweredBy ok x.1 x.2) (h : Adds backend [] [] s t late) :
      WorkerMatches s t (.reconciling p) (.reconciling q)

/-- The daemon over the backend and the daemon over its calls. -/
structure Refines (d : DaemonState B Ans) (e : DaemonState BackendCall BackendCall.Answer) :
    Prop where
  shared : d.shared.Alike e.shared
  operation : OwnerMatches backend ok d.shared.operation e.shared.operation
  worker : WorkerMatches backend ok d.shared e.shared d.worker e.worker

variable {backend ok}

/-! ## Client steps

A step of a client below is one step above, or none where a command of a scan is not its last. -/

section Clients

variable {s s' : Shared B Ans} {t : AnyState} {reply : Reply}
  {w : WorkerState BackendCall BackendCall.Answer}

theorem run_clientStep {a : ClientAction BackendCall BackendCall.Answer} {t' : AnyState}
    (h : clientStep anyBackend a t = some (reply, t')) :
    (daemon anyBackend).Run Discipline.any.ok ⟨t, w⟩ [.client a] ⟨t', w⟩ :=
  .step .refl rfl (congrArg (Option.map _) h)

/-- A request is answered alike. -/
theorem alike_request {r : Request} (h : s.Alike t) (hs : s.request r = (reply, s')) :
    ∃ t', t.request r = (reply, t') ∧ s'.Alike t' ∧ s'.operation = s.operation ∧
      t'.operation = t.operation ∧ s'.workerCalls = s.workerCalls ∧
      t'.workerCalls = t.workerCalls := by
  unfold Shared.request at hs ⊢
  rw [h.controller]
  split at hs
  · next hap =>
    rw [if_pos hap]
    obtain ⟨rfl, rfl⟩ := Prod.mk.inj hs
    exact ⟨t, rfl, h, rfl, rfl, rfl, rfl⟩
  · next hap =>
    rw [if_neg hap]
    unfold Shared.enqueueTransition at hs ⊢
    rw [h.controller]
    split at hs
    · obtain ⟨rfl, rfl⟩ := Prod.mk.inj hs
      exact ⟨t, rfl, h, rfl, rfl, rfl, rfl⟩
    · rw [h.work]
      split at hs
      · obtain ⟨rfl, rfl⟩ := Prod.mk.inj hs
        exact ⟨t, rfl, h, rfl, rfl, rfl, rfl⟩
      · obtain ⟨rfl, rfl⟩ := Prod.mk.inj hs
        refine ⟨_, rfl, ⟨rfl, rfl, rfl, h.scans, ?_, h.taken⟩, rfl, rfl, rfl, rfl⟩
        exact congrArg (· ++ [r.item]) h.accepted

def answersWith {c : BackendCall} (r : c.Answer) : (b : BackendCall) → b.Answer :=
  Function.update (fun _ => .error ⟨.osError, rfl⟩) c r

@[simp] theorem answersWith_self {c : BackendCall} (r : c.Answer) : answersWith r c = r :=
  Function.update_self c r _

/-- A call that a scan makes over the calls. -/
theorem clientStep_scanStep {c : BackendCall}
    {k : c.Answer → Prog PyErr BackendCall BackendCall.Answer (List AccessPoint)}
    (hop : t.operation = some (.client (.op c k))) (r : c.Answer) :
    ∃ t', clientStep anyBackend (.scanStep (answersWith r)) t = some (.pending, t') ∧
      t'.operation = some (.client (k r)) ∧ t'.workerCalls = t.workerCalls ∧
      ∀ s : Shared B Ans, s.Alike t → s.Alike t' := by
  refine ⟨{ t.record .client ⟨c, r⟩ with operation := some (.client (k r)) }, ?_, rfl,
    Shared.workerCalls_record_client t _, ?_⟩
  · simp only [clientStep, hop, answersWith_self]
  · intro s hs
    exact ⟨hs.controller, hs.work, hs.lock, hs.scans, hs.accepted, hs.taken⟩

/-- The calls of a scan whose methods ask nothing. -/
theorem run_scan_settles {q q' : Prog PyErr BackendCall BackendCall.Answer (List AccessPoint)}
    {rest : Journal BackendCall.Answer} (h : Settles backend.methods q rest q')
    (hop : t.operation = some (.client q)) :
    ∃ as t', (daemon anyBackend).Run Discipline.any.ok ⟨t, w⟩ as ⟨t', w⟩ ∧
      t'.operation = some (.client q') ∧ t'.workerCalls = t.workerCalls ∧
      ∀ s : Shared B Ans, s.Alike t → s.Alike t' := by
  induction h generalizing t with
  | done q => exact ⟨[], t, .refl, hop, rfl, fun _ hs => hs⟩
  | @op c k out r rest q _ _ _ ih =>
    obtain ⟨u, hstep, hopu, hcallsu, halikeu⟩ := clientStep_scanStep (B := B) hop r
    obtain ⟨as, t', run, hop', hcalls, halike⟩ := ih hopu
    exact ⟨_, t', (run_clientStep hstep).trans run, hop', hcalls.trans hcallsu,
      fun s hs => halike s (halikeu s hs)⟩

variable (backend ok) in
/-- Some client steps over the calls lead to a state like `s'`. -/
def ClientFollows (w : WorkerState BackendCall BackendCall.Answer) (s s' : Shared B Ans)
    (t : AnyState) : Prop :=
  ∃ as t', (daemon anyBackend).Run Discipline.any.ok ⟨t, w⟩ as ⟨t', w⟩ ∧ s'.Alike t' ∧
    OwnerMatches backend ok s'.operation t'.operation ∧ s'.workerCalls = s.workerCalls ∧
    t'.workerCalls = t.workerCalls

/-- A request is answered the same above. -/
theorem follows_request {r : Request} (h : s.Alike t)
    (hop : OwnerMatches backend ok s.operation t.operation)
    (hs : clientStep backend (.request r) s = some (reply, s')) :
    ClientFollows backend ok w s s' t := by
  simp only [clientStep] at hs
  split at hs
  · cases hs
  · next hlock =>
    obtain ⟨t', hreq, halike, hops, hopt, hcalls, hcalls'⟩ := alike_request h (Option.some.inj hs)
    have hstep : clientStep anyBackend (.request r) t = some (reply, t') := by
      rw [← h.lock] at hlock
      simp only [clientStep, if_neg hlock, hreq]
    refine ⟨_, t', run_clientStep hstep, halike, ?_, hcalls, hcalls'⟩
    rw [hops, hopt]
    exact hop

theorem follows_finishRequest (h : s.Alike t)
    (hop : OwnerMatches backend ok s.operation t.operation)
    (hs : clientStep backend .finishRequest s = some (reply, s')) :
    ClientFollows backend ok w s s' t := by
  simp only [clientStep] at hs
  split at hs
  · cases hs
  · next r next hlock =>
    obtain ⟨-, rfl⟩ := Prod.mk.inj (Option.some.inj hs)
    rw [← h.lock] at hlock
    have hstep : clientStep anyBackend .finishRequest t =
        some (.returned (r.commit next t.controller).snapshot,
          { t with controller := r.commit next t.controller, lock := none }) := by
      simp only [clientStep, hlock]
    refine ⟨_, _, run_clientStep hstep, ⟨?_, h.work, rfl, h.scans, h.accepted, h.taken⟩, hop, rfl,
      rfl⟩
    exact congrArg (r.commit next) h.controller

theorem follows_scanCheck (h : s.Alike t)
    (hop : OwnerMatches backend ok s.operation t.operation)
    (hs : clientStep backend .scanCheck s = some (reply, s')) :
    ClientFollows backend ok w s s' t := by
  simp only [clientStep] at hs
  split at hs
  · cases hs
  · next hlock =>
    rw [← h.lock] at hlock
    split at hs
    · next hmode =>
      -- the mode is not a transitional one, so a scan is pending on both sides
      obtain ⟨-, rfl⟩ := Prod.mk.inj (Option.some.inj hs)
      rw [← h.controller] at hmode
      have hstep : clientStep anyBackend .scanCheck t =
          some (.pending, { t with scans := t.scans + 1 }) := by
        simp only [clientStep, if_neg hlock, if_pos hmode]
      exact ⟨_, _, run_clientStep hstep, ⟨h.controller, h.work, h.lock,
        congrArg (· + 1) h.scans, h.accepted, h.taken⟩, hop, rfl, rfl⟩
    · obtain ⟨-, rfl⟩ := Prod.mk.inj (Option.some.inj hs)
      exact ⟨[], t, .refl, h, hop, rfl, rfl⟩

/-- A scan that takes the operation lock does so above, with its first command still to come. -/
theorem follows_scanEnter (hraises : RaisesHandled backend ok) (h : s.Alike t)
    (hop : OwnerMatches backend ok s.operation t.operation)
    (hs : clientStep backend .scanEnter s = some (reply, s')) :
    ClientFollows backend ok w s s' t := by
  simp only [clientStep] at hs
  split at hs
  · next waiting hscans hnone =>
    obtain ⟨-, rfl⟩ := Prod.mk.inj (Option.some.inj hs)
    -- the lock is free on both sides
    have hnone' : t.operation = none := by
      rw [hnone] at hop
      generalize t.operation = operation at hop
      cases hop
      rfl
    have hstep : clientStep anyBackend .scanEnter t =
        some (.pending, { t with scans := waiting, operation := some (.client anyBackend.scan) }) := by
      rw [← h.scans] at hscans
      simp only [clientStep, hscans, hnone']
    have hcarries : Carries backend.methods anyBackend.scan backend.scan := carries_method .scan
    -- the scan has issued no command yet; the abstract one runs ahead to its result
    obtain ⟨rest, q, hsettles, hunderway⟩ :=
      settles_of_carries (answering_methods hraises) hcarries
    obtain ⟨as, t', run, hop', hcalls, halike⟩ := run_scan_settles (w := w) hsettles
      (t := { t with scans := waiting, operation := some (.client anyBackend.scan) }) rfl
    refine ⟨_, t', (run_clientStep hstep).trans run, halike _ ?_, ?_, rfl, hcalls⟩
    · exact ⟨h.controller, h.work, h.lock, rfl, h.accepted, h.taken⟩
    · rw [hop']
      exact .client hunderway fun x hx => absurd hx List.not_mem_nil
  · cases hs

/-- A command of a scan is no step above, or the end of the scan. -/
theorem follows_scanStep (hraises : RaisesHandled backend ok) {answers : (b : B) → Ans b}
    (h : s.Alike t) (hop : OwnerMatches backend ok s.operation t.operation)
    (hok : (Discipline.answeredBy ok).client s (.scanStep answers) = true)
    (hs : clientStep backend (.scanStep answers) s = some (reply, s')) :
    ClientFollows backend ok w s s' t := by
  simp only [clientStep] at hs
  split at hs
  · next b k hclient =>
    obtain ⟨-, rfl⟩ := Prod.mk.inj (Option.some.inj hs)
    have hanswer : ok b (answers b) = true := by
      simpa only [Discipline.answeredBy, hclient] using hok
    rw [hclient] at hop
    generalize hop' : t.operation = operation at hop
    cases hop with
    | @client _ q late hunderway hlate =>
      have hlate' : ∀ x ∈ late ++ [⟨b, answers b⟩], ok x.1 x.2 = true := by
        intro x hx
        rcases List.mem_append.mp hx with hold | hnew
        · exact hlate x hold
        · rw [List.mem_singleton.mp hnew]
          exact hanswer
      rcases underway_step (answering_methods hraises) hunderway hlate hanswer with hgoes | hends
      · refine ⟨[], t, .refl, ⟨h.controller, h.work, h.lock, h.scans, h.accepted, h.taken⟩, ?_,
          Shared.workerCalls_record_client s _, rfl⟩
        rw [hop']
        exact .client hgoes hlate'
      · -- the scan has come to its outcome
        obtain ⟨c, k', out, r, rest, q', rfl, -, -, hsettles, hunderway'⟩ := hends
        obtain ⟨u, hstep, hopu, hcallsu, halikeu⟩ := clientStep_scanStep (B := B) hop' r
        obtain ⟨as, t', run, hop'', hcalls, halike⟩ := run_scan_settles (w := w) hsettles hopu
        refine ⟨_, t', (run_clientStep hstep).trans run, halike _ (halikeu _ ?_), ?_,
          Shared.workerCalls_record_client s _, hcalls.trans hcallsu⟩
        · exact ⟨h.controller, h.work, h.lock, h.scans, h.accepted, h.taken⟩
        · rw [hop'']
          exact .client hunderway' fun x hx => absurd hx List.not_mem_nil
  · cases hs

/-- A scan that has ended below has ended above, in the same way. -/
theorem follows_scanLeave (h : s.Alike t) (hop : OwnerMatches backend ok s.operation t.operation)
    (hs : clientStep backend .scanLeave s = some (reply, s')) :
    ClientFollows backend ok w s s' t := by
  simp only [clientStep] at hs
  -- both scans have ended alike, and both hand over what they ended with
  have leaves : ∀ result, s' = { s with operation := none } →
      clientStep anyBackend .scanLeave t = some (.scanned result, { t with operation := none }) →
      ClientFollows backend ok w s s' t := by
    rintro result rfl hstep
    exact ⟨_, _, run_clientStep hstep, ⟨h.controller, h.work, h.lock, h.scans, h.accepted,
      h.taken⟩, .none, rfl, rfl⟩
  split at hs
  · next networks hclient =>
    rw [hclient] at hop
    generalize hop' : t.operation = operation at hop
    cases hop with
    | client hunderway _ =>
      cases hunderway
      apply leaves (.ok networks) (Prod.mk.inj (Option.some.inj hs)).2.symm
      simp only [clientStep, hop']
  · next e hclient =>
    rw [hclient] at hop
    generalize hop' : t.operation = operation at hop
    cases hop with
    | client hunderway _ =>
      cases hunderway
      apply leaves (.error e) (Prod.mk.inj (Option.some.inj hs)).2.symm
      simp only [clientStep, hop']
  · cases hs

/-- **A client step** at the backend is some client steps over its calls. -/
theorem alike_clientStep (hraises : RaisesHandled backend ok) {a : ClientAction B Ans}
    (h : s.Alike t) (hop : OwnerMatches backend ok s.operation t.operation)
    (hok : (Discipline.answeredBy ok).client s a = true)
    (hs : clientStep backend a s = some (reply, s')) : ClientFollows backend ok w s s' t := by
  cases a with
  | request r => exact follows_request h hop hs
  | finishRequest => exact follows_finishRequest h hop hs
  | scanCheck => exact follows_scanCheck h hop hs
  | scanEnter => exact follows_scanEnter hraises h hop hs
  | scanStep answers => exact follows_scanStep hraises h hop hok hs
  | scanLeave => exact follows_scanLeave h hop hs

end Clients

/-! ## Steps of the worker

A command below is a step above when it ends a method, and none otherwise. -/

section WorkerSteps

variable {s s' : Shared B Ans} {t : AnyState} {α : Type}
  {wrap : Worker BackendCall BackendCall.Answer α → WorkerState BackendCall BackendCall.Answer}

/-- Above, any answer is possible. -/
theorem ok_any (e : DaemonState BackendCall BackendCall.Answer)
    (a : Action BackendCall BackendCall.Answer) : Discipline.any.ok e a := by
  cases a with
  | work answers =>
    obtain ⟨t, worker⟩ := e
    cases worker with
    | idle => rfl
    | processing start p => cases p <;> rfl
    | reconciling p => cases p <;> rfl
  | _ => rfl

/-- The call that the worker is in goes on with the program. -/
def Wraps (wrap : Worker BackendCall BackendCall.Answer α →
    WorkerState BackendCall BackendCall.Answer) : Prop :=
  ∀ answers q t, daemonStep anyBackend (.work answers) ⟨t, wrap q⟩ =
    (workStep answers q t).map fun (q', t') => ⟨t', wrap q'⟩

/-- One step of the worker above. -/
theorem run_workerExec (hwrap : Wraps wrap) {answers : (c : BackendCall) → c.Answer}
    {o : WorkerOp BackendCall} {k : WorkerAns BackendCall.Answer o → Worker BackendCall _ α}
    {r : WorkerAns BackendCall.Answer o} {t' : AnyState}
    (h : workerExec answers o t = some (r, t')) :
    (daemon anyBackend).Run Discipline.any.ok ⟨t, wrap (.op o k)⟩ [.work answers]
      ⟨t', wrap (k r)⟩ := by
  refine .step .refl (ok_any _ _) ?_
  show daemonStep anyBackend (.work answers) ⟨t, wrap (.op o k)⟩ = _
  rw [hwrap]
  simp only [workStep, h, Option.map_some]

theorem workerExec_backend {c : BackendCall} (r : c.Answer) (t : AnyState) :
    workerExec (answersWith r) (.backend c) t = some (r, t.record .worker ⟨c, r⟩) := by
  simp only [workerExec, answersWith_self]
  rfl

/-- The calls whose methods ask nothing. -/
theorem run_settles (hwrap : Wraps wrap) {q q' : Worker BackendCall BackendCall.Answer α}
    {rest : Journal (WorkerAns BackendCall.Answer)} (h : Settles backend.workerMethods q rest q') :
    ∃ as t', (daemon anyBackend).Run Discipline.any.ok ⟨t, wrap q⟩ as ⟨t', wrap q'⟩ ∧
      t'.operation = t.operation ∧ t'.workerCalls = t.workerCalls ++ backendEvents rest ∧
      ∀ s : Shared B Ans, s.Alike t → s.Alike t' := by
  induction h generalizing t with
  | done q => exact ⟨[], t, .refl, rfl, (List.append_nil _).symm, fun _ hs => hs⟩
  | @op o k out r rest q hmethod hreport _ ih =>
    -- only a method of the backend can be settled: its answer is recorded
    have hsame : ¬o.Same := by
      intro ho
      cases o with
      | backend c => exact ho
      | _ => cases out <;> cases hmethod
    obtain ⟨c, rfl⟩ := o.same_or.resolve_left hsame
    obtain ⟨as, t', run, hop, hcalls, halike⟩ := ih (t := t.record .worker ⟨c, r⟩)
    refine ⟨_, t', (run_workerExec hwrap (workerExec_backend r t)).trans run, hop, ?_, ?_⟩
    · rw [hcalls, Shared.workerCalls_record_worker, List.append_assoc]
      rfl
    · intro s hs
      exact halike s ⟨hs.controller, hs.work, hs.lock, hs.scans, hs.accepted, hs.taken⟩

/-- The state of the worker's program at both levels. -/
structure Abreast (backend : NetworkBackend B Ans) (ok : (b : B) → Ans b → Bool)
    (p : Worker B Ans α) (q : Worker BackendCall BackendCall.Answer α) (s : Shared B Ans)
    (t : AnyState) (late : Journal (WorkerAns Ans)) : Prop where
  underway : Underway backend.workerMethods p q late
  late : ∀ x ∈ late, AnsweredBy ok x.1 x.2
  shared : s.Alike t
  operation : OwnerMatches backend ok s.operation t.operation

/-- An operation on the locks or the queue does the same at both levels. -/
theorem alike_workerExec (answers' : (c : BackendCall) → c.Answer) {o' : WorkerOp BackendCall}
    (ho : o'.Same) {out : Except PyErr o'.Value}
    {o : WorkerOp B} {r : WorkerAns Ans o} {r' : WorkerAns BackendCall.Answer o'}
    {late : Journal (WorkerAns Ans)} {answers : (b : B) → Ans b}
    (hrun : (backend.workerMethod o').Runs (freely (WorkerAns Ans)) [] out (late ++ [⟨o, r⟩]))
    (hreport : o'.report out = some r') (hx : workerExec answers o s = some (r, s'))
    (h : s.Alike t) (hop : OwnerMatches backend ok s.operation t.operation) :
    ∃ t', workerExec answers' o' t = some (r', t') ∧ s'.Alike t' ∧
      OwnerMatches backend ok s'.operation t'.operation ∧ s'.workerCalls = s.workerCalls ∧
      t'.workerCalls = t.workerCalls ∧ backendEvents [(⟨o, r⟩ : (_ : WorkerOp B) × _)] = [] ∧
      backendEvents [(⟨o', r'⟩ : (_ : WorkerOp BackendCall) × _)] = [] := by
  -- one case for each operation of the worker; a method of the backend is none of these
  cases o' with
  | backend c => exact absurd ho id
  | workGet =>
    obtain ⟨x, rfl, hlast⟩ := runs_one_last hrun
    cases hlast
    have hr : some x = some r' := hreport
    obtain rfl := Option.some.inj hr
    simp only [workerExec] at hx ⊢
    rw [h.work]
    split at hx
    · obtain ⟨rfl, rfl⟩ := Prod.mk.inj (Option.some.inj hx)
      exact ⟨t, rfl, h, hop, rfl, rfl, rfl, rfl⟩
    · next item rest _ =>
      obtain ⟨rfl, rfl⟩ := Prod.mk.inj (Option.some.inj hx)
      exact ⟨t.take item rest, rfl, ⟨h.controller, rfl, h.lock, h.scans, h.accepted,
        congrArg (· ++ [item]) h.taken⟩, hop, rfl, rfl, rfl, rfl⟩
  | taskDone =>
    obtain ⟨x, rfl, hlast⟩ := runs_one_last hrun
    cases hlast
    obtain ⟨-, rfl⟩ := Prod.mk.inj (Option.some.inj hx)
    exact ⟨t, rfl, h, hop, rfl, rfl, rfl, rfl⟩
  | acquireOperation =>
    obtain ⟨x, rfl, hlast⟩ := runs_one_last hrun
    cases hlast
    simp only [workerExec] at hx ⊢
    split at hx
    · next hnone =>
      rw [hnone] at hop
      generalize hop' : t.operation = operation at hop
      cases hop
      obtain ⟨-, rfl⟩ := Prod.mk.inj (Option.some.inj hx)
      exact ⟨{ t with operation := some .worker }, rfl, ⟨h.controller, h.work, h.lock, h.scans,
        h.accepted, h.taken⟩, .worker, rfl, rfl, rfl, rfl⟩
    · cases hx
  | releaseOperation =>
    obtain ⟨x, rfl, hlast⟩ := runs_one_last hrun
    cases hlast
    obtain ⟨-, rfl⟩ := Prod.mk.inj (Option.some.inj hx)
    exact ⟨{ t with operation := none }, rfl, ⟨h.controller, h.work, h.lock, h.scans, h.accepted,
      h.taken⟩, .none, rfl, rfl, rfl, rfl⟩
  | locked body =>
    obtain ⟨x, rfl, hlast⟩ := runs_one_last hrun
    cases hlast
    have hr : some x = some r' := hreport
    obtain rfl := Option.some.inj hr
    simp only [workerExec] at hx ⊢
    rw [h.lock]
    split at hx
    -- the same body runs on the same data
    · obtain ⟨rfl, rfl⟩ := Prod.mk.inj (Option.some.inj hx)
      rw [h.controller]
      exact ⟨{ t with controller := (body s.controller).2, lock := s.lock }, by rw [← h.lock],
        ⟨rfl, h.work, rfl, h.scans,
        h.accepted, h.taken⟩, hop, rfl, rfl, rfl, rfl⟩
    · cases hx

/-- The answers below are as assumed. -/
theorem answeredBy_of_exec {answers : (b : B) → Ans b} {o : WorkerOp B}
    {r : WorkerAns Ans o} (hok : (Discipline.answeredBy ok).worker s o answers = true)
    (hx : workerExec answers o s = some (r, s')) : AnsweredBy ok o r := by
  cases o with
  | backend b =>
    obtain ⟨rfl, -⟩ := Prod.mk.inj (Option.some.inj hx)
    exact hok
  | _ => trivial

/-- An operation ends at both levels, and the program above goes on as far as it can. -/
theorem abreast_end (hwrap : Wraps wrap) {o : WorkerOp B} {o' : WorkerOp BackendCall}
    {k' : WorkerAns BackendCall.Answer o' → Worker BackendCall BackendCall.Answer α}
    {out : Except PyErr o'.Value} {r : WorkerAns Ans o} {r' : WorkerAns BackendCall.Answer o'}
    {rest : Journal (WorkerAns BackendCall.Answer)} {p' : Worker B Ans α}
    {q' : Worker BackendCall BackendCall.Answer α} {late : Journal (WorkerAns Ans)} {t₁ : AnyState}
    {answers' : (c : BackendCall) → c.Answer}
    (hrun : (backend.workerMethod o').Runs (freely (WorkerAns Ans)) [] out (late ++ [⟨o, r⟩]))
    (hreport : o'.report out = some r') (hsettles : Settles backend.workerMethods (k' r') rest q')
    (hunderway : Underway backend.workerMethods p' q' [])
    (hx' : workerExec answers' o' t = some (r', t₁)) (hshared : s'.Alike t₁)
    (hop : OwnerMatches backend ok s'.operation t₁.operation)
    (hcalls : s'.workerCalls = s.workerCalls ++ backendEvents [⟨o, r⟩])
    (hcalls' : t₁.workerCalls = t.workerCalls ++ backendEvents [⟨o', r'⟩]) :
    ∃ as t', (daemon anyBackend).Run Discipline.any.ok ⟨t, wrap (.op o' k')⟩ as ⟨t', wrap q'⟩ ∧
      Abreast backend ok p' q' s' t' [] ∧
      ∀ base base', Adds backend base base' s t late → Adds backend base base' s' t' [] := by
  -- the method has answered on both sides; the abstract side goes on to its next method
  obtain ⟨as, t', run, hop', hcalls'', halike⟩ := run_settles (t := t₁) hwrap hsettles
  refine ⟨_, t', (run_workerExec hwrap hx').trans run,
    ⟨hunderway, fun x hx => absurd hx List.not_mem_nil, halike s' hshared, ?_⟩, ?_⟩
  · rw [hop']
    exact hop
  · intro base base' hadds
    obtain ⟨log, log', hlog, hlog', hcarried⟩ := hadds
    have hone : CarriedOut backend.workerMethods (log ++ (late ++ [⟨o, r⟩])) (log' ++ [⟨o', r'⟩]) :=
      hcarried.op hrun hreport
    refine ⟨_, _, ?_, ?_, hone.settles hsettles⟩
    · rw [hcalls, hlog, List.append_nil]
      simp only [backendEvents_append, List.append_assoc]
    · rw [hcalls'', hcalls', hlog']
      simp only [backendEvents_append, List.append_assoc]

/-- **A step of the worker** at the backend is some steps over its calls. -/
theorem abreast_workStep (hraises : RaisesHandled backend ok) (hwrap : Wraps wrap)
    {answers : (b : B) → Ans b} {p p' : Worker B Ans α}
    {q : Worker BackendCall BackendCall.Answer α} {late : Journal (WorkerAns Ans)}
    (h : Abreast backend ok p q s t late)
    (hok : (Discipline.answeredBy ok).head s answers p = true)
    (hs : workStep answers p s = some (p', s')) :
    ∃ as t' q' late', (daemon anyBackend).Run Discipline.any.ok ⟨t, wrap q⟩ as ⟨t', wrap q'⟩ ∧
      Abreast backend ok p' q' s' t' late' ∧
      ∀ base base', Adds backend base base' s t late → Adds backend base base' s' t' late' := by
  obtain ⟨o, k, r, rfl, rfl, hx⟩ := workStep_eq_some hs
  have hanswered : AnsweredBy ok o r := answeredBy_of_exec hok hx
  rcases underway_step (answering_workerMethods hraises) h.underway h.late hanswered with
    hgoes | ⟨o', k', out, r', rest, q', rfl, hrun, hreport, hsettles, hunderway⟩
  · -- the method goes on: only its operation on the backend is recorded
    obtain ⟨b, rfl⟩ := backend_of_underway hgoes
    obtain ⟨rfl, rfl⟩ := Prod.mk.inj (Option.some.inj hx)
    refine ⟨[], t, q, _, .refl, ⟨hgoes, ?_, ?_, h.operation⟩, ?_⟩
    · intro x hmem
      rcases List.mem_append.mp hmem with hold | hnew
      · exact h.late x hold
      · rw [List.mem_singleton.mp hnew]
        exact hanswered
    · exact ⟨h.shared.controller, h.shared.work, h.shared.lock, h.shared.scans, h.shared.accepted,
        h.shared.taken⟩
    · intro base base' hadds
      obtain ⟨log, log', hlog, hlog', hcarried⟩ := hadds
      refine ⟨log, log', ?_, hlog', hcarried⟩
      rw [Shared.workerCalls_record_worker, hlog, List.append_assoc]
      simp only [backendEvents_append, List.append_assoc]
      rfl
  · rcases o'.same_or with hsame | ⟨c, rfl⟩
    · have answers₀ (c : BackendCall) : c.Answer := .error ⟨.osError, rfl⟩
      obtain ⟨t₁, hx', hshared, hop, hcalls, hcalls', hnone, hnone'⟩ :=
        alike_workerExec answers₀ hsame hrun hreport hx h.shared h.operation
      have hcalls : s'.workerCalls = s.workerCalls ++ backendEvents [⟨o, r⟩] := by
        rw [hcalls, hnone, List.append_nil]
      have hcalls' : t₁.workerCalls = t.workerCalls ++ backendEvents [⟨o', r'⟩] := by
        rw [hcalls', hnone', List.append_nil]
      obtain ⟨as, t', run, habreast, hadds⟩ := abreast_end hwrap hrun hreport hsettles hunderway hx'
        hshared hop hcalls hcalls'
      exact ⟨as, t', q', [], run, habreast, hadds⟩
    · -- the method has ended, and is called now
      obtain ⟨events, hevents, -⟩ := runs_ofBackend hrun
      obtain ⟨b, rfl⟩ := backend_of_events hevents
      obtain ⟨rfl, rfl⟩ := Prod.mk.inj (Option.some.inj hx)
      have hreport : WorkerOp.report (.backend c) out = some r' := hreport
      have hshared : (s.record .worker ⟨b, answers b⟩).Alike (t.record .worker ⟨c, r'⟩) :=
        ⟨h.shared.controller, h.shared.work, h.shared.lock, h.shared.scans, h.shared.accepted,
          h.shared.taken⟩
      have hcalls := Shared.workerCalls_record_worker s ⟨b, answers b⟩
      have hcalls' := Shared.workerCalls_record_worker t ⟨c, r'⟩
      obtain ⟨as, t', run, habreast, hadds⟩ := abreast_end hwrap hrun hreport hsettles hunderway
        (workerExec_backend r' t) hshared h.operation hcalls hcalls'
      exact ⟨as, t', q', [], run, habreast, hadds⟩

end WorkerSteps

/-! ## Runs of the daemon

Step by step, for any interleaving, including a restart of the process. -/

section Runs

variable {s s' : Shared B Ans} {t t' : AnyState} {α : Type}
  {wrap : Worker BackendCall BackendCall.Answer α → WorkerState BackendCall BackendCall.Answer}

/-- What is added depends on the worker's logs only. -/
theorem Adds.congr {base : List (BackendEvent B Ans)} {base' : List CallEvent}
    {late : Journal (WorkerAns Ans)} (h : Adds backend base base' s t late)
    (hs : s'.workerCalls = s.workerCalls) (ht : t'.workerCalls = t.workerCalls) :
    Adds backend base base' s' t' late := by
  obtain ⟨log, log', hlog, hlog', hcarried⟩ := h
  exact ⟨log, log', hs.trans hlog, ht.trans hlog', hcarried⟩

/-- Clients do not move the worker. -/
theorem WorkerMatches.congr {w : WorkerState B Ans}
    {w' : WorkerState BackendCall BackendCall.Answer} (h : WorkerMatches backend ok s t w w')
    (hs : s'.workerCalls = s.workerCalls) (ht : t'.workerCalls = t.workerCalls) :
    WorkerMatches backend ok s' t' w w' := by
  cases h with
  | idle h => exact .idle (h.congr hs ht)
  | processing hp hlate h hstart =>
    exact .processing hp hlate (h.congr hs ht) (hstart.congr hs ht)
  | reconciling hp hlate h => exact .reconciling hp hlate (h.congr hs ht)

/-- Steps of the worker lead from one `process_next` to the same. -/
theorem wraps_processing (start : AnyState) : Wraps (WorkerState.processing start) :=
  fun _ _ _ => rfl

theorem wraps_reconciling :
    Wraps (WorkerState.reconciling : Worker BackendCall BackendCall.Answer Unit → _) :=
  fun _ _ _ => rfl

/-- The worker begins a call. -/
theorem abreast_begin (hraises : RaisesHandled backend ok) (hwrap : Wraps wrap)
    {p : Worker B Ans α} {q : Worker BackendCall BackendCall.Answer α}
    (hcarries : Carries backend.workerMethods q p) (hshared : s.Alike t)
    (hop : OwnerMatches backend ok s.operation t.operation)
    (hadds : Adds backend [] [] s t []) :
    ∃ as t' q', (daemon anyBackend).Run Discipline.any.ok ⟨t, wrap q⟩ as ⟨t', wrap q'⟩ ∧
      Abreast backend ok p q' s t' [] ∧ Adds backend [] [] s t' [] ∧
      Adds backend s.workerCalls t.workerCalls s t' [] := by
  obtain ⟨rest, q', hsettles, hunderway⟩ :=
    settles_of_carries (answering_workerMethods hraises) hcarries
  obtain ⟨as, t', run, hop', hcalls, halike⟩ := run_settles (t := t) hwrap hsettles
  obtain ⟨log, log', hlog, hlog', hcarried⟩ := hadds
  refine ⟨as, t', q', run,
    ⟨hunderway, fun x hx => absurd hx List.not_mem_nil, halike s hshared, ?_⟩,
    ⟨log, log' ++ rest, hlog, ?_, hcarried.settles hsettles⟩,
    ⟨[], rest, (List.append_nil _).symm, hcalls, CarriedOut.nil.settles hsettles⟩⟩
  · rw [hop']
    exact hop
  · rw [hcalls, hlog', backendEvents_append, List.append_assoc]

/-- A call that has ended below has ended above, in the same way. -/
theorem finished_of_underway {p : Worker B Ans α} {q : Worker BackendCall BackendCall.Answer α}
    {late : Journal (WorkerAns Ans)} (h : Underway backend.workerMethods p q late)
    (hp : finished p = true) : finished q = true ∧ late = [] := by
  cases h with
  | ret a => exact ⟨rfl, rfl⟩
  | raise e => exact ⟨rfl, rfl⟩
  | within _ _ => cases hp

theorem refines_init : Refines backend ok .init .init where
  shared := ⟨rfl, rfl, rfl, rfl, rfl, rfl⟩
  operation := .none
  worker := .idle ⟨[], [], rfl, rfl, .nil⟩

/-- The worker begins the same call above. -/
theorem refines_begin (hraises : RaisesHandled backend ok) {call : WorkerCall}
    {d d' : DaemonState B Ans} {e : DaemonState BackendCall BackendCall.Answer}
    (h : Refines backend ok d e) (hs : daemonStep backend (.begin call) d = some d') :
    ∃ as e', (daemon anyBackend).Run Discipline.any.ok e as e' ∧ Refines backend ok d' e' := by
  obtain ⟨s, w⟩ := d
  obtain ⟨t, w'⟩ := e
  obtain ⟨hshared, hop, hworker⟩ := h
  cases hworker with
  | idle hadds =>
    cases call with
    | processNext =>
      -- the abstract worker begins the same call and runs ahead to its first method
      obtain rfl := Option.some.inj hs
      have hbegin : (daemon anyBackend).Run Discipline.any.ok ⟨t, .idle⟩ [.begin .processNext]
          ⟨t, .processing t (Worker.processNext anyBackend)⟩ := .step .refl rfl rfl
      obtain ⟨as, t', q', run, habreast, hadds', hstart⟩ :=
        abreast_begin hraises (wraps_processing t) carries_processNext hshared hop hadds
      exact ⟨_, _, hbegin.trans run, habreast.shared, habreast.operation,
        .processing habreast.underway habreast.late hadds' hstart⟩
    | reconcile =>
      obtain rfl := Option.some.inj hs
      have hbegin : (daemon anyBackend).Run Discipline.any.ok ⟨t, .idle⟩ [.begin .reconcile]
          ⟨t, .reconciling (Worker.reconcile anyBackend)⟩ := .step .refl rfl rfl
      obtain ⟨as, t', q', run, habreast, hadds', -⟩ :=
        abreast_begin hraises wraps_reconciling carries_reconcile hshared hop hadds
      exact ⟨_, _, hbegin.trans run, habreast.shared, habreast.operation,
        .reconciling habreast.underway habreast.late hadds'⟩
  | processing => cases call <;> simp [daemonStep] at hs
  | reconciling => cases call <;> simp [daemonStep] at hs

/-- A step of the worker is followed above. -/
theorem refines_work (hraises : RaisesHandled backend ok) {answers : (b : B) → Ans b}
    {d d' : DaemonState B Ans} {e : DaemonState BackendCall BackendCall.Answer}
    (h : Refines backend ok d e) (hok : (Discipline.answeredBy ok).ok d (.work answers))
    (hs : daemonStep backend (.work answers) d = some d') :
    ∃ as e', (daemon anyBackend).Run Discipline.any.ok e as e' ∧ Refines backend ok d' e' := by
  obtain ⟨s, w⟩ := d
  obtain ⟨t, w'⟩ := e
  obtain ⟨hshared, hop, hworker⟩ := h
  cases hworker with
  | idle hadds => simp [daemonStep] at hs
  -- the worker's step is one command of a method, which the abstract worker follows
  | processing hp hlate hadds hstart =>
    obtain ⟨⟨p', s'⟩, hwork, rfl⟩ := Option.map_eq_some_iff.mp hs
    obtain ⟨as, t', q', late', run, habreast, hmore⟩ :=
      abreast_workStep hraises (wraps_processing _) ⟨hp, hlate, hshared, hop⟩ hok hwork
    exact ⟨as, _, run, habreast.shared, habreast.operation,
      .processing habreast.underway habreast.late (hmore _ _ hadds) (hmore _ _ hstart)⟩
  | reconciling hp hlate hadds =>
    obtain ⟨⟨p', s'⟩, hwork, rfl⟩ := Option.map_eq_some_iff.mp hs
    obtain ⟨as, t', q', late', run, habreast, hmore⟩ :=
      abreast_workStep hraises wraps_reconciling ⟨hp, hlate, hshared, hop⟩ hok hwork
    exact ⟨as, _, run, habreast.shared, habreast.operation,
      .reconciling habreast.underway habreast.late (hmore _ _ hadds)⟩

/-- The end of a call is followed above. -/
theorem refines_finishCall {d d' : DaemonState B Ans}
    {e : DaemonState BackendCall BackendCall.Answer} (h : Refines backend ok d e)
    (hs : daemonStep backend .finishCall d = some d') :
    ∃ as e', (daemon anyBackend).Run Discipline.any.ok e as e' ∧ Refines backend ok d' e' := by
  obtain ⟨s, w⟩ := d
  obtain ⟨t, w'⟩ := e
  obtain ⟨hshared, hop, hworker⟩ := h
  cases hworker with
  | idle hadds => simp [daemonStep] at hs
  | @processing _ start' p q late hp hlate hadds hstart =>
    simp only [daemonStep] at hs
    split at hs
    -- both calls have finished, so both workers are idle
    · next hfinished =>
      obtain rfl := Option.some.inj hs
      obtain ⟨hfinished', rfl⟩ := finished_of_underway hp hfinished
      have run : (daemon anyBackend).Run Discipline.any.ok ⟨t, .processing start' q⟩ [.finishCall]
          ⟨t, .idle⟩ := .step .refl rfl (if_pos hfinished')
      exact ⟨_, _, run, hshared, hop, .idle hadds⟩
    · cases hs
  | @reconciling p q late hp hlate hadds =>
    simp only [daemonStep] at hs
    split at hs
    · next hfinished =>
      obtain rfl := Option.some.inj hs
      obtain ⟨hfinished', rfl⟩ := finished_of_underway hp hfinished
      have run : (daemon anyBackend).Run Discipline.any.ok ⟨t, .reconciling q⟩ [.finishCall]
          ⟨t, .idle⟩ := .step .refl rfl (if_pos hfinished')
      exact ⟨_, _, run, hshared, hop, .idle hadds⟩
    · cases hs

/-- **A step of the daemon** over the backend is some steps over its calls. -/
theorem refines_step (hraises : RaisesHandled backend ok) {a : Action B Ans}
    {d d' : DaemonState B Ans} {e : DaemonState BackendCall BackendCall.Answer}
    (h : Refines backend ok d e) (hok : (Discipline.answeredBy ok).ok d a)
    (hs : daemonStep backend a d = some d') :
    ∃ as e', (daemon anyBackend).Run Discipline.any.ok e as e' ∧ Refines backend ok d' e' := by
  cases a with
  | client a =>
    obtain ⟨⟨reply, s'⟩, hclient, rfl⟩ := Option.map_eq_some_iff.mp hs
    obtain ⟨as, t', run, halike, hop, hcalls, hcalls'⟩ :=
      alike_clientStep (w := e.worker) hraises h.shared h.operation hok hclient
    exact ⟨as, _, run, halike, hop, h.worker.congr hcalls hcalls'⟩
  | begin call => exact refines_begin hraises h hs
  | work answers => exact refines_work hraises h hok hs
  | finishCall => exact refines_finishCall h hs
  | restart =>
    obtain rfl := Option.some.inj hs
    exact ⟨[.restart], .init, .step .refl rfl rfl, refines_init⟩

/-- **The daemon over a backend refines the daemon over its calls.** -/
theorem refines_of_run (hraises : RaisesHandled backend ok) {as : List (Action B Ans)}
    {d : DaemonState B Ans}
    (run : (daemon backend).Run (Discipline.answeredBy ok).ok .init as d) :
    ∃ bs e, (daemon anyBackend).Run Discipline.any.ok .init bs e ∧ Refines backend ok d e := by
  induction run with
  | refl => exact ⟨[], .init, .refl, refines_init⟩
  | step _ hok hs ih =>
    obtain ⟨bs, e, run, h⟩ := ih
    obtain ⟨more, e', run', h'⟩ := refines_step hraises h hok hs
    exact ⟨bs ++ more, e', run.trans run', h'⟩

/-- Between two calls of the worker, its operations on the backend are the runs of the methods. -/
theorem Refines.carriedOut {d : DaemonState B Ans}
    {e : DaemonState BackendCall BackendCall.Answer} (h : Refines backend ok d e)
    (hidle : d.worker = .idle) :
    e.worker = .idle ∧ CarriedOut backend.methods d.shared.workerCalls e.shared.workerCalls := by
  obtain ⟨s, w⟩ := d
  obtain ⟨t, w'⟩ := e
  obtain ⟨-, -, hworker⟩ := h
  cases hworker with
  | idle hadds =>
    obtain ⟨log, log', hlog, hlog', hcarried⟩ := hadds
    rw [List.append_nil, List.nil_append] at hlog
    rw [List.nil_append] at hlog'
    refine ⟨rfl, ?_⟩
    show CarriedOut backend.methods s.workerCalls t.workerCalls
    rw [hlog, hlog']
    exact carriedOut_backendEvents hcarried
  | processing => cases hidle
  | reconciling => cases hidle

end Runs

end Rave
