import RaveDeployment.Network.Consistent
import RaveDeployment.Network.Recovery

/-!
# Scans and transitions

`NetworkController.scan` checks the mode under `_lock` and scans under `_operation_lock`. Between
the check and the call of `backend.scan()` the daemon may do anything (`not_scan_clear`), before the
scan has `_operation_lock` and after it; `scan_clear` says under which conditions on the steps of a
run every `backend.scan()` is called in one of the two modes that admit it, with no request queued
or in hand.

`Calm` is what holds whenever `_operation_lock` is free, `Pending` while an item is worked off and
`Restoring` while a reconciliation brings the AP back.
-/

namespace Rave

open Prog

variable {B : Type} {Ans : B → Type} {backend : NetworkBackend B Ans} {s t : Shared B Ans}

/-- The modes in which `scan` does not raise. -/
def NetworkMode.scannable : NetworkMode → Bool
  | .provisioningAp | .stationConnected => true
  | _ => false

/-- A mode in which `scan` does not raise is not transitional. -/
theorem not_transitional_of_scannable {m : NetworkMode} (h : m.scannable = true) :
    m.transitional = false := by
  cases m <;> simp_all [NetworkMode.scannable, NetworkMode.transitional]

/-- More than `task_done` is left to do for the item. -/
def unfinished : Worker B Ans Bool → Bool
  | .op .taskDone _ => false
  | .op _ _ => true
  | _ => false

/-- The worker has taken an item and works on it. -/
def InHand (d : DaemonState B Ans) : Prop :=
  ∃ start p, d.worker = .processing start p ∧
    d.shared.history.taken ≠ start.history.taken ∧ unfinished p = true

/-- No transition is under way. -/
structure ScanClear (d : DaemonState B Ans) : Prop where
  mode : d.shared.controller.mode = .provisioningAp ∨ d.shared.controller.mode = .stationConnected
  queue : d.shared.work.items = []
  inHand : ¬InHand d

/-- The scans past their check of the mode that have still to ask the backend: those that wait for
`_operation_lock`, and the one that has it. -/
def Shared.pendingScans (s : Shared B Ans) : Nat :=
  match s.operation with
  | some (.client (.op _ _)) => s.scans + 1
  | _ => s.scans

/-- A scan that waits for the operation lock has still to ask. -/
theorem Shared.scans_le_pendingScans (s : Shared B Ans) : s.scans ≤ s.pendingScans := by
  unfold Shared.pendingScans
  split <;> omega

/-- Where nobody has the operation lock, those that wait are all. -/
theorem Shared.pendingScans_of_free (hfree : s.operation = none) : s.pendingScans = s.scans := by
  simp [Shared.pendingScans, hfree]

/-- When the worker takes the operation lock, no scan is added. -/
theorem Shared.pendingScans_worker_le (s : Shared B Ans) :
    ({ s with operation := some .worker } : Shared B Ans).pendingScans ≤ s.pendingScans :=
  s.scans_le_pendingScans

/-- When the operation lock is given up, no scan is added. -/
theorem Shared.pendingScans_free_le (s : Shared B Ans) :
    ({ s with operation := none } : Shared B Ans).pendingScans ≤ s.pendingScans :=
  s.scans_le_pendingScans

/-- From the check of the mode of a scan to its first operation of the backend, no request is
accepted and no mode is set to `ERROR`; and no request is accepted in `STATION_CONNECTING`. -/
def undisturbedScans : Discipline B Ans where
  client s a :=
    match a with
    | .request r =>
      match (s.request r).1 with
      | .pending => s.pendingScans = 0 && s.controller.mode ≠ .stationConnecting
      | _ => true
    | _ => true
  worker s o _ :=
    match o with
    | .locked body => s.pendingScans = 0 || (body s.controller).2.mode ≠ .error
    | _ => true
  restart := true

/-! ## What a client step can do

The steps of the clients in an undisturbed run, said once. Either the mode and the queue stay, or a
request is accepted while no scan has still to ask. -/

/-- A client step of an undisturbed run. -/
inductive ScanMove (s t : Shared B Ans) : Prop where
  | keep (hmode : t.view.mode = s.view.mode) (hwork : t.work = s.work)
      (htaken : t.history.taken = s.history.taken)
      (hscans : t.pendingScans ≤ s.pendingScans ∨ s.view.mode.scannable = true)
      (hheld : s.operation = some .worker → t.operation = some .worker)
  | accept (hscans : t.pendingScans = 0) (hmode : s.view.mode.transitional = false)
      (hmode' : t.view.mode.transitional = true)
      (htaken : t.history.taken = s.history.taken)
      (hheld : s.operation = some .worker → t.operation = some .worker)

/-- A request that is accepted finds no scan that has still to ask. -/
theorem scanMove_request {r : Request} {reply : Reply}
    (hok : (undisturbedScans : Discipline B Ans).client s (.request r) = true)
    (h : clientStep backend (.request r) s = some (reply, t)) : ScanMove s t := by
  simp only [clientStep] at h
  split at h
  · exact absurd h (by simp)
  · next hlock =>
    have hlock : s.lock = none := by simpa using hlock
    have hrequest := Option.some.inj h
    rcases request_cases hrequest with ⟨hsame, -⟩ | ⟨hpending, next, work, hnext, hput, ht⟩
    · rw [hsame]
      exact .keep rfl rfl rfl (Or.inl (Nat.le_refl _)) id
    · have hreply : (s.request r).1 = .pending := by rw [hrequest, hpending]
      -- the discipline: no scan is pending and the mode is not that of a connection under way
      have hcheck : s.pendingScans = 0 ∧ s.controller.mode ≠ .stationConnecting := by
        simpa [undisturbedScans, hreply] using hok
      -- a request for the worker leaves a mode at rest for a transitional one
      have hmode : s.view.mode.transitional = false := by
        rw [Shared.view_of_lock hlock]
        obtain ⟨-, hconnecting⟩ := hcheck
        revert hnext hconnecting
        cases s.controller.mode <;> cases r <;>
          simp [transitions, Request.event, NetworkMode.transitional]
      have hmode' : t.view.mode.transitional = true := by
        rw [ht]
        show (r.commit next s.controller).mode.transitional = true
        rw [Request.commit_mode]
        exact request_transitional hnext
      rw [ht] at hmode' ⊢
      exact .accept hcheck.1 hmode hmode' rfl id

/-- **What a client step can do** to a scan that waits. -/
theorem clientStep_scanMove {a : ClientAction B Ans} {reply : Reply}
    (hok : (undisturbedScans : Discipline B Ans).client s a = true)
    (h : clientStep backend a s = some (reply, t)) : ScanMove s t := by
  cases a with
  | request r => exact scanMove_request hok h
  | finishRequest =>
    simp only [clientStep] at h
    split at h
    · exact absurd h (by simp)
    · next r next hlock =>
      cases h
      exact .keep (by simp [Shared.view, hlock]) rfl rfl (Or.inl (Nat.le_refl _)) id
  | scanCheck =>
    simp only [clientStep] at h
    split at h
    · exact absurd h (by simp)
    · next hlock =>
      have hlock : s.lock = none := by simpa using hlock
      split at h
      · next hmode =>
        cases h
        -- the mode is read under the lock, so it is the one that everyone sees
        have hscannable : s.view.mode.scannable = true := by
          rw [Shared.view_of_lock hlock]
          rcases hmode with hmode | hmode
          · rw [hmode]
            rfl
          · rw [hmode]
            rfl
        exact .keep rfl rfl rfl (Or.inr hscannable) id
      · cases h
        exact .keep rfl rfl rfl (Or.inl (Nat.le_refl _)) id
  | scanEnter =>
    simp only [clientStep] at h
    split at h
    · next waiting hscans hfree =>
      cases h
      refine .keep rfl rfl rfl (Or.inl ?_) ?_
      · -- the scan that gets the lock was one of those that wait
        rw [Shared.pendingScans_of_free hfree]
        unfold Shared.pendingScans
        split <;> simp only <;> omega
      · intro hheld
        rw [hfree] at hheld
        exact absurd hheld (by simp)
    · exact absurd h (by simp)
  | scanStep answers =>
    simp only [clientStep] at h
    split at h
    · next b k hscan =>
      cases h
      have hasking : s.pendingScans = s.scans + 1 := by simp [Shared.pendingScans, hscan]
      refine .keep rfl rfl rfl (Or.inl ?_) ?_
      · rw [hasking]
        unfold Shared.pendingScans
        split <;> simp only [Shared.record] <;> omega
      · intro hheld
        rw [hscan] at hheld
        exact absurd hheld (by simp)
    · exact absurd h (by simp)
  | scanLeave =>
    simp only [clientStep] at h
    split at h
    · next networks hscan =>
      cases h
      refine .keep rfl rfl rfl (Or.inl s.scans_le_pendingScans) ?_
      intro hheld
      rw [hscan] at hheld
      exact absurd hheld (by simp)
    · next e hscan =>
      cases h
      refine .keep rfl rfl rfl (Or.inl s.scans_le_pendingScans) ?_
      intro hheld
      rw [hscan] at hheld
      exact absurd hheld (by simp)
    · exact absurd h (by simp)

/-! ## Assertions

What the worker may assert between its operations, whatever the clients do in an undisturbed run. -/

/-- What holds whenever the worker has not got `_operation_lock`: a queued item has made the mode
transitional, and a scan that has still to ask has not been overtaken. -/
structure Calm (s : Shared B Ans) : Prop where
  queued : s.work.items ≠ [] → s.view.mode.transitional = true
  waiting : 0 < s.pendingScans → s.view.mode.scannable = true

/-- An item is in hand: nothing is queued, no scan has still to ask, and none can begin to. -/
structure Pending (s : Shared B Ans) : Prop where
  queue : s.work.items = []
  scans : s.pendingScans = 0
  mode : s.view.mode.transitional = true

/-- A reconciliation brings the AP back; scans may wait for it. -/
structure Restoring (s : Shared B Ans) : Prop where
  queue : s.work.items = []
  mode : s.view.mode = .transition
  held : s.operation = some .worker

/-- An assertion that no client step of an undisturbed run ends. -/
def Steady (P : Shared B Ans → Prop) : Prop :=
  ∀ s t, P s → ScanMove s t → P t

/-- The operation lock may change hands. -/
theorem Calm.set_operation (h : Calm s) {operation : Option (Owner B Ans)}
    (hle : ({ s with operation := operation } : Shared B Ans).pendingScans ≤ s.pendingScans) :
    Calm { s with operation := operation } :=
  ⟨h.queued, fun hwaiting => h.waiting (Nat.lt_of_lt_of_le hwaiting hle)⟩

theorem Pending.set_operation (h : Pending s) {operation : Option (Owner B Ans)}
    (hle : ({ s with operation := operation } : Shared B Ans).pendingScans ≤ s.pendingScans) :
    Pending { s with operation := operation } :=
  ⟨h.queue, Nat.le_zero.mp (h.scans ▸ hle), h.mode⟩

/-- With an item in hand, nothing is queued and no scan has still to ask. -/
theorem Pending.calm (h : Pending s) : Calm s := by
  refine ⟨fun hqueue => absurd h.queue hqueue, ?_⟩
  intro hwaiting
  rw [h.scans] at hwaiting
  exact absurd hwaiting (Nat.lt_irrefl 0)

/-- No client ends the calm. -/
theorem steady_calm : Steady (Calm : Shared B Ans → Prop) := by
  intro s t h hmove
  cases hmove with
  | keep hmode hwork _ hscans _ =>
    refine ⟨?_, ?_⟩
    · rw [hwork, hmode]
      exact h.queued
    · rw [hmode]
      intro hwaiting
      rcases hscans with hscans | hscannable
      · exact h.waiting (by omega)
      · exact hscannable
  | accept hscans _ hmode' _ _ =>
    refine ⟨fun _ => hmode', ?_⟩
    intro hwaiting
    omega

/-- No client ends that an item is in hand: the mode lets neither a request nor a scan in. -/
theorem steady_pending : Steady (Pending : Shared B Ans → Prop) := by
  intro s t h hmove
  cases hmove with
  | keep hmode hwork _ hscans _ =>
    refine ⟨hwork ▸ h.queue, ?_, hmode ▸ h.mode⟩
    rcases hscans with hscans | hscannable
    · have hnone := h.scans
      omega
    · -- no scan passes its check in a transitional mode
      have hnot := not_transitional_of_scannable hscannable
      rw [h.mode] at hnot
      exact absurd hnot (by simp)
  | accept _ hmode _ _ _ =>
    rw [h.mode] at hmode
    exact absurd hmode (by simp)

/-- No client ends a reconciliation. -/
theorem steady_restoring : Steady (Restoring : Shared B Ans → Prop) := by
  intro s t h hmove
  cases hmove with
  | keep hmode hwork _ _ hheld => exact ⟨hwork ▸ h.queue, hmode ▸ h.mode, hheld h.held⟩
  | accept _ hmode _ _ _ =>
    rw [h.mode] at hmode
    exact absurd hmode (by simp [NetworkMode.transitional])

/-- No client takes the operation lock from the worker. -/
theorem steady_held : Steady fun s : Shared B Ans => s.operation = some .worker := by
  intro s t h hmove
  cases hmove with
  | keep _ _ _ _ hheld => exact hheld h
  | accept _ _ _ _ hheld => exact hheld h

theorem Steady.and {P P' : Shared B Ans → Prop} (h : Steady P) (h' : Steady P') :
    Steady fun s => P s ∧ P' s :=
  fun s t hs hmove => ⟨h s t hs.1 hmove, h' s t hs.2 hmove⟩

/-- No client takes an item. -/
theorem steady_taken (taken : List WorkItem) :
    Steady fun s : Shared B Ans => s.history.taken = taken := by
  intro s t h hmove
  cases hmove with
  | keep _ _ htaken _ _ => exact htaken.trans h
  | accept _ _ _ htaken _ => exact htaken.trans h

/-! ## Rules

The rules of `wp` for such assertions. -/

section

variable {pre : WorkerOp B → Shared B Ans → Prop} {α : Type} {P R : Shared B Ans → Prop}
  {Q : α → Shared B Ans → Prop}

/-- Any number of client steps. -/
theorem Steady.later (hP : Steady P) (hs : P s)
    (h : (workerEnv backend undisturbedScans pre).later s t) : P t := by
  change Relation.ReflTransGen (ClientStep backend undisturbedScans) s t at h
  induction h with
  | refl => exact hs
  | tail _ hstep ih =>
    obtain ⟨a, reply, hok, hstep⟩ := hstep
    exact hP _ _ ih (clientStep_scanMove hok hstep)

theorem wp_ret_steady (hQ : ∀ a, Steady (Q a)) {a : α} (h : Q a s) :
    (Prog.ret a : Worker B Ans α).wp (workerEnv backend undisturbedScans pre) Q (fun _ => R) s :=
  fun _ ht => (hQ a).later h ht

theorem wp_raise_steady (hR : Steady R) (e : PyErr) (h : R s) :
    (Prog.raise e : Worker B Ans α).wp (workerEnv backend undisturbedScans pre) Q (fun _ => R) s :=
  fun _ ht => hR.later h ht

/-- A block under `_lock`. It sets `ERROR` only where no scan waits. -/
theorem wp_locked_steady {body : Locked α} (hP : Steady P) (hQ : ∀ a, Steady (Q a)) (hR : Steady R)
    (hpre : ∀ t, P t → pre (.locked body) t)
    (hbody : ∀ t, P t → t.lock = none → (0 < t.pendingScans → (body t.controller).2.mode ≠ .error) →
      (∀ a, (body t.controller).1 = .ok a → Q a { t with controller := (body t.controller).2 }) ∧
        ∀ e, (body t.controller).1 = .error e → R { t with controller := (body t.controller).2 })
    (hs : P s) :
    (Worker.locked body).wp (workerEnv backend undisturbedScans pre) Q (fun _ => R) s := by
  intro t ht
  have ht := hP.later hs ht
  refine ⟨hpre t ht, ?_⟩
  intro r w hexec
  obtain ⟨answers, hok, hx⟩ := hexec
  simp only [workerExec] at hx
  split at hx
  · next hlock =>
    -- the discipline rules out that the block leaves an error behind while a scan waits
    have hchecked : 0 < t.pendingScans → (body t.controller).2.mode ≠ .error := by
      intro hwaiting
      have hscans : t.pendingScans ≠ 0 := by omega
      simpa [undisturbedScans, hscans] using hok
    obtain ⟨hvalue, herror⟩ := hbody t ht hlock hchecked
    obtain ⟨hr, hw⟩ := Prod.mk.inj (Option.some.inj hx)
    rw [← hr, ← hw]
    cases hresult : (body t.controller).1 with
    | ok a => exact wp_ret_steady hQ (hvalue a hresult)
    | error e => exact wp_raise_steady hR e (herror e hresult)
  · exact absurd hx (by simp)

/-- A backend method. Its operations are recorded and change nothing else. -/
theorem wp_ofBackend_steady (hP : Steady P) (hrecord : ∀ t e, P t → P (t.record .worker e))
    (hpre : ∀ b t, P t → pre (.backend b) t) (p : Prog PyErr B Ans α) (hs : P s) :
    (Worker.ofBackend p).wp (workerEnv backend undisturbedScans pre) (fun _ => P) (fun _ => P)
      s := by
  induction p generalizing s with
  | ret a => exact wp_ret_steady (fun _ => hP) hs
  | raise e => exact wp_raise_steady hP e hs
  | op b k ih =>
    intro t ht
    have ht := hP.later hs ht
    refine ⟨hpre b t ht, ?_⟩
    intro r w hexec
    obtain ⟨answers, -, hx⟩ := hexec
    obtain ⟨rfl, rfl⟩ := Prod.mk.inj (Option.some.inj hx)
    exact ih _ (hrecord t _ ht)

/-- `with self._operation_lock: p`. The lock is held where it is released. -/
theorem wp_withOperation_steady {p : Worker B Ans α} {Q : Shared B Ans → Prop} (hP : Steady P)
    (hQ : Steady Q) (hR : Steady R) (hacquire : ∀ t, P t → pre .acquireOperation t)
    (hrelease : ∀ t, t.operation = some .worker → pre .releaseOperation t)
    (hset : ∀ t, P t → P { t with operation := some .worker })
    (hfreeQ : ∀ t, Q t → Q { t with operation := none })
    (hfreeR : ∀ t, R t → R { t with operation := none })
    (h : ∀ t, P t ∧ t.operation = some .worker →
      p.wp (workerEnv backend undisturbedScans pre) (fun _ s => Q s ∧ s.operation = some .worker)
        (fun _ s => R s ∧ s.operation = some .worker) t)
    (hs : P s) :
    (Worker.withOperation p).wp (workerEnv backend undisturbedScans pre) (fun _ => Q) (fun _ => R)
      s := by
  intro t ht
  have ht := hP.later hs ht
  refine ⟨hacquire t ht, ?_⟩
  intro r w hexec
  obtain ⟨answers, -, hx⟩ := hexec
  simp only [workerExec] at hx
  split at hx
  · obtain ⟨-, hw⟩ := Prod.mk.inj (Option.some.inj hx)
    -- the release comes on both ways out, from what the body has left
    have hfree : ∀ (P' : Shared B Ans → Prop) (u : Shared B Ans), Steady P' →
        (∀ v, P' v → P' { v with operation := none }) → P' u ∧ u.operation = some .worker →
        (Prog.op .releaseOperation .ret : Worker B Ans Unit).wp
          (workerEnv backend undisturbedScans pre) (fun _ => P') (fun _ _ => False) u := by
      intro P' u hP' hset' hu v hv
      obtain ⟨hv, hop⟩ := (hP'.and steady_held).later hu hv
      refine ⟨hrelease v hop, ?_⟩
      intro r x hexec
      obtain ⟨answers, -, hx⟩ := hexec
      obtain ⟨-, hx⟩ := Prod.mk.inj (Option.some.inj hx)
      rw [← hx]
      exact wp_ret_steady (fun _ => hP') (hset' v hv)
    apply wp_finallyDo.mpr
    apply wp_mono (h w (hw ▸ ⟨hset t ht, rfl⟩))
    · intro a u hu
      apply wp_mono (hfree Q u hQ hfreeQ hu)
      · intro _ v hv
        exact wp_ret_steady (fun _ => hQ) hv
      · exact fun _ _ hv => hv.elim
    · intro e u hu
      apply wp_mono (hfree R u hR hfreeR hu)
      · intro _ v hv
        exact wp_raise_steady hR e hv
      · exact fun _ _ hv => hv.elim
  · exact absurd hx (by simp)

/-- A backend method whose exceptions are handled. -/
theorem wp_orOnFailure_steady (hP : Steady P) {p : Worker B Ans α} {a : α}
    (h : p.wp (workerEnv backend undisturbedScans pre) (fun _ => P) (fun _ => P) s) :
    (Worker.orOnFailure p fun _ => .ret a).wp (workerEnv backend undisturbedScans pre)
      (fun _ => P) (fun _ => P) s := by
  apply wp_handle.mpr
  apply wp_mono h
  · intro a t ht
    exact wp_ret_steady (fun _ => hP) ht
  · intro e t ht
    split
    · exact wp_ret_steady (fun _ => hP) ht
    · exact wp_raise_steady hP e ht

end

/-! ## `process_next`

From the taking of an item until its mode is settled no scan can begin, because the mode is
transitional. -/

/-- What is demanded where an operation of a `process_next` called in `start` is issued, whenever the
worker has not got `_operation_lock`. -/
def nextPre (start : Shared B Ans) (o : WorkerOp B) (s : Shared B Ans) : Prop :=
  s.operation ≠ some .worker → Calm s ∧
    (s.history.taken = start.history.taken ∨ o = .taskDone ∨ s.view.mode.transitional = true)

/-- With an item in hand, every operation may be issued. -/
theorem Pending.nextPre (h : Pending s) (start : Shared B Ans) (o : WorkerOp B) :
    nextPre start o s :=
  fun _ => ⟨h.calm, Or.inr (Or.inr h.mode)⟩

/-- While an item is in hand, the fields may be set to anything. -/
theorem Pending.set (h : Pending s) (c : NetworkController) : Calm { s with controller := c } := by
  refine ⟨fun hqueue => absurd h.queue hqueue, ?_⟩
  intro hwaiting
  have hnone : s.pendingScans = 0 := h.scans
  have hwaiting : 0 < s.pendingScans := hwaiting
  omega

/-- The mode that a block sets is the one that is seen. -/
theorem Shared.view_set (hlock : s.lock = none) (c : NetworkController) :
    ({ s with controller := c } : Shared B Ans).view = c :=
  Shared.view_of_lock (show ({ s with controller := c } : Shared B Ans).lock = none from hlock)

/-- Another transitional mode may be set. -/
theorem Pending.set_transitional (h : Pending s) (hlock : s.lock = none) {c : NetworkController}
    (hc : c.mode.transitional = true) : Pending { s with controller := c } := by
  refine ⟨h.queue, h.scans, ?_⟩
  rw [Shared.view_set hlock]
  exact hc

/-- An assertion about what neither the blocks nor the backend touch. -/
structure Untouched (K : Shared B Ans → Prop) : Prop where
  steady : Steady K
  record : ∀ s e, K s → K (s.record .worker e)
  controller : ∀ s c, K s → K { s with controller := c }

/-- The blocks and the backend leave the operation lock to the worker. -/
theorem untouched_held : Untouched fun s : Shared B Ans => s.operation = some .worker :=
  ⟨steady_held, fun _ _ h => h, fun _ _ h => h⟩

theorem untouched_true : Untouched fun _ : Shared B Ans => True :=
  ⟨fun _ _ _ _ => trivial, fun _ _ _ => trivial, fun _ _ _ => trivial⟩

section

variable {start : Shared B Ans} {K : Shared B Ans → Prop} (hK : Untouched K)
include hK

/-- A method of the backend, with an item in hand. -/
theorem wp_ofBackend_pending {α : Type} (p : Prog PyErr B Ans α) (hs : Pending s ∧ K s) :
    (Worker.ofBackend p).wp (workerEnv backend undisturbedScans (nextPre start))
      (fun _ s => Pending s ∧ K s) (fun _ s => Pending s ∧ K s) s := by
  apply wp_ofBackend_steady (steady_pending.and hK.steady)
  · intro t e ht
    exact ⟨⟨ht.1.queue, ht.1.scans, ht.1.mode⟩, hK.record t e ht.2⟩
  · intro b t ht
    exact ht.1.nextPre start _
  · exact hs

/-- A block that leaves an item done, or raises and leaves the fields as they were. -/
theorem wp_locked_settling {body : Locked Unit}
    (hbody : ∀ self e, (body self).1 = .error e → (body self).2 = self) (hs : Pending s ∧ K s) :
    (Worker.locked body).wp (workerEnv backend undisturbedScans (nextPre start))
      (fun _ s => Calm s ∧ K s) (fun _ s => Pending s ∧ K s) s := by
  apply wp_locked_steady (steady_pending.and hK.steady) (fun _ => steady_calm.and hK.steady)
    (steady_pending.and hK.steady)
  · intro t ht
    exact ht.1.nextPre start _
  · intro t ht _ _
    refine ⟨fun _ _ => ⟨ht.1.set _, hK.controller t _ ht.2⟩, ?_⟩
    intro e he
    rw [hbody _ e he]
    exact ht
  · exact hs

/-- The block that settles the mode ends the item, and nothing has happened in between. -/
theorem wp_applyThenSet_pending (event : NetworkEvent) (ssid reason : Option String)
    (hs : Pending s ∧ K s) :
    (Worker.locked (Locked.applyThenSet event ssid reason)).wp
      (workerEnv backend undisturbedScans (nextPre start))
      (fun _ s => Calm s ∧ K s) (fun _ s => Pending s ∧ K s) s := by
  apply wp_locked_settling hK _ hs
  intro self e he
  unfold Locked.applyThenSet at he ⊢
  rcases apply_cases event self with ⟨next, -, happly⟩ | ⟨err, happly⟩
  · rw [happly] at he
    exact absurd he (by simp)
  · rw [happly]

/-- A block that starts a transition sets a transitional mode. -/
theorem wp_apply_pending {event : NetworkEvent} (hevent : event.starts) (hs : Pending s ∧ K s) :
    (Worker.apply event).wp (workerEnv backend undisturbedScans (nextPre start))
      (fun _ s => Pending s ∧ K s) (fun _ s => Pending s ∧ K s) s := by
  apply wp_locked_steady (steady_pending.and hK.steady)
    (fun _ => steady_pending.and hK.steady) (steady_pending.and hK.steady)
  · intro t ht
    exact ht.1.nextPre start _
  · intro t ht hlock _
    have hsame : Pending { t with controller := (Locked.apply event t.controller).2 } := by
      rcases apply_cases event t.controller with ⟨next, hnext, happly⟩ | ⟨err, happly⟩
      · rw [happly]
        exact ht.1.set_transitional hlock (hevent _ _ hnext)
      · rw [happly]
        exact ht.1
    exact ⟨fun _ _ => ⟨hsame, hK.controller t _ ht.2⟩, fun _ _ => ⟨hsame, hK.controller t _ ht.2⟩⟩
  · exact hs

/-- `_restore_provisioning` settles the mode. -/
theorem wp_restoreProvisioning_pending (prior : Option String) (hs : Pending s ∧ K s) :
    (Worker.restoreProvisioning backend prior).wp
      (workerEnv backend undisturbedScans (nextPre start))
      (fun _ s => Calm s ∧ K s) (fun _ s => Pending s ∧ K s) s := by
  apply wp_bind.mpr
  apply wp_mono (wp_orOnFailure_steady (steady_pending.and hK.steady)
    (wp_ofBackend_pending hK _ hs))
  · intro result t ht
    obtain ⟨success, apError⟩ := result
    cases success with
    | true => exact wp_applyThenSet_pending hK _ _ _ ht
    | false => exact wp_applyThenSet_pending hK _ _ _ ht
  · exact fun _ _ ht => ht

/-- The result of an attempt settles the mode. -/
theorem wp_settleAttempt_pending (result : Bool × Option String × Option String)
    (fallback : String) (hs : Pending s ∧ K s) :
    (Worker.settleAttempt backend result fallback).wp
      (workerEnv backend undisturbedScans (nextPre start))
      (fun _ s => Calm s ∧ K s) (fun _ s => Pending s ∧ K s) s := by
  obtain ⟨success, ssid, error⟩ := result
  cases success with
  | true => exact wp_applyThenSet_pending hK _ _ _ hs
  | false =>
    apply wp_bind.mpr
    apply wp_mono (wp_apply_pending hK starts_stationTimeout hs)
    · intro _ t ht
      exact wp_restoreProvisioning_pending hK _ ht
    · exact fun _ _ ht => ht

/-- Every item is settled, or given up with the mode still transitional. -/
theorem wp_processItem_pending (item : WorkItem) (hs : Pending s ∧ K s) :
    (Worker.processItem backend item).wp (workerEnv backend undisturbedScans (nextPre start))
      (fun _ s => Calm s ∧ K s) (fun _ s => Pending s ∧ K s) s := by
  -- only the last part of each item, the one that settles the mode, comes to a mode at rest
  cases item with
  | boot =>
    apply wp_bind.mpr
    apply wp_mono (wp_ofBackend_pending hK _ hs)
    · intro saved t ht
      cases saved with
      | true =>
        apply wp_bind.mpr
        apply wp_mono (wp_ofBackend_pending hK _ ht)
        · intro result u hu
          exact wp_settleAttempt_pending hK result _ hu
        · exact fun _ _ hu => hu
      | false =>
        apply wp_bind.mpr
        apply wp_mono (wp_apply_pending hK starts_noSavedNetwork ht)
        · intro _ u hu
          exact wp_restoreProvisioning_pending hK _ hu
        · exact fun _ _ hu => hu
    · exact fun _ _ ht => ht
  | connect ssid password =>
    apply wp_bind.mpr
    apply wp_mono (wp_ofBackend_pending hK _ hs)
    · intro result t ht
      exact wp_settleAttempt_pending hK result _ ht
    · exact fun _ _ ht => ht
  | provisioning => exact wp_restoreProvisioning_pending hK _ hs

end

section

variable {start : Shared B Ans}

/-- `with self._operation_lock:` around the work on an item. -/
theorem wp_processItem_locked_pending (item : WorkItem) (hs : Pending s) :
    (Worker.withOperation (Worker.processItem backend item)).wp
      (workerEnv backend undisturbedScans (nextPre start)) (fun _ => Calm) (fun _ => Pending) s := by
  apply wp_withOperation_steady steady_pending steady_calm steady_pending _ _ _ _ _ _ hs
  · intro t ht
    exact ht.nextPre start _
  · exact fun t hheld hnot => absurd hheld hnot
  · exact fun t ht => ht.set_operation t.pendingScans_worker_le
  · exact fun t ht => ht.set_operation t.pendingScans_free_le
  · exact fun t ht => ht.set_operation t.pendingScans_free_le
  · intro t ht
    exact wp_processItem_pending untouched_held item ht

/-- The recovery leads from a transitional mode to a transitional one. -/
theorem recover_transitional {self : NetworkController} (h : self.mode.transitional = true) :
    (Locked.recover self).2.mode.transitional = true := by
  unfold Locked.recover Locked.apply transition
  cases hmode : self.mode <;> simp_all [NetworkMode.transitional, transitions]

/-- The recovery ends the item. -/
theorem wp_recoverUnexpectedFailure_pending (hs : Pending s) :
    (Worker.recoverUnexpectedFailure backend).wp
      (workerEnv backend undisturbedScans (nextPre start)) (fun _ => Calm) (fun _ => Calm) s := by
  apply wp_bind.mpr
  have hblock : (Worker.locked Locked.recover).wp
      (workerEnv backend undisturbedScans (nextPre start)) (fun _ => Pending) (fun _ => Pending)
      s := by
    apply wp_locked_steady steady_pending (fun _ => steady_pending) steady_pending
    · intro t ht
      exact ht.nextPre start _
    · intro t ht hlock _
      -- the item was taken in a transitional mode, and the block leaves one
      have hmode : t.controller.mode.transitional = true := by
        rw [← Shared.view_of_lock hlock]
        exact ht.mode
      have hset := ht.set_transitional hlock (recover_transitional hmode)
      exact ⟨fun _ _ => hset, fun _ _ => hset⟩
    · exact hs
  apply wp_mono hblock
  · intro restore t ht
    -- the access point is restored, which ends at rest; else the mode is left as it is
    cases restore with
    | true =>
      apply wp_mono (wp_restoreProvisioning_pending untouched_true _ ⟨ht, trivial⟩)
      · exact fun _ _ hu => hu.1
      · exact fun _ _ hu => hu.1.calm
    | false => exact wp_ret_steady (fun _ => steady_calm) ht.calm
  · exact fun _ _ ht => ht.calm

/-- `task_done` leaves the calm. -/
theorem wp_taskDone_calm (hs : Calm s) :
    (Prog.op .taskDone .ret : Worker B Ans Unit).wp
      (workerEnv backend undisturbedScans (nextPre start)) (fun _ => Calm) (fun _ => Calm) s := by
  intro t ht
  have ht := steady_calm.later hs ht
  refine ⟨fun _ => ⟨ht, Or.inr (Or.inl rfl)⟩, ?_⟩
  intro r w hexec
  obtain ⟨answers, -, hx⟩ := hexec
  obtain ⟨-, hw⟩ := Prod.mk.inj (Option.some.inj hx)
  rw [← hw]
  exact wp_ret_steady (fun _ => steady_calm) ht

/-- An item is taken in a transitional mode, with no scan waiting. -/
theorem Calm.take (h : Calm s) {item : WorkItem} {rest : BoundedQueue WorkItem 1}
    (hget : s.work.get? = some (item, rest)) : Pending (s.take item rest) := by
  have hqueued : s.work.items ≠ [] := by
    rw [BoundedQueue.get?_eq_some hget]
    exact List.cons_ne_nil _ _
  have hmode := h.queued hqueued
  refine ⟨BoundedQueue.items_eq_nil_of_get? hget, ?_, hmode⟩
  by_contra hscans
  have hscannable := h.waiting (Nat.pos_of_ne_zero hscans)
  rw [not_transitional_of_scannable hscannable] at hmode
  exact absurd hmode (by simp)

/-- `process_next` leads from calm to calm. -/
theorem wp_processNext_calm (hs : Calm start) :
    (Worker.processNext backend).wp (workerEnv backend undisturbedScans (nextPre start))
      (fun _ => Calm) (fun _ => Calm) start := by
  intro t ht
  obtain ⟨hcalm, htaken⟩ := (steady_calm.and (steady_taken start.history.taken)).later ⟨hs, rfl⟩ ht
  refine ⟨fun _ => ⟨hcalm, Or.inl htaken⟩, ?_⟩
  intro r w hexec
  obtain ⟨answers, -, hx⟩ := hexec
  simp only [workerExec] at hx
  split at hx
  · obtain ⟨rfl, rfl⟩ := Prod.mk.inj (Option.some.inj hx)
    exact wp_ret_steady (fun _ => steady_calm) hcalm
  · next item rest hget =>
    obtain ⟨rfl, rfl⟩ := Prod.mk.inj (Option.some.inj hx)
    apply wp_bind.mpr
    apply wp_finallyDo.mpr
    have hdone : ∀ (p : Worker B Ans Unit) (u : Shared B Ans),
        (∀ v, Calm v → p.wp (workerEnv backend undisturbedScans (nextPre start))
          (fun _ => Calm) (fun _ => Calm) v) → Calm u →
        (Prog.op .taskDone .ret : Worker B Ans Unit).wp
          (workerEnv backend undisturbedScans (nextPre start))
          (fun _ => p.wp (workerEnv backend undisturbedScans (nextPre start))
            (fun _ => (Prog.ret true : Worker B Ans Bool).wp
              (workerEnv backend undisturbedScans (nextPre start)) (fun _ => Calm) fun _ => Calm)
            fun _ => Calm) (fun _ => Calm) u := by
      intro p u hp hu
      apply wp_mono (wp_taskDone_calm hu)
      · intro _ v hv
        apply wp_mono (hp v hv)
        · intro _ x hx
          exact wp_ret_steady (fun _ => steady_calm) hx
        · exact fun _ _ hx => hx
      · exact fun _ _ hv => hv
    apply wp_handle.mpr
    apply wp_mono (wp_processItem_locked_pending item (hcalm.take hget))
    · intro _ u hu v hv
      exact hdone (.ret ()) v (fun x hx => wp_ret_steady (fun _ => steady_calm) hx)
        (steady_calm.later hu hv)
    · intro e u hu
      -- the recovery runs without the lock, and its own exception wins
      have hraised : ∀ (e' : PyErr) (v : Shared B Ans), Calm v → _ := fun e' v hv =>
        hdone (.raise e') v (fun x hx => wp_raise_steady steady_calm e' hx) hv
      split
      · apply wp_bind.mpr
        apply wp_mono (wp_recoverUnexpectedFailure_pending hu)
        · intro _ v hv x hx
          exact hraised e x (steady_calm.later hv hx)
        · exact fun e' v hv => hraised e' v hv
      · intro v hv
        exact hraised e v (steady_calm.later hu.calm hv)

end

/-! ## `reconcile`

The check of the network leaves the mode alone, unless the network has gone; then the mode is
`TRANSITION` while the access point is brought back. -/

/-- What is demanded where an operation of a `reconcile` is issued, whenever the worker has not got
`_operation_lock`. -/
def reconcilePre (_ : WorkerOp B) (s : Shared B Ans) : Prop :=
  s.operation ≠ some .worker → Calm s

section

variable {s t : AnyState}

/-- A call of the backend whose failure is caught. -/
theorem wp_callOr_steady {c : BackendCall} {fallback : c.Result} {P : AnyState → Prop}
    (hP : Steady P) (hrecord : ∀ t e, P t → P (t.record .worker e))
    (hpre : ∀ t, P t → reconcilePre (.backend c) t) (hs : P s) :
    (Worker.orOnFailure (Worker.ofBackend (.op c BackendCall.outcome)) fun _ =>
      (Prog.ret fallback : Worker BackendCall BackendCall.Answer c.Result)).wp
        (workerEnv anyBackend undisturbedScans reconcilePre) (fun _ => P) (fun _ _ => False) s := by
  apply wp_handle.mpr
  intro t ht
  have ht := hP.later hs ht
  refine ⟨hpre t ht, ?_⟩
  intro r w hexec
  obtain ⟨answers, -, hx⟩ := hexec
  obtain ⟨rfl, rfl⟩ := Prod.mk.inj (Option.some.inj hx)
  have hw := hrecord t ⟨c, answers c⟩ ht
  -- an answer is passed on, and an error is replaced: both change the log only
  generalize answers c = ans at hw ⊢
  cases ans with
  | ok a =>
    intro u hu
    exact wp_ret_steady (fun _ => hP) (hP.later hw hu)
  | error e =>
    intro u hu
    show Prog.wp _ (if e.val.handled then _ else _) _ _ u
    rw [if_pos e.property]
    exact wp_ret_steady (fun _ => hP) (hP.later hw hu)

/-- The access point is brought back while the worker has the operation lock. -/
theorem wp_restoreProvisioning_restoring (prior : Option String) (hs : Restoring s) :
    (Worker.restoreProvisioning anyBackend prior).wp
      (workerEnv anyBackend undisturbedScans reconcilePre)
      (fun _ s => Calm s ∧ s.operation = some .worker) (fun _ _ => False) s := by
  have hpre : ∀ (o : WorkerOp BackendCall) (t : AnyState), Restoring t → reconcilePre o t := by
    intro o t ht hnot
    exact absurd ht.held hnot
  -- in `TRANSITION` neither event raises
  have hblock : ∀ (event : NetworkEvent) (next : NetworkMode) (reason : Option String)
      (t : AnyState), transitions .transition event = some next →
      (next = .provisioningAp ∨ next = .error) → Restoring t →
      (Worker.locked (Locked.applyThenSet event none reason)).wp
        (workerEnv anyBackend undisturbedScans reconcilePre)
        (fun _ s => Calm s ∧ s.operation = some .worker) (fun _ _ => False) t := by
    intro event next reason t hnext hcases ht
    apply wp_locked_steady steady_restoring (fun _ => steady_calm.and steady_held)
      (fun _ _ h _ => h) (hpre _) _ ht
    intro u hu hlock hchecked
    have hmode : u.controller.mode = .transition := by
      rw [← Shared.view_of_lock hlock]
      exact hu.mode
    have hresult : Locked.applyThenSet event none reason u.controller
        = (.ok (), { mode := next, stationSsid := none, lastError := reason }) := by
      unfold Locked.applyThenSet Locked.apply transition
      rw [hmode, hnext]
    rw [hresult] at hchecked ⊢
    refine ⟨fun _ _ => ⟨⟨fun hqueue => absurd hu.queue hqueue, ?_⟩, hu.held⟩, ?_⟩
    · intro hwaiting
      rw [Shared.view_set hlock]
      show next.scannable = true
      rcases hcases with hready | hfailed
      · rw [hready]
        rfl
      · exact absurd hfailed (hchecked hwaiting)
    · intro e he
      exact absurd he (by simp)
  apply wp_bind.mpr
  apply wp_mono (wp_callOr_steady steady_restoring
    (fun t e ht => ⟨ht.queue, ht.mode, ht.held⟩) (hpre _) hs)
  · intro result t ht
    obtain ⟨success, apError⟩ := result
    cases success with
    | true => exact hblock .apReady _ _ t rfl (Or.inl rfl) ht
    | false => exact hblock .apFailed _ _ t rfl (Or.inr rfl) ht
  · exact fun _ _ ht => ht

/-- The check of a reconciliation, and the AP restored where it says so. -/
theorem wp_check_calm {body : Locked Bool} (prior : String)
    (hbody : ∀ self, ((body self).1 = .ok false ∧ ∃ ssid,
        (body self).2 = { self with stationSsid := ssid }) ∨
      ((body self).1 = .ok true ∧ (body self).2.mode = .transition ∧
        (self.mode = .stationConnected ∨ self.mode = .provisioningAp)))
    (hs : Calm s ∧ s.operation = some .worker) :
    ((Worker.locked body).bind fun restore =>
      if restore then Worker.restoreProvisioning anyBackend (some prior)
      else (Prog.ret () : Worker BackendCall BackendCall.Answer Unit)).wp
        (workerEnv anyBackend undisturbedScans reconcilePre)
        (fun _ s => Calm s ∧ s.operation = some .worker) (fun _ _ => False) s := by
  apply wp_bind.mpr
  -- what the block under the lock leaves to the backend call after it
  have hblock : (Worker.locked body).wp (workerEnv anyBackend undisturbedScans reconcilePre)
      (fun restore s => if restore then Restoring s else Calm s ∧ s.operation = some .worker)
      (fun _ _ => False) s := by
    apply wp_locked_steady (steady_calm.and steady_held) _ (fun _ _ h _ => h) _ _ hs
    · intro restore
      cases restore with
      | true => exact steady_restoring
      | false => exact steady_calm.and steady_held
    · exact fun t ht _ => ht.1
    · intro t ht hlock _
      rcases hbody t.controller with ⟨hres, ssid, hself⟩ | ⟨hres, hmode, hlost⟩
      · -- nothing is to be restored, and the mode that the others see stays
        rw [hres, hself]
        refine ⟨?_, fun e he => absurd he (by simp)⟩
        intro restore hrestore
        rw [← Except.ok.inj hrestore]
        have hview : t.view = t.controller := Shared.view_of_lock hlock
        have hcalm := ht.1
        refine ⟨⟨?_, ?_⟩, ht.2⟩
        · rw [Shared.view_set hlock]
          intro hqueue
          have hmode := hcalm.queued hqueue
          rw [hview] at hmode
          exact hmode
        · rw [Shared.view_set hlock]
          intro hwaiting
          have hmode := hcalm.waiting hwaiting
          rw [hview] at hmode
          exact hmode
      · rw [hres]
        refine ⟨?_, fun e he => absurd he (by simp)⟩
        intro restore hrestore
        rw [← Except.ok.inj hrestore]
        refine ⟨?_, ?_, ht.2⟩
        · -- the mode was not transitional, so nothing was queued
          by_contra hqueue
          have hcalm := ht.1.queued hqueue
          rw [Shared.view_of_lock hlock] at hcalm
          rcases hlost with hlost | hlost
          · rw [hlost] at hcalm
            exact absurd hcalm (by simp [NetworkMode.transitional])
          · rw [hlost] at hcalm
            exact absurd hcalm (by simp [NetworkMode.transitional])
        · rw [Shared.view_set hlock]
          exact hmode
  -- what is left is the restoration, or nothing
  apply wp_mono hblock
  · intro restore t ht
    cases restore with
    | true => exact wp_restoreProvisioning_restoring _ ht
    | false => exact wp_ret_steady (fun _ => steady_calm.and steady_held) ht
  · exact fun _ _ ht => ht

/-- The check of the station. -/
theorem wp_reconcileStation_calm (hs : Calm s ∧ s.operation = some .worker) :
    (Worker.reconcileStation anyBackend).wp (workerEnv anyBackend undisturbedScans reconcilePre)
      (fun _ s => Calm s ∧ s.operation = some .worker) (fun _ _ => False) s := by
  apply wp_bind.mpr
  apply wp_mono (wp_callOr_steady (steady_calm.and steady_held)
    (fun t e ht => ⟨⟨ht.1.queued, ht.1.waiting⟩, ht.2⟩) (fun t ht _ => ht.1) hs)
  · intro ssid t ht
    exact wp_check_calm _ (checkStation_cases ssid) ht
  · exact fun _ _ ht => ht

/-- The check of the access point. -/
theorem wp_reconcileProvisioning_calm (hs : Calm s ∧ s.operation = some .worker) :
    (Worker.reconcileProvisioning anyBackend).wp
      (workerEnv anyBackend undisturbedScans reconcilePre)
      (fun _ s => Calm s ∧ s.operation = some .worker) (fun _ _ => False) s := by
  apply wp_bind.mpr
  apply wp_mono (wp_callOr_steady (steady_calm.and steady_held)
    (fun t e ht => ⟨⟨ht.1.queued, ht.1.waiting⟩, ht.2⟩) (fun t ht _ => ht.1) hs)
  · intro ready t ht
    cases ready with
    | true => exact wp_ret_steady (fun _ => steady_calm.and steady_held) ht
    | false => exact wp_check_calm _ checkProvisioning_cases ht
  · exact fun _ _ ht => ht

/-- `reconcile` leads from calm to calm. -/
theorem wp_reconcile_calm (hs : Calm s) :
    (Worker.reconcile anyBackend).wp (workerEnv anyBackend undisturbedScans reconcilePre)
      (fun _ => Calm) (fun _ _ => False) s := by
  apply wp_bind.mpr
  -- the snapshot reads the controller and changes nothing
  have hsnapshot : (Worker.locked Locked.snapshot).wp
      (workerEnv anyBackend undisturbedScans reconcilePre) (fun _ => Calm) (fun _ _ => False)
      s := by
    apply wp_locked_steady steady_calm (fun _ => steady_calm) (fun _ _ h _ => h)
      (fun t ht _ => ht) _ hs
    intro t ht _ _
    exact ⟨fun _ _ => ht, fun e he => absurd he (by simp [Locked.snapshot])⟩
  apply wp_mono hsnapshot
  · intro snapshot t ht
    -- the lock is taken with the scans as they are: a pending one goes on waiting
    apply wp_withOperation_steady steady_calm steady_calm (fun _ _ h _ => h) (fun u hu _ => hu)
      _ _ _ (fun _ h => h) _ ht
    · exact fun u hheld hnot => absurd hheld hnot
    · exact fun u hu => hu.set_operation u.pendingScans_worker_le
    · exact fun u hu => hu.set_operation u.pendingScans_free_le
    · intro u hu
      -- the abstract backend raises nothing here
      have hnone : ∀ (e : PyErr) (v : AnyState), False → False ∧ v.operation = some .worker :=
        fun _ _ h => h.elim
      split
      · exact wp_mono (wp_reconcileStation_calm hu) (fun _ _ h => h) hnone
      · exact wp_mono (wp_reconcileProvisioning_calm hu) (fun _ _ h => h) hnone
      · exact wp_mono (wp_ret_steady (fun _ => steady_calm.and steady_held) hu)
          (fun _ _ h => h) hnone
  · exact fun _ _ ht => ht

end

/-! ## Runs

The two programs put together, and the theorem about the step in which the backend is asked. -/

/-- The programs the worker is in the middle of are those verified above. -/
def ScanSafe (d : DaemonState BackendCall BackendCall.Answer) : Prop :=
  match d.worker with
  | .idle => Calm d.shared
  | .processing start p => p.wp (workerEnv anyBackend undisturbedScans (nextPre start))
      (fun _ => Calm) (fun _ => Calm) d.shared
  | .reconciling p => p.wp (workerEnv anyBackend undisturbedScans reconcilePre)
      (fun _ => Calm) (fun _ _ => False) d.shared

/-- A step of the daemon keeps the worker within what was verified. -/
theorem scanSafe_step {d d' : DaemonState BackendCall BackendCall.Answer}
    {a : Action BackendCall BackendCall.Answer} (h : ScanSafe d)
    (hok : undisturbedScans.ok d a) (hs : daemonStep anyBackend a d = some d') : ScanSafe d' := by
  obtain ⟨s, worker⟩ := d
  cases a with
  -- a client moves under the worker: what is left of its program holds from any state that follows
  | client a =>
    obtain ⟨⟨reply, t⟩, hc, hd⟩ := Option.map_eq_some_iff.mp hs
    cases hd
    have hstep : ClientStep anyBackend undisturbedScans s t := ⟨a, reply, hok, hc⟩
    cases worker with
    | idle => exact steady_calm s t h (clientStep_scanMove hok hc)
    | processing start p => exact Prog.wp_later h (.single hstep)
    | reconciling p => exact Prog.wp_later h (.single hstep)
  | begin call =>
    cases worker with
    | idle =>
      cases call with
      | processNext =>
        cases hs
        exact wp_processNext_calm h
      | reconcile =>
        cases hs
        exact wp_reconcile_calm h
    | processing start p => cases call <;> cases hs
    | reconciling p => cases call <;> cases hs
  | work answers =>
    cases worker with
    | idle => cases hs
    | processing start p =>
      obtain ⟨⟨p', t⟩, hw, hd⟩ := Option.map_eq_some_iff.mp hs
      cases hd
      exact workStep_wp h hok hw
    | reconciling p =>
      obtain ⟨⟨p', t⟩, hw, hd⟩ := Option.map_eq_some_iff.mp hs
      cases hd
      exact workStep_wp h hok hw
  -- a call that has returned: its postcondition is what the next call starts from
  | finishCall =>
    cases worker with
    | idle => cases hs
    | processing start p =>
      cases p with
      | ret b =>
        cases hs
        exact h s .refl
      | raise e =>
        cases hs
        exact h s .refl
      | op o k => cases hs
    | reconciling p =>
      cases p with
      | ret b =>
        cases hs
        exact h s .refl
      | raise e => exact (h s .refl).elim
      | op o k => cases hs
  | restart =>
    cases hs
    -- a new process has an empty queue and no scan
    exact ⟨fun hqueue => absurd rfl hqueue, fun hwaiting => absurd hwaiting (Nat.lt_irrefl 0)⟩

/-- A request that holds `_lock` is about to set a transitional mode. -/
def LockTransitional (s : Shared B Ans) : Prop :=
  ∀ r next, s.lock = some (r, next) → next.transitional = true

/-- A client's step keeps it. -/
theorem lockTransitional_clientStep {a : ClientAction B Ans} {reply : Reply}
    (h : LockTransitional s) (hs : clientStep backend a s = some (reply, t)) :
    LockTransitional t := by
  cases a with
  -- a request that is accepted takes the lock, with a transitional mode to commit
  | request r =>
    simp only [clientStep] at hs
    split at hs
    · exact absurd hs (by simp)
    · rcases request_cases (Option.some.inj hs) with ⟨hsame, -⟩ | ⟨-, next, work, hnext, -, ht⟩
      · rw [hsame]
        exact h
      · rw [ht]
        intro r' next' hlock
        obtain ⟨-, heq⟩ := Prod.mk.inj (Option.some.inj hlock)
        rw [← heq]
        exact request_transitional hnext
  | finishRequest =>
    simp only [clientStep] at hs
    split at hs
    · exact absurd hs (by simp)
    · cases hs
      intro r next hlock
      exact absurd hlock (by simp)
  -- a scan does not touch the state's lock
  | scanCheck | scanEnter | scanStep answers | scanLeave =>
    simp only [clientStep] at hs
    repeat' split at hs
    all_goals
      cases hs
      try exact h

/-- The worker leaves `_lock` as it is between its operations. -/
theorem workerExec_lock {answers : (b : B) → Ans b} {o : WorkerOp B} {r : WorkerAns Ans o}
    (h : workerExec answers o s = some (r, t)) : t.lock = s.lock := by
  cases o with
  | workGet =>
    simp only [workerExec] at h
    split at h
    · cases h
      rfl
    · cases h
      rfl
  | taskDone | releaseOperation | backend b =>
    cases h
    rfl
  | acquireOperation | locked body =>
    simp only [workerExec] at h
    split at h
    · cases h
      rfl
    · cases h

/-- It holds in every run. -/
theorem lockTransitional_of_run {D : Discipline B Ans} {as : List (Action B Ans)}
    {d : DaemonState B Ans} (run : (daemon backend).Run D.ok .init as d) :
    LockTransitional d.shared := by
  have hinit : LockTransitional (Shared.init : Shared B Ans) :=
    fun _ _ hlock => absurd hlock (by simp [Shared.init])
  apply run.invariant (I := fun d => LockTransitional d.shared) hinit
  intro d a d' hd _ hs
  cases daemonStep_move hs with
  | client hc => exact lockTransitional_clientStep hd hc
  | worker _ hx =>
    intro r next hlock
    rw [workerExec_lock hx] at hlock
    exact hd r next hlock
  | silent hsame =>
    rw [hsame]
    exact hd
  | restart hsame =>
    rw [hsame]
    exact hinit

/-- Whenever the worker has not got `_operation_lock`, the state is calm. -/
theorem ScanSafe.calm {d : DaemonState BackendCall BackendCall.Answer} (h : ScanSafe d)
    (hfree : d.shared.operation ≠ some .worker) : Calm d.shared := by
  obtain ⟨s, worker⟩ := d
  cases worker with
  | idle => exact h
  | processing start p =>
    cases p with
    | ret b => exact h s .refl
    | raise e => exact h s .refl
    | op o k => exact ((h s .refl).1 hfree).1
  | reconciling p =>
    cases p with
    | ret b => exact h s .refl
    | raise e => exact (h s .refl).elim
    | op o k => exact (h s .refl).1 hfree

/-- An item in hand keeps the mode transitional, whenever the worker has not got
`_operation_lock`. -/
theorem ScanSafe.inHand {d : DaemonState BackendCall BackendCall.Answer} (h : ScanSafe d)
    (hfree : d.shared.operation ≠ some .worker) (hhand : InHand d) :
    d.shared.view.mode.transitional = true := by
  obtain ⟨s, worker⟩ := d
  obtain ⟨start, p, hworker, htaken, hunfinished⟩ := hhand
  obtain rfl : worker = .processing start p := hworker
  cases p with
  | ret b => exact absurd hunfinished (by simp [unfinished])
  | raise e => exact absurd hunfinished (by simp [unfinished])
  | op o k =>
    rcases ((h s .refl).1 hfree).2 with hsame | rfl | hmode
    · exact absurd hsame htaken
    · exact absurd hunfinished (by simp [unfinished])
    · exact hmode

/-- **No scan runs across a transition**, in a run in which, from the check of a scan to its call of
`backend.scan()`, no request is accepted and no mode is set to `ERROR`, and no request is accepted in
`STATION_CONNECTING`: wherever `backend.scan()` is called, the mode is one that admits a scan, and
no request is queued or in hand. -/
theorem scan_clear {as : List (Action BackendCall BackendCall.Answer)}
    {d : DaemonState BackendCall BackendCall.Answer}
    {answers : (b : BackendCall) → BackendCall.Answer b} {reply : Reply} {t : AnyState}
    (run : (daemon anyBackend).Run undisturbedScans.ok .init as d)
    (h : clientStep anyBackend (.scanStep answers) d.shared = some (reply, t)) : ScanClear d := by
  have hinit : ScanSafe .init :=
    ⟨fun hqueue => absurd rfl hqueue, fun hwaiting => absurd hwaiting (Nat.lt_irrefl 0)⟩
  have hsafe : ScanSafe d := run.invariant hinit fun _ _ _ hd hok hs => scanSafe_step hd hok hs
  have hlocks := lockTransitional_of_run run
  obtain ⟨hwaiting, hfree⟩ : 0 < d.shared.pendingScans ∧ d.shared.operation ≠ some .worker := by
    simp only [clientStep] at h
    split at h
    · next b k hscan => exact ⟨by simp [Shared.pendingScans, hscan], by simp [hscan]⟩
    · exact absurd h (by simp)
  -- a client has `_operation_lock`, so the worker is not in the middle of an operation
  have hcalm := hsafe.calm hfree
  have hscannable := hcalm.waiting hwaiting
  have hnot := not_transitional_of_scannable hscannable
  refine ⟨?_, ?_, ?_⟩
  · have hlock : d.shared.lock = none := by
      -- a request that holds the lock has already made the mode a transition
      cases hlock : d.shared.lock with
      | none => rfl
      | some request =>
        obtain ⟨r, next⟩ := request
        have hmode : d.shared.view.mode = next := by
          rw [Shared.view, hlock]
          exact Request.commit_mode r next _
        rw [hmode, hlocks r next hlock] at hnot
        exact absurd hnot (by simp)
    rw [Shared.view_of_lock hlock] at hscannable
    revert hscannable
    cases d.shared.controller.mode <;> simp [NetworkMode.scannable]
  · by_contra hqueue
    rw [hcalm.queued hqueue] at hnot
    exact absurd hnot (by simp)
  · intro hhand
    rw [hsafe.inHand hfree hhand] at hnot
    exact absurd hnot (by simp)

/-- The boot ends in the AP, and a scan passes its check of the mode. -/
def checkedScan : List (Action BackendCall BackendCall.Answer) :=
  requesting .boot ++ [.begin .processNext] ++ working 8 false false true ++
    [.finishCall, .client .scanCheck]

/-- The scan gets `_operation_lock` and calls `backend.scan()`, which returns. -/
theorem scan_clear_checkedScan : ∃ d : DaemonState BackendCall BackendCall.Answer,
    (daemon anyBackend).Run undisturbedScans.ok .init (checkedScan ++ [.client .scanEnter]) d ∧
      ScanClear d := by
  have h : (((daemon anyBackend).exec undisturbedScans.check
      (checkedScan ++ [.client .scanEnter]) .init).any fun d =>
        (clientStep anyBackend (.scanStep (answering false false true)) d.shared).isSome) = true := by
    decide
  obtain ⟨d, hd, hstep⟩ := (Option.any_eq_true _ _).mp h
  obtain ⟨⟨reply, t⟩, hstep⟩ := Option.isSome_iff_exists.mp hstep
  have run := System.run_of_exec hd
  exact ⟨d, run, scan_clear run hstep⟩

/-- **A request accepted after the check is overtaken by the scan.** -/
theorem not_scan_clear : ¬∀ as (d : DaemonState BackendCall BackendCall.Answer) answers reply t,
    (daemon anyBackend).Run Discipline.any.ok .init as d →
      clientStep anyBackend (.scanStep answers) d.shared = some (reply, t) → ScanClear d := by
  intro hall
  have h : (((daemon anyBackend).exec Discipline.any.check
      (checkedScan ++ requesting (.connect "cave" none) ++ [.client .scanEnter]) .init).any fun d =>
        (clientStep anyBackend (.scanStep (answering false false true)) d.shared).isSome &&
          decide (d.shared.controller.mode = .transition)) = true := by decide
  obtain ⟨d, hd, hstate⟩ := (Option.any_eq_true _ _).mp h
  rw [Bool.and_eq_true, decide_eq_true_eq] at hstate
  obtain ⟨hstep, htransition⟩ := hstate
  obtain ⟨⟨reply, t⟩, hstep⟩ := Option.isSome_iff_exists.mp hstep
  have hclear := hall _ d _ reply t (System.run_of_exec hd) hstep
  rcases hclear.mode with hmode | hmode
  · rw [htransition] at hmode
    exact absurd hmode (by simp)
  · rw [htransition] at hmode
    exact absurd hmode (by simp)

end Rave
