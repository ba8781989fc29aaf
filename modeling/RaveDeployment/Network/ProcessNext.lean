import RaveDeployment.Network.WorkerSpec

/-!
# What `process_next` and `reconcile` do

An item is worked off by a few backend calls. `CallsOf` says which of them the item decides, and
`Ending` how the calls and the mode they leave behind are related:

* the mode tells how the last activation went, and every failed attempt was followed by an
  `activate_provisioning`; or
* the worker raised, having found the controller in a mode it should not be in, and left `ERROR`
  behind. This needs an item taken in a mode that is not transitional.

`wp_processNext` and `wp_reconcile` are the two facts about the worker that the later theorems
rest on.
-/

namespace Rave

open Prog

variable {D : AnyDiscipline} {s t u : AnyState} {cs : List CallEvent} {m : NetworkMode}

/-- What an item decides of the calls it leads to. -/
structure CallsOf (item : WorkItem) (cs : List CallEvent) : Prop where
  requested : cs.filterMap CallEvent.requested = [item].filter (· ≠ .provisioning)
  provisioning : item = .provisioning → ∀ e ∈ cs, e.isProvisioning = true

/-- Every failed attempt is followed by an `activate_provisioning`. -/
def Recovers (cs : List CallEvent) : Prop :=
  ∀ before e after, cs = before ++ e :: after → e.failedAttempt = true →
    ∃ e' ∈ after, e'.isProvisioning = true

/-- How the calls `cs` for an item and the mode `m` they end in are related. -/
def Ending (start : NetworkMode) (raised : Bool) (cs : List CallEvent) (m : NetworkMode) : Prop :=
  ((∃ e, lastActivation cs = some e ∧ e.modeAfter = some m) ∧ Recovers cs) ∨
    (raised = true ∧ m = .error ∧ ¬start.transitional = true)

/-! ## The calls of an item

Which calls of the backend an item leads to, and in which mode they leave the controller. -/

/-- The access point may be restored at the end. -/
theorem CallsOf.concat_provisioning {item : WorkItem}
    {ans : BackendCall.activateProvisioning.Answer} (h : CallsOf item cs) :
    CallsOf item (cs ++ [provisioningEvent ans]) where
  requested := by
    rw [List.filterMap_append, h.requested]
    exact List.append_nil _
  provisioning hitem e he := by
    rcases List.mem_append.mp he with he | he
    · exact h.provisioning hitem e he
    · rw [List.mem_singleton.mp he]
      rfl

/-- Restoring at the end recovers from every failure. -/
theorem Recovers.concat_provisioning (cs : List CallEvent)
    (ans : BackendCall.activateProvisioning.Answer) : Recovers (cs ++ [provisioningEvent ans]) := by
  intro before e after hcs he
  rcases List.eq_nil_or_concat after with rfl | ⟨init, last, rfl⟩
  · -- the failed attempt cannot be the provisioning itself
    obtain rfl := List.singleton_inj.mp (List.append_inj' hcs rfl).2
    exact absurd he (by simp [CallEvent.failedAttempt])
  · have hcs' : cs ++ [provisioningEvent ans] = (before ++ e :: init) ++ [last] := by
      simpa using hcs
    obtain rfl := List.singleton_inj.mp (List.append_inj' hcs' rfl).2
    exact ⟨provisioningEvent ans, by simp, rfl⟩

/-- Where no attempt fails there is nothing to recover from. -/
theorem Recovers.of_forall (h : ∀ e ∈ cs, e.failedAttempt = false) : Recovers cs := by
  intro before e after hcs he
  rw [h e (by simp [hcs])] at he
  exact absurd he (by simp)

/-- Calls that end in an `activate_provisioning` end well. -/
theorem Ending.provisioning (start : NetworkMode) (raised : Bool) (cs : List CallEvent)
    (ans : BackendCall.activateProvisioning.Answer) :
    Ending start raised (cs ++ [provisioningEvent ans]) (apMode ans) := by
  refine .inl ⟨⟨provisioningEvent ans, ?_, rfl⟩, .concat_provisioning cs ans⟩
  exact lastActivation_concat rfl

/-! ## Items

The programs of the three items, over a backend that answers anything. -/

/-- The item was worked off: what it led to, and the mode it was settled in. -/
def ItemDone (D : AnyDiscipline) (item : WorkItem) (raised : Bool) (s t : AnyState) : Prop :=
  ∃ cs m, Settled D s t cs m ∧ CallsOf item cs ∧ Ending s.view.mode raised cs m

/-- The item was given up: `process_next` has to recover from it. -/
def ItemFailed (item : WorkItem) (s t : AnyState) : Prop :=
  ∃ cs, Through s t cs ∧ CallsOf item cs

/-- A station attempt and what is made of its result. -/
theorem wp_attempt_settle {c : BackendCall} {item : WorkItem} {pre : List CallEvent}
    (result : c.Result → Bool × Option String × Option String) (fallback : String)
    (hpre : Through s t pre) (hpreok : ∀ e ∈ pre, e.failedAttempt = false)
    (hstation : ∀ a, CallEvent.modeAfter ⟨c, .ok a⟩ =
      if (result a).1 then some .stationConnected else none)
    (hact : ∀ ans, CallEvent.isActivation ⟨c, ans⟩ = true)
    (hsucc : ∀ a, (result a).1 = true → CallEvent.failedAttempt ⟨c, .ok a⟩ = false)
    (hcalls : ∀ ans, CallsOf item (pre ++ [⟨c, ans⟩])) :
    ((Worker.ofBackend (.op c BackendCall.outcome)).bind fun a =>
      Worker.settleAttempt anyBackend (result a) fallback).wp (anyEnv D)
        (fun _ => ItemDone D item false s)
        (fun e v => e.handled = true ∧ ItemFailed item s v) t := by
  refine wp_bind.mpr (wp_call ?_ ?_)
  -- the activation returned: it is the last one of the item, and its result settles the mode
  · intro u a hu
    have hsu : Through s u (pre ++ [⟨c, .ok a⟩]) := hpre.trans hu
    refine wp_mono (wp_settleAttempt (result a) fallback) ?_ ?_
    · rintro _ v (⟨ha, hv⟩ | ⟨-, ans, hv⟩)
      · refine ⟨_, _, hsu.settled hv, ?_, .inl ⟨⟨⟨c, .ok a⟩, ?_, ?_⟩, ?_⟩⟩
        · simpa using hcalls (.ok a)
        · rw [List.append_nil]
          exact lastActivation_concat (hact (.ok a))
        · rw [hstation, if_pos ha]
        · refine .of_forall fun e he => ?_
          simp only [List.append_nil, List.mem_append, List.mem_singleton] at he
          rcases he with he | rfl
          · exact hpreok e he
          · exact hsucc a ha
      -- it failed, so the access point is the last thing that was asked for
      · exact ⟨_, _, hsu.settled hv, (hcalls (.ok a)).concat_provisioning,
          .provisioning _ _ _ _⟩
    · rintro e v ⟨he, hv, -⟩
      exact ⟨he, _, hsu.trans hv, by simpa using hcalls (.ok a)⟩
  -- the activation raised: no attempt of the item has been settled
  · exact fun u e hu => ⟨e.property, _, hpre.trans hu, hcalls (.error e)⟩

/-- `_process_connect` settles the item or gives it up. -/
theorem wp_processConnect (ssid : String) (password : Option String) :
    (Worker.processConnect anyBackend ssid password).wp (anyEnv D)
      (fun _ => ItemDone D (.connect ssid password) false s)
      (fun e t => e.handled = true ∧ ItemFailed (.connect ssid password) s t) s := by
  have hpre : Through s s [] := .of_later ((anyEnv D).later_refl s)
  refine wp_attempt_settle (c := .connectStation ssid password) id "station_timeout"
    hpre (by simp) ?_ (fun _ => rfl) ?_ ?_
  · exact fun a => rfl
  · intro a ha
    simpa [CallEvent.failedAttempt, CallEvent.succeeded] using ha
  · exact fun ans => ⟨rfl, by simp⟩

/-- `_process_boot` settles the item or gives it up. -/
theorem wp_processBoot :
    (Worker.processBoot anyBackend).wp (anyEnv D) (fun _ => ItemDone D .boot false s)
      (fun e t => e.handled = true ∧ ItemFailed .boot s t) s := by
  refine wp_bind.mpr (wp_call ?_ ?_)
  · intro t saved ht
    cases saved with
    -- a saved station is activated, and the attempt is settled as for a connection
    | true =>
      refine wp_attempt_settle (c := .activateSavedStation) id "saved_station_timeout" ht ?_ ?_
        (fun _ => rfl) ?_ ?_
      · simp [CallEvent.failedAttempt, CallEvent.succeeded]
      · exact fun a => rfl
      · intro a ha
        simpa [CallEvent.failedAttempt, CallEvent.succeeded] using ha
      · exact fun ans => ⟨rfl, by simp⟩
    | false =>
      -- without one the event has a target in the mode that the item was taken in only
      have hevent : ∀ c, transitions c .noSavedNetwork = none ∨
          transitions c .noSavedNetwork = some .transition := by
        intro c
        cases c <;> simp [transitions]
      refine wp_bind.mpr (wp_mono (wp_apply hevent) ?_ ?_)
      · rintro _ u ⟨hu, hmode⟩
        refine wp_mono (wp_restoreProvisioning_transition _ hmode) ?_ (fun _ _ h => h.elim)
        rintro _ v ⟨ans, hv⟩
        have hsv := (ht.trans hu).settled hv
        exact ⟨_, _, hsv, .concat_provisioning ⟨rfl, by simp⟩, .provisioning _ _ _ _⟩
      · rintro e u ⟨he, hu, -⟩
        exact ⟨he, _, ht.trans hu, rfl, by simp⟩
  · exact fun t e ht => ⟨e.property, _, ht, rfl, by simp⟩

/-- **One item**, whichever it is. -/
theorem wp_processItem (item : WorkItem) :
    (Worker.processItem anyBackend item).wp (anyEnv D) (fun _ => ItemDone D item false s)
      (fun e t => e.handled = true ∧ ItemFailed item s t) s := by
  cases item with
  | boot => exact wp_processBoot
  | connect ssid password => exact wp_processConnect ssid password
  | provisioning =>
    have hcalls : ∀ ans, CallsOf .provisioning [provisioningEvent ans] := by
      intro ans
      refine ⟨rfl, fun _ e he => ?_⟩
      rw [List.mem_singleton.mp he]
      rfl
    refine wp_mono (wp_restoreProvisioning none) ?_ ?_
    · rintro _ t ⟨ans, ht⟩
      exact ⟨_, _, ht, hcalls ans, .provisioning _ _ [] ans⟩
    · rintro e t ⟨he, -, ans, ht⟩
      exact ⟨he, _, ht, hcalls ans⟩

/-- The handler of `process_next`: after it the mode is settled, and the exception goes on. -/
theorem wp_recover_and_raise {item : WorkItem} (e : PyErr) (h : ItemFailed item s t) :
    ((Worker.recoverUnexpectedFailure anyBackend).bind fun _ =>
      (Prog.raise e : Worker BackendCall BackendCall.Answer Unit)).wp (anyEnv D)
        (fun _ _ => False) (fun e' v => e' = e ∧ ItemDone D item true s v) t := by
  obtain ⟨cs, hcs, hcalls⟩ := h
  refine wp_bind.mpr (wp_mono wp_recoverUnexpectedFailure ?_ (fun _ _ h => h.elim))
  rintro _ v (⟨ans, hv⟩ | ⟨hmode, hv⟩) w hw
  · exact ⟨rfl, _, _, hcs.settled (hv.later hw), hcalls.concat_provisioning, .provisioning _ _ _ _⟩
  · refine ⟨rfl, _, _, hcs.settled (hv.later hw), by simpa using hcalls, .inr ⟨rfl, rfl, ?_⟩⟩
    exact fun hs => hmode (hcs.transitional hs)

/-! ## `process_next`

With the operation lock, the handler and `task_done` around the item. -/

/-- A `process_next` has taken `item` in the state `u`, and with outcome `out` has come to `t`. -/
structure TookItem (D : AnyDiscipline) (u : AnyState) (item : WorkItem) (out : Except PyErr Bool)
    (t : AnyState) (cs : List CallEvent) (m : NetworkMode) : Prop where
  queue : u.work.items = [item]
  taken : t.history.taken = u.history.taken ++ [item]
  calls : t.workerCalls = u.workerCalls ++ cs
  settled : SettledAt D m t
  callsOf : CallsOf item cs
  ending : Ending u.view.mode (out matches .error _) cs m

/-- How a `process_next` called in `s` ends: without an item, or with one it has worked off. -/
inductive NextPost (D : AnyDiscipline) (s : AnyState) (out : Except PyErr Bool) (t : AnyState) :
    Prop where
  | nothing (hout : out = .ok false) (h : (anyEnv D).later s t)
  | took {u : AnyState} {item : WorkItem} {cs : List CallEvent} {m : NetworkMode}
      (hout : out ≠ .ok false) (found : (anyEnv D).later s u)
      (allowed : ∃ answers, D.worker u .workGet answers) (h : TookItem D u item out t cs m)

/-- What others do afterwards does not undo it. -/
theorem ItemDone.later {item : WorkItem} {raised : Bool} (h : ItemDone D item raised s t)
    (ht : (anyEnv D).later t u) : ItemDone D item raised s u := by
  obtain ⟨cs, m, hset, hcalls, hend⟩ := h
  exact ⟨cs, m, hset.later ht, hcalls, hend⟩

theorem ItemFailed.later {item : WorkItem} (h : ItemFailed item s t)
    (ht : (anyEnv D).later t u) : ItemFailed item s u := by
  obtain ⟨cs, hcs, hcalls⟩ := h
  exact ⟨cs, hcs.later ht, hcalls⟩

/-- The operation lock does not matter to what an item has come to. -/
theorem ItemDone.operation {item : WorkItem} {raised : Bool} (h : ItemDone D item raised s t)
    (operation : Option (Owner BackendCall BackendCall.Answer)) :
    ItemDone D item raised s { t with operation := operation } := by
  obtain ⟨cs, m, hset, hcalls, hend⟩ := h
  obtain ⟨u, hlock, hmode, hu⟩ := hset.settled
  exact ⟨cs, m, ⟨hset.calls, hset.taken, u, hlock, hmode, hu.tail (.operation t operation)⟩,
    hcalls, hend⟩

/-- The operation lock does not matter. -/
theorem ItemFailed.operation {item : WorkItem} (h : ItemFailed item s t)
    (operation : Option (Owner BackendCall BackendCall.Answer)) :
    ItemFailed item s { t with operation := operation } := by
  obtain ⟨cs, hcs, hcalls⟩ := h
  exact ⟨cs, ⟨hcs.calls, hcs.taken, hcs.transition, hcs.transitional⟩, hcalls⟩

/-- `with self._operation_lock: self._process_item(item)`. -/
theorem wp_processItem_locked (item : WorkItem) :
    (Worker.withOperation (Worker.processItem anyBackend item)).wp (anyEnv D)
      (fun _ => ItemDone D item false s)
      (fun e t => e.handled = true ∧ ItemFailed item s t) s := by
  refine Worker.wp_withOperation (fun _ => trivial) (fun _ => trivial)
    (fun _ _ h => h.operation none) (fun _ _ h => ⟨h.1, h.2.operation none⟩)
    (fun _ _ _ ht h => h.later ht) (fun _ _ _ ht h => ⟨h.1, h.2.later ht⟩) ?_
  intro t ht
  have hst : Through s t [] := .of_later ht
  refine wp_mono (wp_processItem item) ?_ ?_
  · rintro _ u ⟨cs, m, hset, hcalls, hend⟩
    refine ⟨cs, m, ⟨?_, ?_, hset.settled⟩, hcalls, ?_⟩
    · rw [hset.calls]
      exact congrArg (· ++ cs) (hst.calls.trans (List.append_nil _))
    · exact hset.taken.trans hst.taken
    · exact hend.resolve_right (by simp) |> .inl
  · rintro e u ⟨he, cs, hcs, hcalls⟩
    refine ⟨he, cs, ?_, hcalls⟩
    exact hst.trans ⟨hcs.calls, hcs.taken, hcs.transition, hcs.transitional⟩

/-- `task_done` changes nothing that is looked at. -/
theorem wp_taskDone {Q : AnyState → Prop} {R : PyErr → AnyState → Prop}
    (hQ : ∀ t, (anyEnv D).later s t → Q t) :
    (Prog.op .taskDone .ret : Worker BackendCall BackendCall.Answer Unit).wp (anyEnv D)
      (fun _ => Q) R s := by
  intro t ht
  refine ⟨trivial, ?_⟩
  rintro r w ⟨answers, -, hx⟩
  cases hx
  exact fun v hv => hQ v ((anyEnv D).later_trans ht hv)

/-- **`process_next`**: the one fact about it that the theorems on runs use. -/
theorem wp_processNext :
    (Worker.processNext anyBackend).wp (anyEnv D) (fun b => NextPost D s (.ok b))
      (fun e => NextPost D s (.error e)) s := by
  intro u hu
  refine ⟨trivial, ?_⟩
  rintro r v ⟨answers, hok, hx⟩
  simp only [workerExec] at hx
  split at hx
  · cases hx
    exact fun t ht => .nothing rfl ((anyEnv D).later_trans hu ht)
  · next item rest hget =>
    cases hx
    have hqueue : u.work.items = [item] := by
      rw [BoundedQueue.get?_eq_some hget, BoundedQueue.items_eq_nil_of_get? hget]
    -- what the item comes to is counted from the state after the `get`
    have htook : ∀ (out : Except PyErr Bool) (t : AnyState), out ≠ .ok false →
        ItemDone D item (out matches .error _) (u.take item rest) t → NextPost D s out t := by
      rintro out t hout ⟨cs, m, hset, hcalls, hend⟩
      exact .took hout hu ⟨answers, hok⟩
        ⟨hqueue, hset.taken, hset.calls, hset.settled, hcalls, hend⟩
    refine wp_bind.mpr (wp_finallyDo.mpr (wp_handle.mpr
      (wp_mono (wp_processItem_locked item) ?_ ?_)))
    · intro _ t ht w hw
      refine wp_taskDone fun x hx y hy z hz => htook (.ok true) z (by simp) ?_
      exact ((ht.later hw).later hx).later ((anyEnv D).later_trans hy hz)
    · rintro e t ⟨he, ht⟩
      rw [if_pos he]
      refine wp_mono (wp_recover_and_raise e ht) (fun _ _ h => h.elim) ?_
      rintro _ w ⟨rfl, hw⟩
      refine wp_taskDone fun x hx y hy => htook (.error _) y (by simp) ?_
      exact (hw.later hx).later hy

/-! ## `reconcile`

The periodic check. It changes the mode only where the network it looks after has gone. -/

/-- How a `reconcile` called in `s` ends: nothing to do, or the AP restored after the network it
was to look after had gone. -/
inductive ReconcilePost (D : AnyDiscipline) (s t : AnyState) : Prop where
  | nothing (h : Silent D s t)
  | restored {u : AnyState} {ans : BackendCall.activateProvisioning.Answer} (before : Silent D s u)
      (lost : u.view.mode = .stationConnected ∨ u.view.mode = .provisioningAp)
      (h : Settled D u t [provisioningEvent ans] (apMode ans))

/-- What others do afterwards does not undo it. -/
theorem ReconcilePost.later (h : ReconcilePost D s t) (ht : (anyEnv D).later t u) :
    ReconcilePost D s u := by
  cases h with
  | nothing h => exact .nothing (h.trans (.of_later ht))
  | restored before lost h => exact .restored before lost (h.later ht)

/-- The operation lock does not matter. -/
theorem ReconcilePost.operation (h : ReconcilePost D s t)
    (operation : Option (Owner BackendCall BackendCall.Answer)) :
    ReconcilePost D s { t with operation := operation } := by
  cases h with
  | nothing h => exact .nothing (h.tail (.operation t operation))
  | restored before lost h =>
    obtain ⟨u, hlock, hmode, hu⟩ := h.settled
    exact .restored before lost
      ⟨h.calls, h.taken, u, hlock, hmode, hu.tail (.operation t operation)⟩

theorem ReconcilePost.of_silent (h : Silent D s t) (h' : ReconcilePost D t u) :
    ReconcilePost D s u := by
  cases h' with
  | nothing h' => exact .nothing (h.trans h')
  | restored before lost h' => exact .restored (h.trans before) lost h'

/-- A question to the backend that may fail. -/
theorem wp_probeOr {c : BackendCall} (hc : ∀ ans, CallEvent.isProbe ⟨c, ans⟩ = true)
    {fallback : c.Result} {Q : c.Result → AnyState → Prop} {R : PyErr → AnyState → Prop}
    (h : ∀ t a, Silent D s t → Q a t) :
    (Worker.orOnFailure (Worker.ofBackend (.op c BackendCall.outcome)) fun _ =>
      (Prog.ret fallback : Worker BackendCall BackendCall.Answer c.Result)).wp (anyEnv D) Q R s := by
  refine wp_handle.mpr fun t ht => ⟨trivial, ?_⟩
  rintro r w ⟨answers, -, hx⟩
  cases hx
  have hsilent : Silent D s (t.record .worker ⟨c, answers c⟩) :=
    (Silent.of_later ht).tail (.probe t _ (hc _))
  generalize answers c = ans at hsilent ⊢
  cases ans with
  | ok a => exact fun u hu v hv => h v a (hsilent.trans (.of_later ((anyEnv D).later_trans hu hv)))
  | error e =>
    intro u hu
    rw [if_pos e.property]
    exact fun v hv => h v _ (hsilent.trans (.of_later ((anyEnv D).later_trans hu hv)))

/-- The check under `_lock` either changes no mode, or sets `TRANSITION` and has the AP
restored. -/
theorem wp_check_restore {body : Locked Bool} (prior : String)
    (hbody : ∀ self, ((body self).1 = .ok false ∧ ∃ ssid,
        (body self).2 = { self with stationSsid := ssid }) ∨
      ((body self).1 = .ok true ∧ (body self).2.mode = .transition ∧
        (self.mode = .stationConnected ∨ self.mode = .provisioningAp))) :
    ((Worker.locked body).bind fun restore =>
      if restore then Worker.restoreProvisioning anyBackend (some prior)
      else (Prog.ret () : Worker BackendCall BackendCall.Answer Unit)).wp (anyEnv D)
        (fun _ => ReconcilePost D s) (fun _ _ => False) s := by
  refine wp_bind.mpr (Worker.wp_locked fun t ht => ⟨trivial, fun hlock => ?_⟩)
  have hview := Shared.view_of_lock hlock
  rcases hbody t.view with ⟨hres, ssid, hself⟩ | ⟨hres, hmode, hlost⟩
  -- nothing to restore: at most the SSID was updated
  · rw [hres, hself, hview]
    intro u hu v hv
    have hstep : Silent D s (t.setSsid ssid) := (Silent.of_later ht).tail (.ssid t ssid)
    exact .nothing (hstep.trans (.of_later ((anyEnv D).later_trans hu hv)))
  -- the connection was lost, and the access point is restored
  · rw [hres]
    intro u hu
    have hset : Settled D t u [] .transition := .of_block ((anyEnv D).later_refl t) hlock hmode hu
    have hu' : u.view.mode = .transition :=
      (later_transition hu (by simpa [Shared.view, hlock] using hmode)).1
    refine wp_mono (wp_restoreProvisioning_transition _ hu') ?_ (fun _ _ h => h)
    rintro _ v ⟨ans, hv⟩
    refine .restored (.of_later ht) hlost ⟨?_, ?_, hv.settled⟩
    · rw [hv.calls, hset.calls, List.append_nil]
    · rw [hv.taken, hset.taken]

/-- The check of the station notes the SSID, or finds it gone. -/
theorem checkStation_cases (ssid : Option String) (self : NetworkController) :
    ((Locked.checkStation ssid self).1 = .ok false ∧ ∃ current,
      (Locked.checkStation ssid self).2 = { self with stationSsid := current }) ∨
    ((Locked.checkStation ssid self).1 = .ok true ∧
      (Locked.checkStation ssid self).2.mode = .transition ∧
      (self.mode = .stationConnected ∨ self.mode = .provisioningAp)) := by
  unfold Locked.checkStation Locked.apply transition
  obtain ⟨mode, current, err⟩ := self
  cases ssid with
  | none => cases mode <;> simp [transitions]
  | some ssid => cases mode <;> simp

/-- The check of the access point finds it ready, or gone. -/
theorem checkProvisioning_cases (self : NetworkController) :
    ((Locked.checkProvisioning self).1 = .ok false ∧ ∃ current,
      (Locked.checkProvisioning self).2 = { self with stationSsid := current }) ∨
    ((Locked.checkProvisioning self).1 = .ok true ∧
      (Locked.checkProvisioning self).2.mode = .transition ∧
      (self.mode = .stationConnected ∨ self.mode = .provisioningAp)) := by
  unfold Locked.checkProvisioning Locked.apply transition
  obtain ⟨mode, current, err⟩ := self
  cases mode <;> simp [transitions]

/-- `_reconcile_station` raises nothing and ends as `ReconcilePost` says. -/
theorem wp_reconcileStation :
    (Worker.reconcileStation anyBackend).wp (anyEnv D) (fun _ => ReconcilePost D s)
      (fun _ _ => False) s := by
  refine wp_bind.mpr (wp_probeOr (fun _ => rfl) fun t ssid ht => ?_)
  exact wp_mono (wp_check_restore "station_connection_lost" (checkStation_cases ssid))
    (fun _ _ h => .of_silent ht h) (fun _ _ h => h)

theorem wp_reconcileProvisioning :
    (Worker.reconcileProvisioning anyBackend).wp (anyEnv D) (fun _ => ReconcilePost D s)
      (fun _ _ => False) s := by
  refine wp_bind.mpr (wp_probeOr (fun _ => rfl) fun t ready ht => ?_)
  cases ready with
  | true => exact fun u hu => .nothing (ht.trans (.of_later hu))
  | false =>
    exact wp_mono (wp_check_restore "provisioning_ap_lost" checkProvisioning_cases)
      (fun _ _ h => .of_silent ht h) (fun _ _ h => h)

/-- **`reconcile`** never raises. -/
theorem wp_reconcile :
    (Worker.reconcile anyBackend).wp (anyEnv D) (fun _ => ReconcilePost D s)
      (fun _ _ => False) s := by
  refine wp_bind.mpr (Worker.wp_locked fun t ht => ⟨trivial, fun hlock => ?_⟩)
  intro u hu
  have hsu : Silent D s u := by
    refine (Silent.of_later ht).trans (.of_later ?_)
    rwa [Shared.view_of_lock hlock] at hu
  refine Worker.wp_withOperation (fun _ => trivial) (fun _ => trivial)
    (fun _ _ h => h.operation none) (fun _ _ h => h) (fun _ _ _ ht h => h.later ht)
    (fun _ _ _ _ h => h) ?_
  intro v hv
  have hsv : Silent D s { v with operation := some .worker } :=
    (hsu.trans (.of_later hv)).tail (.operation v _)
  split
  · exact wp_mono wp_reconcileStation (fun _ _ h => .of_silent hsv h) (fun _ _ h => h)
  · exact wp_mono wp_reconcileProvisioning (fun _ _ h => .of_silent hsv h) (fun _ _ h => h)
  · exact fun w hw => .nothing (hsv.trans (.of_later hw))

end Rave
