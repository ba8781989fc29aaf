import RaveDeployment.Network.NeverStuck

/-!
# What the worker issues

`WorkerBlocks ok` says that a condition on the worker's operations admits the ones that
`rave_networkd/controller.py` contains, each block under `_lock` with what is known of the texts it
writes: they are the controller's own, or come from the backend (`BackendTexts`), whose calls
satisfy `callOk`.

From it, method by method, `Within ok`: whatever the backend answers, the worker issues nothing else.
-/

namespace Rave

open Prog

variable {B : Type} {Ans : B → Type}

/-- The reasons the controller itself puts into `_last_error`. -/
def controllerReasons : List String :=
  ["saved_station_timeout", "station_timeout", "ap_activation_failed", "station_connection_lost",
    "provisioning_ap_lost", "network_operation_failed"]

def NetworkEvent.starts (e : NetworkEvent) : Prop :=
  ∀ m next, transitions m e = some next → next.transitional = true

/-- A boot without a saved network starts the access point. -/
theorem starts_noSavedNetwork : NetworkEvent.starts .noSavedNetwork := by
  intro m next h
  cases m <;> cases h
  rfl

/-- A station that has gone starts the access point. -/
theorem starts_stationTimeout : NetworkEvent.starts .stationTimeout := by
  intro m next h
  cases m <;> cases h <;> rfl

theorem starts_provisioningRequested : NetworkEvent.starts .provisioningRequested := by
  intro m next h
  cases m <;> cases h <;> rfl

def StationTexts (ssidOk reasonOk : String → Prop) (r : Bool × Option String × Option String) :
    Prop :=
  (∀ s, r.2.1 = some s → ssidOk s) ∧ ∀ e, r.2.2 = some e → reasonOk e

/-- What the backend's calls, and the texts that come from it, satisfy, whatever its operations
answer. -/
structure BackendTexts (backend : NetworkBackend B Ans) (callOk : B → Prop)
    (ssidOk reasonOk : String → Prop) : Prop where
  hasSavedStation : Within callOk backend.hasSavedStation fun _ => True
  activateSavedStation : Within callOk backend.activateSavedStation (StationTexts ssidOk reasonOk)
  connectStation : ∀ ssid password, Within callOk (backend.connectStation ssid password)
    (StationTexts ssidOk reasonOk)
  activateProvisioning : Within callOk backend.activateProvisioning
    fun r => ∀ e, r.2 = some e → reasonOk e
  activeStationSsid : Within callOk backend.activeStationSsid
    fun r => ∀ s, r = some s → ssidOk s
  provisioningReady : Within callOk backend.provisioningReady fun _ => True
  own : ∀ e ∈ controllerReasons, reasonOk e

/-- A condition on operations that admits the ones of the worker. -/
structure WorkerBlocks (ok : WorkerOp B → Prop) (callOk : B → Prop)
    (ssidOk reasonOk : String → Prop) : Prop where
  taskDone : ok .taskDone
  acquireOperation : ok .acquireOperation
  releaseOperation : ok .releaseOperation
  backend : ∀ b, callOk b → ok (.backend b)
  snapshot : ok (.locked Locked.snapshot)
  apply : ∀ e : NetworkEvent, e.starts → ok (.locked (Locked.apply e))
  station : ∀ ssid, (∀ s, ssid = some s → ssidOk s) →
    ok (.locked (Locked.applyThenSet .stationConnected ssid none))
  ap : ∀ prior, (∀ e, prior = some e → reasonOk e) →
    ok (.locked (Locked.applyThenSet .apReady none prior))
  failed : ∀ reason, reasonOk reason →
    ok (.locked (Locked.applyThenSet .apFailed none (some reason)))
  checkStation : ∀ ssid, (∀ s, ssid = some s → ssidOk s) → ok (.locked (Locked.checkStation ssid))
  checkProvisioning : ok (.locked Locked.checkProvisioning)
  recover : ok (.locked Locked.recover)

variable {ok : WorkerOp B → Prop} {callOk : B → Prop} {ssidOk reasonOk : String → Prop}

/-! ## The building blocks

Each construct of the worker's programs stays within the operations that are allowed. -/

section

variable {α : Type} {Q : α → Prop}

/-- A reason, or the one in its place. -/
theorem orElse_reasonOk {a : Option String} {b : String} (ha : ∀ e, a = some e → reasonOk e)
    (hb : reasonOk b) : reasonOk (Py.orElse a b) := by
  unfold Py.orElse
  split
  · split
    · exact hb
    · exact ha _ rfl
  · exact hb

theorem within_locked {body : Locked α} (hbody : ok (.locked body)) :
    Within ok (Worker.locked body : Worker B Ans α) fun _ => True :=
  within_op hbody fun _ => within_ofExcept fun _ _ => trivial

/-- A method of the backend. -/
theorem within_ofBackend (hok : ∀ b, callOk b → ok (.backend b)) {p : Prog PyErr B Ans α}
    (hp : Within callOk p Q) : Within ok (Worker.ofBackend p) Q := by
  induction p with
  | ret a => exact hp
  | raise e => exact within_raise e
  | op b k ih =>
    obtain ⟨hb, hk⟩ := hp () trivial
    exact within_op (hok b hb) fun r => ih r (hk r () trivial)

/-- A program and its handler. -/
theorem within_orOnFailure {p : Worker B Ans α} {h : PyErr → Worker B Ans α}
    (hp : Within ok p Q) (hh : ∀ e, Within ok (h e) Q) :
    Within ok (Worker.orOnFailure p h) Q := by
  refine within_handle hp fun e => ?_
  cases e.handled with
  | true => exact hh e
  | false => exact within_raise e

/-- A program under the operation lock. -/
theorem WorkerBlocks.withOperation (hb : WorkerBlocks ok callOk ssidOk reasonOk) {p : Worker B Ans α}
    (hp : Within ok p Q) : Within ok (Worker.withOperation p) Q :=
  within_op hb.acquireOperation fun _ =>
    within_finallyDo hp (within_op hb.releaseOperation fun _ => within_ret trivial)

end

/-! ## The methods

The worker's methods, from their blocks and from the texts of the backend. -/

section

variable {backend : NetworkBackend B Ans} (h : BackendTexts backend callOk ssidOk reasonOk)
  (hb : WorkerBlocks ok callOk ssidOk reasonOk)
include h hb

/-- `_restore_provisioning` stays within them. -/
theorem BackendTexts.restoreProvisioning {prior : Option String}
    (hprior : ∀ e, prior = some e → reasonOk e) :
    Within ok (Worker.restoreProvisioning backend prior) fun _ => True := by
  have hfailed : reasonOk "ap_activation_failed" := h.own _ (by decide)
  have hresult : Within ok
      (Worker.orOnFailure (Worker.ofBackend backend.activateProvisioning) fun _ =>
        (Prog.ret (false, some "ap_activation_failed") : Worker B Ans _))
      fun r => ∀ e, r.2 = some e → reasonOk e := by
    apply within_orOnFailure (within_ofBackend hb.backend h.activateProvisioning)
    intro _
    exact within_ret fun e he => Option.some.inj he ▸ hfailed
  refine within_bind hresult fun ⟨success, apError⟩ hap => ?_
  cases success with
  | true => exact within_locked (hb.ap prior hprior)
  | false => exact within_locked (hb.failed _ (orElse_reasonOk hap hfailed))

theorem BackendTexts.settleAttempt {result : Bool × Option String × Option String}
    {fallback : String} (hresult : StationTexts ssidOk reasonOk result)
    (hfallback : reasonOk fallback) :
    Within ok (Worker.settleAttempt backend result fallback) fun _ => True := by
  obtain ⟨success, ssid, error⟩ := result
  cases success with
  | true => exact within_locked (hb.station ssid hresult.1)
  | false =>
    have happly : Within ok (Worker.apply .stationTimeout : Worker B Ans Unit) fun _ => True :=
      within_locked (hb.apply _ starts_stationTimeout)
    refine within_bind happly fun _ _ => h.restoreProvisioning hb fun e he => ?_
    rw [← Option.some.inj he]
    exact orElse_reasonOk hresult.2 hfallback

theorem BackendTexts.processItem (item : WorkItem) :
    Within ok (Worker.processItem backend item) fun _ => True := by
  cases item with
  | boot =>
    have hsaved : Within ok (Worker.ofBackend backend.hasSavedStation) fun _ => True :=
      within_ofBackend hb.backend h.hasSavedStation
    refine within_bind hsaved fun saved _ => ?_
    cases saved with
    | true =>
      have hresult := within_ofBackend hb.backend h.activateSavedStation
      exact within_bind hresult fun result hr => h.settleAttempt hb hr (h.own _ (by decide))
    | false =>
      have happly : Within ok (Worker.apply .noSavedNetwork : Worker B Ans Unit) fun _ => True :=
        within_locked (hb.apply _ starts_noSavedNetwork)
      exact within_bind happly fun _ _ => h.restoreProvisioning hb (by simp)
  | connect ssid password =>
    have hresult := within_ofBackend hb.backend (h.connectStation ssid password)
    exact within_bind hresult fun result hr => h.settleAttempt hb hr (h.own _ (by decide))
  | provisioning => exact h.restoreProvisioning hb (by simp)

theorem BackendTexts.recoverUnexpectedFailure :
    Within ok (Worker.recoverUnexpectedFailure backend) fun _ => True := by
  have hreason : reasonOk "network_operation_failed" := h.own _ (by decide)
  refine within_bind (within_locked hb.recover) fun restore _ => ?_
  cases restore with
  | true => exact h.restoreProvisioning hb fun e he => Option.some.inj he ▸ hreason
  | false => exact within_ret trivial

/-- What `process_next` does with the item it has taken. -/
theorem BackendTexts.processTaken (item : WorkItem) :
    Within ok (Prog.finallyDo
      (Worker.orOnFailure (Worker.withOperation (Worker.processItem backend item)) fun e =>
        (Worker.recoverUnexpectedFailure backend).bind fun _ => .raise e)
      (.op .taskDone .ret)) fun _ => True := by
  have hitem := hb.withOperation (h.processItem hb item)
  have hbody := within_orOnFailure hitem fun e =>
    within_bind (h.recoverUnexpectedFailure hb) fun _ _ =>
      (within_raise e : Within ok (.raise e : Worker B Ans Unit) fun _ => True)
  exact within_finallyDo hbody (within_op hb.taskDone fun _ => within_ret trivial)

/-- **`process_next`** takes an item, and issues nothing else than the operations of the worker. -/
theorem BackendTexts.processNext (hget : ok .workGet) :
    Within ok (Worker.processNext backend) fun _ => True := by
  refine within_op hget fun item => ?_
  cases item with
  | none => exact within_ret trivial
  | some item => exact within_bind (h.processTaken hb item) fun _ _ => within_ret trivial

theorem BackendTexts.reconcileStation :
    Within ok (Worker.reconcileStation backend) fun _ => True := by
  have hssid : Within ok
      (Worker.orOnFailure (Worker.ofBackend backend.activeStationSsid) fun _ =>
        (Prog.ret none : Worker B Ans _)) fun r => ∀ s, r = some s → ssidOk s :=
    within_orOnFailure (within_ofBackend hb.backend h.activeStationSsid)
      fun _ => within_ret (by simp)
  refine within_bind hssid fun ssid hok => ?_
  refine within_bind (within_locked (hb.checkStation ssid hok)) fun lost _ => ?_
  cases lost with
  | true => exact h.restoreProvisioning hb fun e he => Option.some.inj he ▸ h.own _ (by decide)
  | false => exact within_ret trivial

theorem BackendTexts.reconcileProvisioning :
    Within ok (Worker.reconcileProvisioning backend) fun _ => True := by
  have hready : Within ok
      (Worker.orOnFailure (Worker.ofBackend backend.provisioningReady) fun _ =>
        (Prog.ret false : Worker B Ans _)) fun _ => True :=
    within_orOnFailure (within_ofBackend hb.backend h.provisioningReady) fun _ => within_ret trivial
  refine within_bind hready fun ready _ => ?_
  cases ready with
  | true => exact within_ret trivial
  | false =>
    refine within_bind (within_locked hb.checkProvisioning) fun lost _ => ?_
    cases lost with
    | true => exact h.restoreProvisioning hb fun e he => Option.some.inj he ▸ h.own _ (by decide)
    | false => exact within_ret trivial

/-- **`reconcile`** issues nothing else than the operations of the worker. -/
theorem BackendTexts.reconcile : Within ok (Worker.reconcile backend) fun _ => True := by
  refine within_bind (within_locked hb.snapshot) fun snapshot _ => hb.withOperation ?_
  split
  · exact h.reconcileStation hb
  · exact h.reconcileProvisioning hb
  · exact within_ret trivial

end

end Rave
