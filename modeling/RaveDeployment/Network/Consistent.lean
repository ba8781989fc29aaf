import RaveDeployment.Network.WorkerBlocks

/-!
# Consistent snapshots

The three fields under `_lock` are written in eight places. `Consistent` says how they hang together,
and that the texts in them are ones the backend or the controller itself can put there.

* `workerBlocks_consistent` — each block under `_lock` keeps the fields consistent, also when it
  raises.
* `consistent_of_run` — so the fields are consistent in every reachable state of the daemon, whatever
  the backend is.
-/

namespace Rave

open Prog

variable {B : Type} {Ans : B → Type}

/-- How the fields hang together. `ssidOk` and `reasonOk` say which texts they may hold. -/
structure Consistent (ssidOk reasonOk : String → Prop) (c : NetworkController) : Prop where
  noStation : c.mode = .unconfigured ∨ c.mode = .provisioningAp ∨ c.mode = .error →
    c.stationSsid = none
  connected : c.mode = .stationConnected → c.lastError = none
  failed : c.mode = .error → c.lastError ≠ none
  ssid : ∀ s, c.stationSsid = some s → ssidOk s
  reason : ∀ e, c.lastError = some e → reasonOk e

variable {callOk : B → Prop} {ssidOk reasonOk : String → Prop} {self : NetworkController}

theorem consistent_new : Consistent ssidOk reasonOk .new :=
  ⟨fun _ => rfl, fun _ => rfl, by simp [NetworkController.new], by simp [NetworkController.new],
    by simp [NetworkController.new]⟩

/-- In a transitional mode only the texts matter. -/
theorem Consistent.of_transitional {next : NetworkMode} (h : Consistent ssidOk reasonOk self)
    (hnext : next.transitional = true) : Consistent ssidOk reasonOk { self with mode := next } := by
  refine ⟨?_, ?_, ?_, h.ssid, h.reason⟩
  · rintro (h' | h' | h') <;> subst h' <;> cases hnext
  · rintro h'
    subst h'
    cases hnext
  · rintro h'
    subst h'
    cases hnext

/-- Requests are accepted into transitional modes only. -/
theorem request_transitional {r : Request} {m next : NetworkMode}
    (h : transitions m r.event = some next) : next.transitional = true := by
  cases r <;> cases m <;> cases h <;> rfl

/-- Accepting a request keeps the controller consistent. -/
theorem Consistent.commit {r : Request} {next : NetworkMode} (h : Consistent ssidOk reasonOk self)
    (hnext : next.transitional = true) : Consistent ssidOk reasonOk (r.commit next self) := by
  have hmode := h.of_transitional hnext
  have hcleared : Consistent ssidOk reasonOk { self with mode := next, lastError := none } :=
    ⟨hmode.noStation, fun _ => rfl, fun he => absurd he (by rintro rfl; cases hnext), h.ssid,
      fun _ he => by cases he⟩
  cases r with
  | boot => exact hmode
  | connect ssid password => exact hcleared
  | provisioning => exact hcleared

/-! ## The blocks under `_lock`

Each block keeps the controller consistent, given that what the backend answered has the form that
it promises. -/

/-- `_apply_locked` moves to the mode of the table, or raises and writes nothing. -/
theorem apply_cases (e : NetworkEvent) (self : NetworkController) :
    (∃ next, transitions self.mode e = some next ∧
      Locked.apply e self = (.ok (), { self with mode := next })) ∨
    ∃ err, Locked.apply e self = (.error err, self) := by
  unfold Locked.apply
  split
  · next next h => exact .inl ⟨next, transition_eq_ok.mp h, rfl⟩
  · next err h => exact .inr ⟨err, rfl⟩

/-- The block leaves consistent fields behind, whether or not it raises. -/
def KeepsConsistent (ssidOk reasonOk : String → Prop) : WorkerOp B → Prop
  | .locked body => ∀ self, Consistent ssidOk reasonOk self →
      Consistent ssidOk reasonOk (body self).2
  | _ => True

/-- An event that starts a transition keeps the controller consistent. -/
theorem apply_consistent {e : NetworkEvent} (he : e.starts)
    (h : Consistent ssidOk reasonOk self) : Consistent ssidOk reasonOk (Locked.apply e self).2 := by
  rcases apply_cases e self with ⟨next, hnext, happly⟩ | ⟨err, happly⟩
  · rw [happly]
    exact h.of_transitional (he _ _ hnext)
  · rw [happly]
    exact h

/-- The writes that follow a transition: they have to fit every mode the event leads to. -/
theorem applyThenSet_consistent {e : NetworkEvent} {ssid lastError : Option String}
    (hset : ∀ m next, transitions m e = some next →
      Consistent ssidOk reasonOk ⟨next, ssid, lastError⟩)
    (h : Consistent ssidOk reasonOk self) :
    Consistent ssidOk reasonOk (Locked.applyThenSet e ssid lastError self).2 := by
  unfold Locked.applyThenSet
  rcases apply_cases e self with ⟨next, hnext, happly⟩ | ⟨err, happly⟩
  · rw [happly]
    exact hset _ _ hnext
  · rw [happly]
    exact h

/-- The connected state, with the SSID that the backend reported. -/
theorem setStation_consistent {ssid : Option String} (hssid : ∀ s, ssid = some s → ssidOk s)
    (h : Consistent ssidOk reasonOk self) :
    Consistent ssidOk reasonOk (Locked.applyThenSet .stationConnected ssid none self).2 := by
  refine applyThenSet_consistent (fun m next hnext => ?_) h
  have hmode : next = .stationConnected := by
    cases m <;> cases hnext <;> rfl
  subst hmode
  exact ⟨by simp, fun _ => rfl, by simp, hssid, by simp⟩

/-- The access point is ready, with the error that led to it. -/
theorem setAp_consistent {prior : Option String} (hprior : ∀ e, prior = some e → reasonOk e)
    (h : Consistent ssidOk reasonOk self) :
    Consistent ssidOk reasonOk (Locked.applyThenSet .apReady none prior self).2 := by
  refine applyThenSet_consistent (fun m next hnext => ?_) h
  have hmode : next = .provisioningAp := by
    cases m <;> cases hnext
    rfl
  subst hmode
  exact ⟨fun _ => rfl, by simp, by simp, by simp, hprior⟩

/-- The access point has failed. -/
theorem setFailed_consistent {reason : String} (hreason : reasonOk reason)
    (h : Consistent ssidOk reasonOk self) :
    Consistent ssidOk reasonOk (Locked.applyThenSet .apFailed none (some reason) self).2 := by
  refine applyThenSet_consistent (fun m next hnext => ?_) h
  have hmode : next = .error := by
    cases m <;> cases hnext
    rfl
  subst hmode
  exact ⟨fun _ => rfl, by simp, by simp, by simp, fun e he => Option.some.inj he ▸ hreason⟩

/-- The same for the blocks that answer whether to restore the AP. -/
theorem applyOr_consistent {e : NetworkEvent} (he : e.starts)
    (h : Consistent ssidOk reasonOk self) :
    Consistent ssidOk reasonOk (match Locked.apply e self with
      | (.ok (), self) => ((.ok true, self) : Except PyErr Bool × NetworkController)
      | (.error e, self) => (.error e, self)).2 := by
  have happly := apply_consistent he h
  rcases apply_cases e self with ⟨next, -, hs⟩ | ⟨err, hs⟩
  · rw [hs] at happly ⊢
    exact happly
  · rw [hs] at happly ⊢
    exact happly

/-- The periodic check of the station. -/
theorem checkStation_consistent {ssid : Option String} (hssid : ∀ s, ssid = some s → ssidOk s)
    (h : Consistent ssidOk reasonOk self) :
    Consistent ssidOk reasonOk (Locked.checkStation ssid self).2 := by
  unfold Locked.checkStation
  split
  · exact h
  · next hmode =>
    have hmode : self.mode = .stationConnected := by simpa using hmode
    split
    · next s => exact ⟨by simp [hmode], h.connected, h.failed, by simpa using hssid s rfl, h.reason⟩
    · exact applyOr_consistent starts_stationTimeout h

/-- The periodic check of the access point. -/
theorem checkProvisioning_consistent (h : Consistent ssidOk reasonOk self) :
    Consistent ssidOk reasonOk (Locked.checkProvisioning self).2 := by
  unfold Locked.checkProvisioning
  split
  · exact h
  · exact applyOr_consistent starts_provisioningRequested h

/-- The recovery after an unexpected failure. -/
theorem recover_consistent (hreason : reasonOk "network_operation_failed")
    (h : Consistent ssidOk reasonOk self) : Consistent ssidOk reasonOk (Locked.recover self).2 := by
  unfold Locked.recover
  split
  · exact applyOr_consistent starts_stationTimeout h
  · split
    · exact ⟨fun _ => rfl, by simp, by simp, by simp, fun e he => Option.some.inj he ▸ hreason⟩
    · exact h

/-! ## Runs

The worker keeps it through all its methods, and with it every state that is reached. -/

/-- A client leaves consistent fields behind, for the next holder of `_lock` to find. -/
theorem consistent_clientMove {a : ClientAction B Ans} {s t : Shared B Ans}
    (h : Consistent ssidOk reasonOk s.view) (hm : ClientMove a s t) :
    Consistent ssidOk reasonOk t.view := by
  cases hm with
  | quiet hview _ _ _ _ _ => rwa [hview]
  | accept r _ _ hnext hview _ _ _ _ _ =>
    rw [hview]
    exact h.commit (request_transitional hnext)

/-- Only a block under `_lock` changes the fields, and it runs on what the clients left behind. -/
theorem workerExec_fields {answers : (b : B) → Ans b} {o : WorkerOp B} {r : WorkerAns Ans o}
    {s t : Shared B Ans} (h : workerExec answers o s = some (r, t)) :
    t.view = s.view ∨ ∃ (α : Type) (body : Locked α), o = .locked body ∧ s.lock = none ∧
      t.view = (body s.view).2 := by
  cases o with
  -- only a block under the state's lock writes the fields, and no request is then under way
  | locked body =>
    simp only [workerExec] at h
    split at h
    · next hlock =>
      cases h
      refine .inr ⟨_, body, rfl, hlock, ?_⟩
      rw [Shared.view_of_lock hlock]
      exact Shared.view_of_lock hlock
    · cases h
  | workGet =>
    simp only [workerExec] at h
    split at h <;> cases h <;> exact .inl rfl
  | acquireOperation =>
    simp only [workerExec] at h
    split at h <;> cases h
    exact .inl rfl
  | taskDone => cases h; exact .inl rfl
  | releaseOperation => cases h; exact .inl rfl
  | backend b => cases h; exact .inl rfl

/-- All blocks of the worker keep the controller consistent. -/
theorem workerBlocks_consistent (hreason : reasonOk "network_operation_failed") :
    WorkerBlocks (B := B) (KeepsConsistent ssidOk reasonOk) callOk ssidOk reasonOk where
  taskDone := trivial
  acquireOperation := trivial
  releaseOperation := trivial
  backend _ _ := trivial
  snapshot _ hc := hc
  apply _ he _ hc := apply_consistent he hc
  station _ hssid _ hc := setStation_consistent hssid hc
  ap _ hprior _ hc := setAp_consistent hprior hc
  failed _ hreason _ hc := setFailed_consistent hreason hc
  checkStation _ hssid _ hc := checkStation_consistent hssid hc
  checkProvisioning _ hc := checkProvisioning_consistent hc
  recover _ hc := recover_consistent hreason hc

/-- A backend of which the texts are known is one of which the worker's blocks are verified. -/
theorem BackendTexts.verified {backend : NetworkBackend B Ans} {D : Discipline B Ans}
    (h : BackendTexts backend callOk ssidOk reasonOk) :
    VerifiedWorker backend D (fun o _ => KeepsConsistent ssidOk reasonOk o) (fun _ => True)
      (fun _ _ _ => True) where
  stable _ _ _ _ := trivial
  restart _ := trivial
  processNext s _ :=
    (h.processNext (workerBlocks_consistent (h.own _ (by decide))) trivial).wp (fun _ _ ho => ho) s
  reconcile s _ :=
    (h.reconcile (workerBlocks_consistent (h.own _ (by decide)))).wp (fun _ _ ho => ho) s
  rest_of_next _ _ _ _ := trivial

/-- **The fields are consistent in every reachable state.** -/
theorem consistent_of_run {backend : NetworkBackend B Ans} {D : Discipline B Ans}
    (h : BackendTexts backend callOk ssidOk reasonOk) {as : List (Action B Ans)} {d : DaemonState B Ans}
    (run : (daemon backend).Run D.ok .init as d) : Consistent ssidOk reasonOk d.shared.view := by
  let I (d : DaemonState B Ans) : Prop :=
    WorkerSafe backend D (fun o _ => KeepsConsistent ssidOk reasonOk o) (fun _ => True)
      (fun _ _ _ => True) d ∧ Consistent ssidOk reasonOk d.shared.view
  -- the invariant: the worker keeps to its contract, and the fields are consistent
  have hinit : I .init := ⟨trivial, consistent_new⟩
  refine (run.invariant (I := I) hinit ?_).2
  rintro d a d' ⟨hsafe, hfields⟩ hok hs
  refine ⟨workerSafe_step h.verified hsafe hok hs, ?_⟩
  cases daemonStep_move hs with
  | client hc => exact consistent_clientMove hfields (clientStep_move hc)
  | @worker o answers r hnext hx =>
    have hkeep : KeepsConsistent ssidOk reasonOk o := workerSafe_pre hsafe hnext
    rcases workerExec_fields hx with hview | ⟨α, body, rfl, hlock, hview⟩
    · rwa [hview]
    · rw [hview]
      exact hkeep _ hfields
  | silent hs => rwa [hs]
  | restart hs =>
    rw [hs]
    exact consistent_new

/-! ## Snapshots

What a client sees is a consistent controller at one moment. -/

/-- `snapshot()`, or nothing while another thread holds `_lock`. -/
def Shared.snapshot? (s : Shared B Ans) : Option NetworkSnapshot :=
  if s.lock.isSome then none else some s.controller.snapshot

/-- What a snapshot may show. -/
structure NetworkSnapshot.Consistent (snapshot : NetworkSnapshot) : Prop where
  apActive : snapshot.provisioningApActive = true ↔ snapshot.mode = .provisioningAp
  noStation : snapshot.mode = .unconfigured ∨ snapshot.mode = .provisioningAp ∨
    snapshot.mode = .error → snapshot.stationSsid = none
  connected : snapshot.mode = .stationConnected → snapshot.lastError = none
  failed : snapshot.mode = .error → snapshot.lastError ≠ none

/-- A snapshot of a consistent controller is consistent. -/
theorem Consistent.snapshot (h : Consistent ssidOk reasonOk self) : self.snapshot.Consistent where
  apActive := by simp [NetworkController.snapshot]
  noStation := h.noStation
  connected := h.connected
  failed := h.failed

/-- A request returns the fields as they are when it gives `_lock` back. -/
theorem clientStep_returned {backend : NetworkBackend B Ans} {a : ClientAction B Ans}
    {s t : Shared B Ans} {snapshot : NetworkSnapshot}
    (h : clientStep backend a s = some (.returned snapshot, t)) : snapshot = s.view.snapshot := by
  cases a with
  | request r =>
    simp only [clientStep] at h
    split at h
    · cases h
    · next hlock =>
      have hlock : s.lock = none := by simpa using hlock
      -- an answer without work: the lock is free, and the fields are what all see
      rw [Shared.view_of_lock hlock]
      have h := Option.some.inj h
      unfold Shared.request Shared.enqueueTransition at h
      split at h
      · exact (Reply.returned.inj (Prod.mk.inj h).1).symm
      · split at h
        · cases h
        · split at h <;> cases h
  | finishRequest =>
    simp only [clientStep] at h
    split at h
    · cases h
    · next r next hlock =>
      rw [Shared.view, hlock]
      exact (Reply.returned.inj (Prod.mk.inj (Option.some.inj h)).1).symm
  | scanCheck =>
    simp only [clientStep] at h
    split at h
    · cases h
    · split at h <;> cases h
  | scanEnter =>
    simp only [clientStep] at h
    split at h <;> cases h
  | scanStep answers =>
    simp only [clientStep] at h
    split at h <;> cases h
  | scanLeave =>
    simp only [clientStep] at h
    split at h <;> cases h

/-- For a backend that may answer anything, nothing is known of the texts. -/
theorem backendTexts_any (backend : NetworkBackend B Ans) :
    BackendTexts backend (fun _ => True) (fun _ => True) (fun _ => True) where
  hasSavedStation := within_true _
  activateSavedStation := (within_true _).mono fun _ _ => ⟨by simp, by simp⟩
  connectStation ssid password := (within_true _).mono fun _ _ => ⟨by simp, by simp⟩
  activateProvisioning := (within_true _).mono fun _ _ => by simp
  activeStationSsid := (within_true _).mono fun _ _ => by simp
  provisioningReady := within_true _
  own _ _ := trivial

/-- **Every snapshot is consistent**, whatever the backend does: the one `snapshot()` returns in a
reachable state, and the ones the requests return. -/
theorem snapshot_consistent (backend : NetworkBackend B Ans) {as : List (Action B Ans)}
    {d : DaemonState B Ans} (run : (daemon backend).Run Discipline.any.ok .init as d) :
    (∀ snapshot, d.shared.snapshot? = some snapshot → snapshot.Consistent) ∧
    ∀ a snapshot t, clientStep backend a d.shared = some (.returned snapshot, t) →
      snapshot.Consistent := by
  have hfields := consistent_of_run (backendTexts_any backend) run
  refine ⟨fun snapshot h => ?_, fun a snapshot t h => ?_⟩
  · unfold Shared.snapshot? at h
    split at h
    · cases h
    · next hlock =>
      have hlock : d.shared.lock = none := by simpa using hlock
      rw [← Option.some.inj h, ← Shared.view_of_lock hlock]
      exact hfields.snapshot
  · rw [clientStep_returned h]
    exact hfields.snapshot

theorem snapshot_consistent_failedBoot : ∃ s : AnyState,
    (daemon anyBackend).Run Discipline.any.ok .init (failedBoot ++ [.finishCall]) ⟨s, .idle⟩ ∧
      ∀ snapshot, s.snapshot? = some snapshot → snapshot.Consistent := by
  obtain ⟨s, run, -⟩ := exists_run_at_rest (D := Discipline.any)
    (failedBoot ++ [.finishCall]) (by decide)
  exact ⟨s, run, (snapshot_consistent anyBackend run).1⟩

end Rave
