import RaveDeployment.Network.Truthful

/-!
# The controller never gets stuck

* **Part 1.** Whatever happens, the worker ends each call with a mode that is not transitional, so
  the daemon never rests in a mode that refuses every request.
* **Part 2.** From such a rest, `request_provisioning` is accepted and puts the controller in
  `TRANSITION`, where nothing else is accepted until its item is taken. `Waiting` is the invariant
  of that time; the `process_next` that ends it leaves `PROVISIONING_AP` behind.
-/

namespace Rave

open Prog

variable {D : AnyDiscipline} {s t : AnyState}

/-! ## Rest

A worker that is idle has set a mode that is not transitional. With an empty queue nothing else can
have changed it since. -/

/-- The mode the worker has set last is not transitional. -/
def Resting (D : AnyDiscipline) (s : AnyState) : Prop :=
  ∃ m, SettledAt D m s ∧ m.transitional = false

/-- Steps that do not touch the mode leave it at rest. -/
theorem Resting.silent (h : Resting D s) (ht : Silent D s t) : Resting D t := by
  obtain ⟨m, ⟨u, hlock, hmode, hu⟩, hm⟩ := h
  exact ⟨m, ⟨u, hlock, hmode, hu.trans ht⟩, hm⟩

theorem resting_init : Resting D Shared.init :=
  ⟨.unconfigured, ⟨.init, rfl, rfl, .refl⟩, rfl⟩

/-- Where a call settles the mode, it settles it at one that is not transitional. -/
theorem modeAfter_not_transitional {e : CallEvent} {m : NetworkMode}
    (h : e.modeAfter = some m) : m.transitional = false := by
  unfold CallEvent.modeAfter at h
  cases hprov : e.isProvisioning <;> cases hsucc : e.succeeded <;> simp only [hprov, hsucc] at h <;>
    cases h <;> rfl

/-- `process_next` has taken nothing, or has settled its item in a mode of rest. -/
theorem resting_of_next {out : Except PyErr Bool} (hs : Resting D s) (h : NextPost D s out t) :
    Resting D t := by
  cases h with
  | nothing _ h => exact hs.silent (.of_later h)
  | @took u item cs m _ _ _ h =>
    refine ⟨m, h.settled, ?_⟩
    rcases h.ending with ⟨⟨e, -, hafter⟩, -⟩ | ⟨-, rfl, -⟩
    · exact modeAfter_not_transitional hafter
    · rfl

/-- `reconcile` has found nothing to do, or has restored the access point. -/
theorem resting_of_reconcile (hs : Resting D s) (h : ReconcilePost D s t) : Resting D t := by
  cases h with
  | nothing h => exact hs.silent h
  | @restored u ans _ _ h =>
    exact ⟨apMode ans, h.settled, modeAfter_not_transitional (e := provisioningEvent ans) rfl⟩

/-- The worker is at rest between its calls. -/
theorem verified_resting : VerifiedWorker anyBackend D (fun _ _ => True) (Resting D)
    (fun _ _ => Resting D) where
  stable _ _ h hstep := h.silent (.single (.client hstep))
  restart _ := resting_init
  processNext _ h := wp_mono wp_processNext (fun _ _ h' => resting_of_next h h')
    (fun _ _ h' => resting_of_next h h')
  reconcile _ h := wp_mono wp_reconcile (fun _ _ h' => resting_of_reconcile h h')
    (fun _ _ h' => h'.elim)
  rest_of_next _ _ _ h := h

/-- At rest with an empty queue `_lock` is free and the mode is not transitional. -/
theorem Resting.mode (h : Resting D s) (hempty : s.work.items = []) :
    s.lock = none ∧ s.controller.mode.transitional = false := by
  obtain ⟨m, hset, hm⟩ := h
  obtain ⟨hlock, hmode⟩ := hset.rest hempty
  exact ⟨hlock, hmode ▸ hm⟩

/-! ## An accepted `request_provisioning`

The item waits in the queue, or something has been taken since. -/

def running : AnyDiscipline where
  client _ _ := true
  worker _ _ _ := true
  restart := false

/-- `before` is what has been taken when the provisioning item is put: the item waits in
`TRANSITION`, or more has been taken. -/
def Waiting (before : List WorkItem) (s : AnyState) : Prop :=
  (s.history.taken = before ∧ s.view.mode = .transition ∧ s.work.items = [.provisioning]) ∨
    before.length < s.history.taken.length

variable {before : List WorkItem}

/-- Steps that do not touch the queue leave the item waiting. -/
theorem Waiting.silent (h : Waiting before s) (ht : Silent D s t) : Waiting before t := by
  refine Silent.stable ?_ (fun _ _ h => h) ?_ (fun _ _ _ h => h) ht h
  · rintro u v a hu _ hm
    cases hm with
    | quiet hview hwork _ _ htaken _ =>
      unfold Waiting
      rw [hview, hwork, htaken]
      exact hu
    | accept r _ _ hnext _ hwork _ _ htaken _ =>
      rcases hu with ⟨-, -, hitems⟩ | hmore
      · rw [hitems] at hwork
        cases hwork
      · exact .inr (by rwa [htaken])
  · intro u ssid hu
    unfold Waiting
    rw [Shared.setSsid_view_mode]
    exact hu

/-- `process_next` leaves the item waiting, or takes one. -/
theorem waiting_of_next {out : Except PyErr Bool} (hs : Waiting before s)
    (h : NextPost D s out t) : Waiting before t := by
  cases h with
  | nothing _ h => exact hs.silent (.of_later h)
  | @took u item cs m _ found _ h =>
    refine .inr ?_
    have hu : Waiting before u := hs.silent (.of_later found)
    rw [h.taken, List.length_append, List.length_singleton]
    rcases hu with ⟨htaken, -, -⟩ | hmore
    · rw [htaken]
      omega
    · omega

/-- `reconcile` leaves the item waiting. -/
theorem waiting_of_reconcile (hs : Waiting before s) (h : ReconcilePost D s t) :
    Waiting before t := by
  cases h with
  | nothing h => exact hs.silent h
  | @restored u ans hu lost h =>
    rcases hs.silent hu with ⟨-, hmode, -⟩ | hmore
    · -- `reconcile` has nothing to do in `TRANSITION`
      rw [hmode] at lost
      simp at lost
    · exact .inr (by rwa [h.taken])

/-- The item waits until the worker takes one. -/
theorem verified_waiting : VerifiedWorker anyBackend running (fun _ _ => True) (Waiting before)
    (fun start out t => Waiting before start ∧ NextPost running start out t) where
  stable _ _ h hstep := h.silent (.single (.client hstep))
  restart h := by cases h
  processNext _ h := wp_mono wp_processNext (fun _ _ h' => ⟨h, h'⟩) (fun _ _ h' => ⟨h, h'⟩)
  reconcile _ h := wp_mono wp_reconcile (fun _ _ h' => waiting_of_reconcile h h')
    (fun _ _ h' => h'.elim)
  rest_of_next _ _ _ h := waiting_of_next h.1 h.2

/-- The `process_next` that takes the waiting item and finds `activate_provisioning` succeeding
leaves `PROVISIONING_AP` behind. -/
theorem provisioning_of_next {start : AnyState} {out : Except PyErr Bool}
    (hs : Waiting before start) (h : NextPost running start out t)
    (hstart : start.history.taken = before) (htook : t.history.taken ≠ before)
    (hsucc : ∀ e : CallEvent, e ∈ callsSince start t → e.isProvisioning = true →
      e.succeeded = true) :
    t.history.taken = before ++ [.provisioning] ∧ SettledAt running .provisioningAp t := by
  cases h with
  | nothing _ h => exact absurd ((later_taken h).trans hstart) htook
  | @took u item cs m _ found _ h =>
    have hu : Waiting before u := hs.silent (.of_later found)
    have htaken : u.history.taken = before := (later_taken found).trans hstart
    rcases hu with ⟨-, hmode, hqueue⟩ | hmore
    -- it was the only item in the queue
    · have hitem : item = .provisioning := by
        have := h.queue.symm.trans hqueue
        exact List.singleton_inj.mp this
      rw [callsSince_eq (by rw [h.calls, later_workerCalls found])] at hsucc
      refine ⟨by rw [h.taken, htaken, hitem], ?_⟩
      -- the access point came up, as the calls succeeded
      rcases h.ending with ⟨⟨e, hlast, hafter⟩, -⟩ | ⟨-, -, hnot⟩
      · have hmem : e ∈ cs := List.mem_of_mem_filter (List.mem_of_getLast? hlast)
        have hprov := h.callsOf.provisioning hitem e hmem
        have hm : m = .provisioningAp := by
          simpa [CallEvent.modeAfter, hprov, hsucc e hmem hprov] using hafter.symm
        exact hm ▸ h.settled
      · exact absurd (by rw [hmode]; rfl) hnot
    · rw [htaken] at hmore
      exact absurd hmore (by simp)

/-- `request_provisioning` at rest: answered in `PROVISIONING_AP`, and accepted in every other
mode but `UNCONFIGURED`. -/
theorem request_provisioning_at_rest (hlock : s.lock = none) (hempty : s.work.items = [])
    (hmode : s.controller.mode.transitional = false) (hconf : s.controller.mode ≠ .unconfigured) :
    (s.controller.mode = .provisioningAp ∧ clientStep anyBackend (.request .provisioning) s =
        some (.returned s.controller.snapshot, s)) ∨
      ∃ t, clientStep anyBackend (.request .provisioning) s = some (.pending, t) ∧
        t.history.taken = s.history.taken ∧ t.view.mode = .transition ∧
        t.work.items = [.provisioning] := by
  have hput : s.work.put? .provisioning = some ⟨[.provisioning], by simp⟩ := by
    simp [BoundedQueue.put?, hempty]
  by_cases hap : s.controller.mode = .provisioningAp
  · exact .inl ⟨hap, by simp [clientStep, hlock, Shared.request, hap]⟩
  -- from any other mode at rest the request has a target, and the queue has room
  · have hnext : transitions s.controller.mode .provisioningRequested = some .transition := by
      revert hmode hconf hap
      cases s.controller.mode <;> simp [transitions, NetworkMode.transitional]
    have htransition := transition_eq_ok.mpr hnext
    refine .inr ⟨{ s with
      work := ⟨[.provisioning], by simp⟩
      lock := some (.provisioning, .transition)
      history.accepted := s.history.accepted ++ [.provisioning] }, ?_, rfl, ?_, rfl⟩
    · simp [clientStep, hlock, Shared.request, hap, Shared.enqueueTransition, Request.event,
        htransition, Request.item, hput]
    · simp [Shared.view]

/-- **The controller never gets stuck.** At rest the mode is not transitional. From any such state
but `UNCONFIGURED`, `request_provisioning` returns in `PROVISIONING_AP` or is accepted; and
whatever happens after that, the `process_next` that takes its item, if `activate_provisioning`
succeeds, ends with the mode set to `PROVISIONING_AP`. -/
theorem never_stuck {as : List (Action BackendCall BackendCall.Answer)}
    (run : (daemon anyBackend).Run Discipline.any.ok .init as ⟨s, .idle⟩)
    (hempty : s.work.items = []) :
    s.controller.mode ≠ .stationConnecting ∧ s.controller.mode ≠ .transition ∧
    (s.controller.mode ≠ .unconfigured →
      (s.controller.mode = .provisioningAp ∧ clientStep anyBackend (.request .provisioning) s =
        some (.returned s.controller.snapshot, s)) ∨
      ∃ t, clientStep anyBackend (.request .provisioning) s = some (.pending, t) ∧
        t.work.items = [.provisioning] ∧
        ∀ bs start v out, (daemon anyBackend).Run running.ok ⟨t, .idle⟩ bs
            ⟨v, .processing start (Prog.ofExcept out)⟩ →
          start.history.taken = s.history.taken → v.history.taken ≠ s.history.taken →
          (∀ e : CallEvent, e ∈ callsSince start v → e.isProvisioning = true →
            e.succeeded = true) →
          v.history.taken = s.history.taken ++ [.provisioning] ∧
            SettledAt running .provisioningAp v ∧
            (v.work.items = [] → v.controller.mode = .provisioningAp)) := by
  have hrest : Resting Discipline.any s := run_safe verified_resting resting_init run
  obtain ⟨hlock, hmode⟩ := hrest.mode hempty
  refine ⟨?_, ?_, fun hconf => ?_⟩
  · intro h
    simp [h, NetworkMode.transitional] at hmode
  · intro h
    simp [h, NetworkMode.transitional] at hmode
  -- the request is answered in place or accepted
  rcases request_provisioning_at_rest hlock hempty hmode hconf with
    h | ⟨t, ht, htaken, hview, hitems⟩
  · exact .inl h
  · refine .inr ⟨t, ht, hitems, ?_⟩
    intro bs start v out hrun hstart htook hsucc
    have hwait : Waiting s.history.taken t := .inl ⟨htaken, hview, hitems⟩
    -- the item is this one, and the worker that takes it settles
    obtain ⟨hws, hnext⟩ := next_of_finished verified_waiting hwait hrun
    obtain ⟨htaken', hset⟩ := provisioning_of_next hws hnext hstart htook hsucc
    exact ⟨htaken', hset, fun hv => (hset.rest hv).2⟩

def restingState : DaemonState BackendCall BackendCall.Answer → Option AnyState
  | ⟨s, .idle⟩ => if s.work.items = [] then some s else none
  | _ => none

/-- A state of the daemon with an idle worker and an empty queue. -/
theorem restingState_eq_some {d : DaemonState BackendCall BackendCall.Answer}
    (h : restingState d = some s) : d = ⟨s, .idle⟩ ∧ s.work.items = [] := by
  unfold restingState at h
  split at h
  · split at h
    · next hempty =>
      cases h
      exact ⟨rfl, hempty⟩
    · cases h
  · cases h

/-- A `process_next` that is about to return or raise, from its beginning. -/
def endedNext : DaemonState BackendCall BackendCall.Answer → Option (AnyState × AnyState)
  | ⟨t, .processing start (.raise _)⟩ => some (start, t)
  | ⟨t, .processing start (.ret _)⟩ => some (start, t)
  | _ => none

/-- A state of the daemon in which `process_next` has ended. -/
theorem endedNext_eq_some {d : DaemonState BackendCall BackendCall.Answer} {start : AnyState}
    (h : endedNext d = some (start, t)) :
    ∃ out, d = ⟨t, .processing start (Prog.ofExcept out)⟩ := by
  unfold endedNext at h
  split at h
  · next e =>
    cases h
    exact ⟨.error e, rfl⟩
  · next b =>
    cases h
    exact ⟨.ok b, rfl⟩
  · cases h

/-- A boot after which neither the saved station nor the AP has come up. -/
def deadBoot : List (Action BackendCall BackendCall.Answer) :=
  requesting .boot ++ [.begin .processNext] ++ working 9 true false false ++ [.finishCall]

/-- The request is finished, and the worker brings the AP up. -/
def apBroughtUp : List (Action BackendCall BackendCall.Answer) :=
  [.client .finishRequest, .begin .processNext] ++ working 6 false false true

/-- The item of a request was taken, and the AP came up. -/
def tookProvisioning (s : AnyState) (ended : AnyState × AnyState) : Bool :=
  ended.1.history.taken = s.history.taken ∧ ended.2.history.taken ≠ s.history.taken ∧
    ended.2.work.items = [] ∧ (callsSince ended.1 ended.2).all fun e => e.succeeded

/-- After a boot that ended in `ERROR` the request is accepted, and worked off. -/
theorem never_stuck_deadBoot : ∃ s t start v out,
    (daemon anyBackend).Run Discipline.any.ok .init deadBoot ⟨s, .idle⟩ ∧
      s.controller.mode = .error ∧
      clientStep anyBackend (.request .provisioning) s = some (.pending, t) ∧
      (daemon anyBackend).Run running.ok ⟨t, .idle⟩ apBroughtUp
        ⟨v, .processing start (Prog.ofExcept out)⟩ ∧
      v.history.taken = s.history.taken ++ [.provisioning] ∧
      v.controller.mode = .provisioningAp := by
  have h : ((((daemon anyBackend).exec Discipline.any.check deadBoot .init).bind
      restingState).any fun s => s.controller.mode = .error ∧
        ((clientStep anyBackend (.request .provisioning) s).bind fun r =>
          ((daemon anyBackend).exec running.check apBroughtUp ⟨r.2, .idle⟩).bind endedNext).any
            (tookProvisioning s)) = true := by
    decide
  obtain ⟨s, hs, hrest⟩ := (Option.any_eq_true _ _).mp h
  obtain ⟨herror, hrest⟩ := of_decide_eq_true hrest
  obtain ⟨d, hd, hs⟩ := Option.bind_eq_some_iff.mp hs
  obtain ⟨rfl, hempty⟩ := restingState_eq_some hs
  have run : (daemon anyBackend).Run Discipline.any.ok .init deadBoot
      ⟨s, .idle⟩ := System.run_of_exec hd
  obtain ⟨-, -, hnever⟩ := never_stuck run hempty
  obtain ⟨⟨start, v⟩, hended, htook⟩ := (Option.any_eq_true _ _).mp hrest
  obtain ⟨⟨r, t⟩, hrequest, hended⟩ := Option.bind_eq_some_iff.mp hended
  obtain ⟨d, hd, hended⟩ := Option.bind_eq_some_iff.mp hended
  obtain ⟨out, rfl⟩ := endedNext_eq_some hended
  have hap : (daemon anyBackend).Run running.ok ⟨t, .idle⟩ apBroughtUp
      ⟨v, .processing start (Prog.ofExcept out)⟩ := System.run_of_exec hd
  obtain ⟨hstart, htaken, hdone, hall⟩ := of_decide_eq_true htook
  -- the request is not answered in place, since the mode is `ERROR`
  rcases hnever (by rw [herror]; decide) with ⟨hmode, -⟩ | ⟨t', ht, -, hend⟩
  · rw [herror] at hmode
    cases hmode
  obtain ⟨rfl, rfl⟩ : r = .pending ∧ t = t' := by
    rw [hrequest] at ht
    simpa using ht
  obtain ⟨htaken', -, hmode⟩ := hend _ start v out hap hstart htaken fun e he _ =>
    List.all_eq_true.mp hall e he
  exact ⟨s, t, start, v, out, run, herror, ht, hap, htaken', hmode hdone⟩

end Rave
