import RaveDeployment.Network.Recovery

/-!
# The reported mode at rest

* **`truthful_of_transitional`** — while the worker is between calls and the queue is empty, the
  mode tells how the last activation went, in every run in which items are only taken in the
  transitional mode their request has set.
* **`not_truthful`** — the left-over provisioning item of `Network.Recovery` breaks this without
  help from a second request: taken in `PROVISIONING_AP`, it brings the AP up once more, `AP_READY`
  is refused, and the recovery reports `ERROR` on a running AP.
-/

namespace Rave

open Prog

def itemsInTransition : AnyDiscipline where
  client _ _ := true
  worker s o _ := !(o matches .workGet) || s.work.items.isEmpty || s.view.mode.transitional
  restart := true

/-- The mode tells how the last activation went. -/
structure Truthful (last : Option CallEvent) (mode : NetworkMode) : Prop where
  unconfigured : mode = .unconfigured ↔ last = none
  provisioningAp : mode = .provisioningAp ↔
    ∃ e, last = some e ∧ e.isProvisioning = true ∧ e.succeeded = true
  stationConnected : mode = .stationConnected ↔
    ∃ e, last = some e ∧ e.isProvisioning = false ∧ e.succeeded = true
  error : mode = .error ↔ ∃ e, last = some e ∧ e.isProvisioning = true ∧ e.succeeded = false

variable {D : AnyDiscipline} {s t : AnyState}

/-- Before any activation the mode claims nothing. -/
theorem truthful_none : Truthful none .unconfigured where
  unconfigured := by simp
  provisioningAp := by simp
  stationConnected := by simp
  error := by simp

/-- The mode that an activation leads to tells how it went. -/
theorem truthful_of_modeAfter {e : CallEvent} {mode : NetworkMode}
    (h : e.modeAfter = some mode) : Truthful (some e) mode := by
  unfold CallEvent.modeAfter at h
  cases hprov : e.isProvisioning <;> cases hsucc : e.succeeded <;> simp only [hprov, hsucc] at h <;>
    cases h <;> constructor <;> simp [hprov, hsucc]

/-- Steps that leave mode and queue alone activate nothing. -/
theorem lastActivation_silent (h : Silent D s t) :
    lastActivation t.workerCalls = lastActivation s.workerCalls := by
  refine Silent.stable (P := fun t => lastActivation t.workerCalls = lastActivation s.workerCalls)
    ?_ (fun _ _ h => h) (fun _ _ h => h) ?_ h rfl
  · intro u v a hu _ hm
    cases hm with
    | quiet _ _ _ _ _ hcalls => rw [hcalls, hu]
    | accept _ _ _ _ _ _ _ _ _ hcalls => rw [hcalls, hu]
  · intro u e he hu
    rw [Shared.workerCalls_record_worker, lastActivation_concat_probe he, hu]

/-- The mode the worker has set last tells how its last activation went. -/
def TruthfulRest (D : AnyDiscipline) (s : AnyState) : Prop :=
  ∃ m, SettledAt D m s ∧ Truthful (lastActivation s.workerCalls) m

theorem TruthfulRest.silent (h : TruthfulRest D s) (ht : Silent D s t) : TruthfulRest D t := by
  obtain ⟨m, ⟨u, hlock, hmode, hu⟩, htrue⟩ := h
  refine ⟨m, ⟨u, hlock, hmode, hu.trans ht⟩, ?_⟩
  rwa [lastActivation_silent ht]

theorem truthfulRest_init : TruthfulRest D Shared.init :=
  ⟨.unconfigured, ⟨.init, rfl, rfl, .refl⟩, truthful_none⟩

/-- `process_next` keeps the mode truthful, where items are taken in `TRANSITION`. -/
theorem truthfulRest_of_next {out : Except PyErr Bool} (hs : TruthfulRest itemsInTransition s)
    (h : NextPost itemsInTransition s out t) : TruthfulRest itemsInTransition t := by
  cases h with
  | nothing _ h => exact hs.silent (.of_later h)
  | @took u item cs m _ _ allowed h =>
    obtain ⟨answers, hallowed⟩ := allowed
    have hmode : u.view.mode.transitional = true := by
      simpa [itemsInTransition, h.queue] using hallowed
    rcases h.ending with ⟨⟨e, hlast, hafter⟩, -⟩ | ⟨-, -, hnot⟩
    · refine ⟨m, h.settled, ?_⟩
      rw [h.calls, lastActivation_append_of_some hlast]
      exact truthful_of_modeAfter hafter
    · exact absurd hmode hnot

theorem truthfulRest_of_reconcile (hs : TruthfulRest D s) (h : ReconcilePost D s t) :
    TruthfulRest D t := by
  cases h with
  | nothing h => exact hs.silent h
  | @restored u ans _ _ h =>
    refine ⟨apMode ans, h.settled, ?_⟩
    rw [h.calls, lastActivation_concat rfl]
    exact truthful_of_modeAfter rfl

/-- The mode is truthful between the worker's calls. -/
theorem verified_truthful : VerifiedWorker anyBackend itemsInTransition (fun _ _ => True)
    (TruthfulRest itemsInTransition) (fun _ _ => TruthfulRest itemsInTransition) where
  stable _ _ h hstep := h.silent (.single (.client hstep))
  restart _ := truthfulRest_init
  processNext _ h := wp_mono wp_processNext (fun _ _ h' => truthfulRest_of_next h h')
    (fun _ _ h' => truthfulRest_of_next h h')
  reconcile _ h := wp_mono wp_reconcile (fun _ _ h' => truthfulRest_of_reconcile h h')
    (fun _ _ h' => h'.elim)
  rest_of_next _ _ _ h := h

/-- **The mode is truthful at rest** when items are taken in transitional modes only. -/
theorem truthful_of_transitional {as : List (Action BackendCall BackendCall.Answer)}
    (run : (daemon anyBackend).Run itemsInTransition.ok .init as ⟨s, .idle⟩)
    (hempty : s.work.items = []) :
    Truthful (lastActivation s.workerCalls) s.controller.mode ∧
      ((∀ e : CallEvent, e ∈ s.workerCalls → e.isProvisioning = true → e.succeeded = true) →
        s.controller.mode ≠ .error) := by
  obtain ⟨m, hset, htrue⟩ : TruthfulRest itemsInTransition s :=
    run_safe verified_truthful truthfulRest_init run
  rw [(hset.rest hempty).2]
  refine ⟨htrue, fun hall herror => ?_⟩
  obtain ⟨e, hlast, hprov, hfailed⟩ := htrue.error.mp herror
  have hmem : e ∈ s.workerCalls := List.mem_of_mem_filter (List.mem_of_getLast? hlast)
  rw [hall e hmem hprov] at hfailed
  cases hfailed

/-- The calls of a daemon at rest, with the mode it reports. -/
def atRest : DaemonState BackendCall BackendCall.Answer → Option (List CallEvent × NetworkMode)
  | ⟨s, .idle⟩ => if s.work.items = [] then some (s.workerCalls, s.controller.mode) else none
  | _ => none

/-- A state of the daemon with an idle worker and an empty queue. -/
theorem atRest_eq_some {d : DaemonState BackendCall BackendCall.Answer} {cs : List CallEvent}
    {m : NetworkMode} (h : atRest d = some (cs, m)) :
    ∃ s, d = ⟨s, .idle⟩ ∧ s.work.items = [] ∧ s.workerCalls = cs ∧ s.controller.mode = m := by
  unfold atRest at h
  split at h
  · next s =>
    split at h
    · next hempty =>
      obtain ⟨hcs, hm⟩ := Prod.mk.inj (Option.some.inj h)
      exact ⟨s, rfl, hempty, hcs, hm⟩
    · cases h
  · cases h

/-- A list of actions that executes and ends at rest is a run that does. -/
theorem exists_run_at_rest (as : List (Action BackendCall BackendCall.Answer))
    (h : (((daemon anyBackend).exec D.check as .init).bind atRest).isSome = true) :
    ∃ s, (daemon anyBackend).Run D.ok .init as ⟨s, .idle⟩ ∧ s.work.items = [] := by
  obtain ⟨⟨cs, m⟩, hcs⟩ := Option.isSome_iff_exists.mp h
  obtain ⟨d, hd, hcs⟩ := Option.bind_eq_some_iff.mp hcs
  obtain ⟨s, rfl, hempty, -, -⟩ := atRest_eq_some hcs
  exact ⟨s, System.run_of_exec hd, hempty⟩

theorem truthful_failedBoot : ∃ s,
    (daemon anyBackend).Run itemsInTransition.ok .init (failedBoot ++ [.finishCall]) ⟨s, .idle⟩ ∧
      Truthful (lastActivation s.workerCalls) s.controller.mode := by
  obtain ⟨s, run, hempty⟩ := exists_run_at_rest (D := itemsInTransition)
    (failedBoot ++ [.finishCall]) (by decide)
  exact ⟨s, run, (truthful_of_transitional run hempty).1⟩

/-- After the boot the left-over item is worked off alone. -/
def leftOver : List (Action BackendCall BackendCall.Answer) :=
  bootWithRequest ++ [.finishCall, .begin .processNext] ++ working 7 false false true ++
    [.finishCall]

/-- **The daemon may rest in `ERROR` although the last activation brought the AP up.** -/
theorem not_truthful : ¬∀ as s, (daemon anyBackend).Run bootFirst.ok .init as ⟨s, .idle⟩ →
    s.work.items = [] → Truthful (lastActivation s.workerCalls) s.controller.mode := by
  intro hall
  have h : (((daemon anyBackend).exec bootFirst.check leftOver .init).bind atRest).any
      (fun r => r.2 = .error ∧ (lastActivation r.1).all CallEvent.succeeded) = true := by decide
  obtain ⟨⟨cs, m⟩, hcs, hbad⟩ := (Option.any_eq_true _ _).mp h
  obtain ⟨d, hd, hcs⟩ := Option.bind_eq_some_iff.mp hcs
  obtain ⟨s, rfl, hempty, rfl, rfl⟩ := atRest_eq_some hcs
  obtain ⟨herror, hsucceeded⟩ := of_decide_eq_true hbad
  have htrue := hall leftOver s (System.run_of_exec hd) hempty
  obtain ⟨e, hlast, -, hfailed⟩ := htrue.error.mp herror
  rw [hlast, Option.all_some, hfailed] at hsucceeded
  cases hsucceeded

end Rave
