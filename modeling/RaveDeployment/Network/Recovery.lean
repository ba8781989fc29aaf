import RaveDeployment.Network.ProcessNext

/-!
# Recovery after a failed attempt

* **`recovers_of_transitional`** — a `process_next` that sees an attempt fail goes on to call
  `activate_provisioning`, in every run in which a boot or connect item is only taken while the
  mode is one its request has set.
* **`recovery_skipped`** — without that condition it does not. `request_provisioning` is accepted
  while a boot is being worked off, and the boot leaves the queue one item ahead of the mode: the
  provisioning item is taken in `PROVISIONING_AP`, and a connect item accepted meanwhile is taken
  there too. `STATION_TIMEOUT` is refused in that mode, and the recovery settles for `ERROR`.
-/

namespace Rave

open Prog

/-- `request_boot` is issued before any other request is accepted, and the process runs on. -/
def bootFirst : AnyDiscipline where
  client s a := !(a matches .request .boot) || s.history.accepted.isEmpty
  worker _ _ _ := true
  restart := false

/-- A boot or connect item is taken only in a transitional mode. -/
def attemptsInTransition : AnyDiscipline where
  client _ _ := true
  worker s o _ := !(o matches .workGet) || s.work.items.all (· = .provisioning) ||
    s.view.mode.transitional
  restart := true

/-- The backend calls a `process_next` has made since it was called in `start`. -/
def callsSince (start t : AnyState) : List CallEvent :=
  t.workerCalls.drop start.workerCalls.length

/-- The calls since the start are those that were added. -/
theorem callsSince_eq {start t : AnyState} {cs : List CallEvent}
    (h : t.workerCalls = start.workerCalls ++ cs) : callsSince start t = cs := by
  rw [callsSince, h, List.drop_left]

/-- Where only the access point was restored, nothing has failed without it. -/
theorem recovers_provisioning {cs : List CallEvent}
    (h : ∀ e ∈ cs, e.isProvisioning = true) : Recovers cs := by
  refine .of_forall fun e he => ?_
  have hprov := h e he
  obtain ⟨c, ans⟩ := e
  cases c <;> simp_all [CallEvent.isProvisioning, CallEvent.failedAttempt]

/-- A `process_next` that took its item in `TRANSITION` has recovered from every failure. -/
theorem recovers_of_next {start t : AnyState} {out : Except PyErr Bool}
    (h : NextPost attemptsInTransition start out t) : Recovers (callsSince start t) := by
  cases h with
  | nothing _ h =>
    have hcalls : t.workerCalls = start.workerCalls ++ [] := by
      rw [later_workerCalls h, List.append_nil]
    rw [callsSince_eq hcalls]
    exact .of_forall (by simp)
  | @took u item cs m _ found allowed h =>
    have hcalls : t.workerCalls = start.workerCalls ++ cs := by
      rw [h.calls, later_workerCalls found]
    rw [callsSince_eq hcalls]
    by_cases hitem : item = .provisioning
    · exact recovers_provisioning (h.callsOf.provisioning hitem)
    · -- the item was taken in a transitional mode, which rules the bad ending out
      obtain ⟨answers, hallowed⟩ := allowed
      have hmode : u.view.mode.transitional = true := by
        simpa [attemptsInTransition, h.queue, hitem] using hallowed
      rcases h.ending with ⟨-, hrec⟩ | ⟨-, -, hnot⟩
      · exact hrec
      · exact absurd hmode hnot

/-- What `process_next` establishes, in every run in which items are taken in `TRANSITION`. -/
theorem verified_attempts : VerifiedWorker anyBackend attemptsInTransition (fun _ _ => True)
    (fun _ => True) (NextPost attemptsInTransition) where
  stable _ _ _ _ := trivial
  restart _ := trivial
  processNext _ _ := wp_processNext
  reconcile _ _ := wp_mono wp_reconcile (fun _ _ _ => trivial) (fun _ _ _ => trivial)
  rest_of_next _ _ _ _ := trivial

/-- **Recovery is attempted.** When boot and connect items are taken in transitional modes only,
a `process_next` that is about to return or raise has followed every failed attempt by an
`activate_provisioning`. -/
theorem recovers_of_transitional {as : List (Action BackendCall BackendCall.Answer)}
    {start t : AnyState} {out : Except PyErr Bool}
    (run : (daemon anyBackend).Run attemptsInTransition.ok .init as
      ⟨t, .processing start (Prog.ofExcept out)⟩) : Recovers (callsSince start t) :=
  recovers_of_next (next_of_finished verified_attempts trivial run)

/-! ## Runs on given answers

A run in which a connection fails, to see the theorem at work. -/

/-- A backend that returns from every call: whether a station is saved, and whether stations and
the AP come up. -/
def answering (saved station ap : Bool) : (b : BackendCall) → b.Answer
  | .hasSavedStation => .ok saved
  | .activateSavedStation => .ok (station, none, none)
  | .connectStation _ _ => .ok (station, none, none)
  | .activateProvisioning => .ok (ap, none)
  | .scan => .ok []
  | .activeStationSsid => .ok none
  | .provisioningReady => .ok true

/-- `n` operations of the worker. -/
def working (n : Nat) (saved station ap : Bool) : List (Action BackendCall BackendCall.Answer) :=
  List.replicate n (.work (answering saved station ap))

/-- A whole request, from taking `_lock` to releasing it. -/
def requesting (r : Request) : List (Action BackendCall BackendCall.Answer) :=
  [.client (.request r), .client .finishRequest]

/-- The calls of a `process_next` that is about to return or raise. -/
def endedCalls : DaemonState BackendCall BackendCall.Answer → Option (List CallEvent)
  | ⟨t, .processing start (.raise _)⟩ => some (callsSince start t)
  | ⟨t, .processing start (.ret _)⟩ => some (callsSince start t)
  | _ => none

/-- A state of the daemon in which `process_next` has ended. -/
theorem endedCalls_eq_some {d : DaemonState BackendCall BackendCall.Answer}
    {cs : List CallEvent} (h : endedCalls d = some cs) :
    ∃ start t out, d = ⟨t, .processing start (Prog.ofExcept out)⟩ ∧ callsSince start t = cs := by
  unfold endedCalls at h
  split at h
  · next t start e => exact ⟨start, t, .error e, rfl, Option.some.inj h⟩
  · next t start b => exact ⟨start, t, .ok b, rfl, Option.some.inj h⟩
  · cases h

/-- A saved station that does not come up at boot. -/
def failedBoot : List (Action BackendCall BackendCall.Answer) :=
  requesting .boot ++ [.begin .processNext] ++ working 9 true false true

/-- A boot whose station fails ends with the access point restored. -/
theorem recovers_failedBoot : ∃ start t out,
    (daemon anyBackend).Run attemptsInTransition.ok .init failedBoot
      ⟨t, .processing start (Prog.ofExcept out)⟩ ∧ Recovers (callsSince start t) := by
  have h : (((daemon anyBackend).exec attemptsInTransition.check failedBoot .init).bind
      endedCalls).isSome = true := by decide
  obtain ⟨cs, hcs⟩ := Option.isSome_iff_exists.mp h
  obtain ⟨d, hd, hcs⟩ := Option.bind_eq_some_iff.mp hcs
  obtain ⟨start, t, out, rfl, -⟩ := endedCalls_eq_some hcs
  have run := System.run_of_exec hd
  exact ⟨start, t, out, run, recovers_of_transitional run⟩

/-- A boot without a saved station, during which the AP is requested. -/
def bootWithRequest : List (Action BackendCall BackendCall.Answer) :=
  requesting .boot ++ [.begin .processNext] ++ working 2 false false true ++
    requesting .provisioning ++ working 7 false false true

/-- The boot ends in the AP; a station is requested while the left-over item is worked off, and
that station does not come up. -/
def skipping : List (Action BackendCall BackendCall.Answer) :=
  bootWithRequest ++ [.finishCall, .begin .processNext] ++
    working 2 false false true ++ requesting (.connect "cave" none) ++
    working 4 false false true ++ [.finishCall, .begin .processNext] ++
    working 7 false false true

/-- **A failed station attempt may end with no attempt to restore the AP.** -/
theorem recovery_skipped : ¬∀ as start t out,
    (daemon anyBackend).Run bootFirst.ok .init as ⟨t, .processing start (Prog.ofExcept out)⟩ →
      Recovers (callsSince start t) := by
  intro hall
  have h : (((daemon anyBackend).exec bootFirst.check skipping .init).bind endedCalls).any
      (fun cs => cs.any CallEvent.failedAttempt && !cs.any CallEvent.isProvisioning) = true := by
    decide
  obtain ⟨cs, hcs, hbad⟩ := (Option.any_eq_true _ _).mp h
  obtain ⟨d, hd, hcs⟩ := Option.bind_eq_some_iff.mp hcs
  obtain ⟨start, t, out, rfl, rfl⟩ := endedCalls_eq_some hcs
  have hrec := hall skipping start t out (System.run_of_exec hd)
  -- the failed attempt is among the calls, and nothing after it is an `activate_provisioning`
  rw [Bool.and_eq_true, List.any_eq_true, Bool.not_eq_true', List.any_eq_false] at hbad
  obtain ⟨⟨e, he, hfailed⟩, hnone⟩ := hbad
  obtain ⟨before, after, hsplit⟩ := List.append_of_mem he
  obtain ⟨e', he', hprov⟩ := hrec before e after hsplit hfailed
  exact hnone e' (by simp [hsplit, he']) hprov

end Rave
