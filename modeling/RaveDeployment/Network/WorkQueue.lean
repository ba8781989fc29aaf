import RaveDeployment.Network.NeverStuck

/-!
# Accepted work is done exactly once

* `conserved_of_run` — at every moment the accepted items are those taken followed by those still
  queued, so nothing is lost, duplicated or overtaken.
* `Accounted` — between two calls of the worker the items that ask for a backend call of their own
  are those taken, in the same order.
* `client_request` — a refused request changes nothing at all.
-/

namespace Rave

open Prog

variable {B : Type} {Ans : B → Type}

/-! ## The queue

What was accepted is taken in the same order. -/

/-- What was accepted has been taken or is queued, in this order. -/
def Conserved (s : Shared B Ans) : Prop :=
  s.history.accepted = s.history.taken ++ s.work.items

/-- A client adds to both sides, or to none. -/
theorem conserved_clientMove {a : ClientAction B Ans} {s t : Shared B Ans} (h : Conserved s)
    (hm : ClientMove a s t) : Conserved t := by
  unfold Conserved at h ⊢
  cases hm with
  | quiet _ hwork _ hacc htaken _ => rw [hacc, htaken, hwork, h]
  | accept r _ _ _ _ hwork hwork' hacc htaken _ =>
    rw [hacc, htaken, hwork', h, hwork, List.append_nil]

/-- The worker moves an item from the queue to those taken. -/
theorem conserved_daemonMove {backend : NetworkBackend B Ans} {d d' : DaemonState B Ans}
    (h : Conserved d.shared) (hm : DaemonMove backend d d') : Conserved d'.shared := by
  cases hm with
  | client hc => exact conserved_clientMove h (clientStep_move hc)
  | worker _ hx =>
    unfold Conserved at h ⊢
    rcases workerExec_cases hx with ⟨item, rest, hget, ht⟩ | ⟨b, -, ht⟩ | ⟨hwork, hhist, -⟩
    · rw [ht]
      show d.shared.history.accepted = (d.shared.history.taken ++ [item]) ++ rest.items
      rw [h, BoundedQueue.get?_eq_some hget, List.append_assoc, List.singleton_append]
    · rw [ht]
      exact h
    · rw [hwork, hhist]
      exact h
  | silent hs => rwa [hs]
  | restart hs =>
    rw [hs]
    rfl

/-- **The queue neither loses, nor duplicates, nor reorders.** -/
theorem conserved_of_run {backend : NetworkBackend B Ans} {D : Discipline B Ans}
    {as : List (Action B Ans)} {d : DaemonState B Ans}
    (run : (daemon backend).Run D.ok .init as d) : Conserved d.shared := by
  have hinit : Conserved (Shared.init : Shared B Ans) := rfl
  exact run.invariant (I := fun d => Conserved d.shared) hinit
    fun _ _ _ h _ hs => conserved_daemonMove h (daemonStep_move hs)

/-! ## The backend calls

What was taken is asked of the backend, once and in the same order. -/

variable {D : AnyDiscipline} {s t : AnyState}

/-- The backend calls that a single item asks for are those of the items taken. -/
def Accounted (s : AnyState) : Prop :=
  s.workerCalls.filterMap CallEvent.requested = s.history.taken.filter (· ≠ .provisioning)

theorem requested_of_isProbe {e : CallEvent} (h : e.isProbe = true) : e.requested = none := by
  obtain ⟨c, ans⟩ := e
  cases c <;> first | rfl | cases h

/-- Steps that leave mode and queue alone ask for nothing. -/
theorem Accounted.silent (h : Accounted s) (ht : Silent D s t) : Accounted t := by
  refine Silent.stable ?_ (fun _ _ h => h) (fun _ _ h => h) ?_ ht h
  · intro u v a hu _ hm
    unfold Accounted
    cases hm with
    | quiet _ _ _ _ htaken hcalls => rwa [htaken, hcalls]
    | accept _ _ _ _ _ _ _ _ htaken hcalls => rwa [htaken, hcalls]
  · intro u e he hu
    unfold Accounted
    rw [Shared.workerCalls_record_worker, List.filterMap_append, List.filterMap_cons_none
      (requested_of_isProbe he), List.filterMap_nil, List.append_nil]
    exact hu

/-- `process_next` asks for what its item asks for. -/
theorem accounted_of_next {out : Except PyErr Bool} (hs : Accounted s) (h : NextPost D s out t) :
    Accounted t := by
  cases h with
  | nothing _ h => exact hs.silent (.of_later h)
  | @took u item cs m _ found _ h =>
    have hu : Accounted u := hs.silent (.of_later found)
    unfold Accounted at hu ⊢
    rw [h.calls, h.taken, List.filterMap_append, List.filter_append, hu, h.callsOf.requested]

/-- `reconcile` asks for nothing that was requested. -/
theorem accounted_of_reconcile (hs : Accounted s) (h : ReconcilePost D s t) : Accounted t := by
  cases h with
  | nothing h => exact hs.silent h
  | @restored u ans hu _ h =>
    have hacc := hs.silent hu
    unfold Accounted at hacc ⊢
    rw [h.calls, h.taken, List.filterMap_append, hacc]
    exact List.append_nil _

/-- The calls are accounted for between the worker's calls. -/
theorem verified_accounted : VerifiedWorker anyBackend D (fun _ _ => True) Accounted
    (fun _ _ => Accounted) where
  stable _ _ h hstep := h.silent (.single (.client hstep))
  restart _ := rfl
  processNext _ h := wp_mono wp_processNext (fun _ _ h' => accounted_of_next h h')
    (fun _ _ h' => accounted_of_next h h')
  reconcile _ h := wp_mono wp_reconcile (fun _ _ h' => accounted_of_reconcile h h')
    (fun _ _ h' => h'.elim)
  rest_of_next _ _ _ h := h

/-! ## The requests

Both put together, from the request to the call. -/

/-- A request is accepted and its item put, or it is answered at once and changes nothing. -/
theorem client_request {backend : NetworkBackend B Ans} {r : Request} {reply : Reply}
    {s t : Shared B Ans} (h : clientStep backend (.request r) s = some (reply, t)) :
    (reply = .pending ∧ t.lock.isSome = true ∧
      t.history.accepted = s.history.accepted ++ [r.item]) ∨
    (t = s ∧ ((∃ e, reply = .raised e) ∨ reply = .returned s.controller.snapshot ∧
      r = .provisioning ∧ s.controller.mode = .provisioningAp)) := by
  simp only [clientStep] at h
  split at h
  · cases h
  have h := Option.some.inj h
  unfold Shared.request at h
  split at h
  -- the access point is active already: an answer at once
  · next hap =>
    cases h
    exact .inr ⟨rfl, .inr ⟨rfl, hap⟩⟩
  unfold Shared.enqueueTransition at h
  split at h
  · cases h
    exact .inr ⟨rfl, .inl ⟨_, rfl⟩⟩
  · split at h
    · cases h
      -- the work is queued, and the request goes on to its commit
      exact .inr ⟨rfl, .inl ⟨_, rfl⟩⟩
    · cases h
      exact .inl ⟨rfl, rfl, rfl⟩

/-- **Accepted work is done exactly once, refused work leaves no trace.** In every reachable
state: a request that raises leaves everything as it was, and one whose item was put returns
normally; the accepted items are those taken, in order, and those queued; and whenever the worker
is between calls it has made one `has_saved_station` for each boot item taken and one
`connect_station` with its arguments for each connect item taken, in this order; with the queue
empty these are the accepted ones. -/
theorem accepted_exactly_once {as : List (Action BackendCall BackendCall.Answer)}
    {d : DaemonState BackendCall BackendCall.Answer}
    (run : (daemon anyBackend).Run Discipline.any.ok .init as d) :
    (∀ r reply t, clientStep anyBackend (.request r) d.shared = some (reply, t) →
      (reply = .pending ∧ t.lock.isSome = true ∧
        t.history.accepted = d.shared.history.accepted ++ [r.item]) ∨
      (t = d.shared ∧ ((∃ e, reply = .raised e) ∨ reply = .returned d.shared.controller.snapshot ∧
        r = .provisioning ∧ d.shared.controller.mode = .provisioningAp))) ∧
    (d.shared.lock.isSome = true → ∃ snapshot t,
      clientStep anyBackend .finishRequest d.shared = some (.returned snapshot, t) ∧
        t.history = d.shared.history) ∧
    d.shared.history.accepted = d.shared.history.taken ++ d.shared.work.items ∧
    (d.worker = .idle →
      d.shared.workerCalls.filterMap CallEvent.requested =
        d.shared.history.taken.filter (· ≠ .provisioning) ∧
      (d.shared.work.items = [] → d.shared.history.taken = d.shared.history.accepted)) := by
  have hqueue := conserved_of_run run
  -- what is taken and what is queued make up what was accepted, in this order
  refine ⟨fun r reply t h => client_request h, ?_, hqueue, ?_⟩
  · intro hlock
    obtain ⟨⟨r, next⟩, hr⟩ := Option.isSome_iff_exists.mp hlock
    exact ⟨(r.commit next d.shared.controller).snapshot,
      { d.shared with controller := r.commit next d.shared.controller, lock := none },
      by simp only [clientStep, hr], rfl⟩
  -- at rest the calls account for every item that was taken
  · intro hidle
    obtain ⟨s, worker⟩ := d
    obtain rfl : worker = .idle := hidle
    have hinit : Accounted Shared.init := rfl
    refine ⟨run_safe verified_accounted hinit run, fun hempty => ?_⟩
    unfold Conserved at hqueue
    rw [hqueue, hempty, List.append_nil]

theorem accepted_exactly_once_failedBoot : ∃ s,
    (daemon anyBackend).Run Discipline.any.ok .init (failedBoot ++ [.finishCall]) ⟨s, .idle⟩ ∧
      s.workerCalls.filterMap CallEvent.requested =
        s.history.taken.filter (· ≠ .provisioning) := by
  obtain ⟨s, run, -⟩ := exists_run_at_rest (D := Discipline.any)
    (failedBoot ++ [.finishCall]) (by decide)
  obtain ⟨-, -, -, hidle⟩ := accepted_exactly_once run
  exact ⟨s, run, (hidle rfl).1⟩

end Rave
