import RaveDeployment.Network.AnyBackend
import RaveDeployment.Network.WorkerLogic

/-!
# What the worker's methods do

One specification for each method of the worker, over `anyBackend` and under any discipline.
An outcome is described by the backend calls it made and by what it did to the mode:

* `Through s t cs`: the calls `cs` were made and no block changed the mode, so a transitional
  mode is still transitional. This is how every exception leaves the controller.
* `Settled s t cs m`: the calls `cs` were made and the last `_lock` block set the mode to `m`;
  whatever has changed since is the work of clients. This is how every normal return leaves it.

`wp_processNext` assembles them: it is the one fact about `process_next` the later theorems use.
-/

namespace Rave

open Prog

/-- What the threads share, over the calls of the backend. -/
abbrev AnyState : Type := Shared BackendCall BackendCall.Answer

abbrev AnyDiscipline : Type 1 := Discipline BackendCall BackendCall.Answer

abbrev anyEnv (D : AnyDiscipline) : Env (WorkerOp BackendCall) (WorkerAns BackendCall.Answer)
    AnyState :=
  workerEnv anyBackend D fun _ _ => True

/-- The provisioning activation that was answered `ans`. -/
abbrev provisioningEvent (ans : BackendCall.activateProvisioning.Answer) : CallEvent :=
  ⟨.activateProvisioning, ans⟩

/-- The mode `_restore_provisioning` ends in. -/
def apMode (ans : BackendCall.activateProvisioning.Answer) : NetworkMode :=
  if (provisioningEvent ans).succeeded then .provisioningAp else .error

variable {D : AnyDiscipline} {s t u : AnyState} {cs cs' : List CallEvent} {m : NetworkMode}

/-! ## Outcomes

What a part of the worker's program has done between two states: the calls it made, and the mode
that it set last. -/

/-- `station_ssid` is rewritten, as `_reconcile_station` does. -/
def Shared.setSsid {B : Type} {Ans : B → Type} (s : Shared B Ans) (ssid : Option String) :
    Shared B Ans :=
  { s with controller.stationSsid := ssid }

@[simp] theorem Shared.setSsid_view_mode {B : Type} {Ans : B → Type} (s : Shared B Ans)
    (ssid : Option String) : (s.setSsid ssid).view.mode = s.view.mode := by
  unfold Shared.setSsid Shared.view
  cases s.lock <;> simp

/-- From `s` to `t` the worker made the calls `cs` and changed no mode. -/
structure Through (s t : AnyState) (cs : List CallEvent) : Prop where
  calls : t.workerCalls = s.workerCalls ++ cs
  taken : t.history.taken = s.history.taken
  transition : s.view.mode = .transition → t.view.mode = .transition
  transitional : s.view.mode.transitional = true → t.view.mode.transitional = true

/-- A step of a client, or one of the worker that leaves mode and queue alone: on
`_operation_lock`, on `station_ssid`, or asking the backend for the state of the network. -/
inductive SilentStep (D : AnyDiscipline) : AnyState → AnyState → Prop where
  | client {s t : AnyState} (h : ClientStep anyBackend D s t) : SilentStep D s t
  | operation (s : AnyState) (operation : Option (Owner BackendCall BackendCall.Answer)) :
      SilentStep D s { s with operation := operation }
  | ssid (s : AnyState) (ssid : Option String) : SilentStep D s (s.setSsid ssid)
  | probe (s : AnyState) (e : CallEvent) (h : e.isProbe = true) :
      SilentStep D s (s.record .worker e)

/-- Any number of steps in which the worker touches neither the mode nor the queue. -/
def Silent (D : AnyDiscipline) : AnyState → AnyState → Prop :=
  Relation.ReflTransGen (SilentStep D)

/-- The worker has set the mode to `m`, and has touched neither mode nor queue since. -/
def SettledAt (D : AnyDiscipline) (m : NetworkMode) (t : AnyState) : Prop :=
  ∃ u : AnyState, u.lock = none ∧ u.controller.mode = m ∧ Silent D u t

/-- From `s` to `t` the worker made the calls `cs` and last set the mode to `m`. -/
structure Settled (D : AnyDiscipline) (s t : AnyState) (cs : List CallEvent)
    (m : NetworkMode) : Prop where
  calls : t.workerCalls = s.workerCalls ++ cs
  taken : t.history.taken = s.history.taken
  settled : SettledAt D m t

theorem Silent.of_later (h : (anyEnv D).later s t) : Silent D s t :=
  Relation.ReflTransGen.mono (fun _ _ hstep => SilentStep.client hstep) _ _ h

theorem Silent.trans (h : Silent D s t) (h' : Silent D t u) : Silent D s u :=
  Relation.ReflTransGen.trans h h'

/-- An assertion is kept by silent steps when client moves keep it and it mentions neither
`_operation_lock` nor `station_ssid` nor the probing calls. -/
theorem Silent.stable {P : AnyState → Prop}
    (hclient : ∀ s t a, P s → D.client s a → ClientMove a s t → P t)
    (hoperation : ∀ s operation, P s → P { s with operation := operation })
    (hssid : ∀ s ssid, P s → P (s.setSsid ssid))
    (hprobe : ∀ s (e : CallEvent), e.isProbe = true → P s → P (s.record .worker e))
    (h : Silent D s t) (hs : P s) : P t := by
  induction h with
  | refl => exact hs
  | tail _ hstep ih =>
    cases hstep with
    | client hc =>
      obtain ⟨a, reply, hok, hc⟩ := hc
      exact hclient _ _ a ih hok (clientStep_move hc)
    | operation operation => exact hoperation _ operation ih
    | ssid ssid => exact hssid _ ssid ih
    | probe e he => exact hprobe _ e he ih

/-- Steps of the clients make no call of the worker's. -/
theorem Through.of_later (h : (anyEnv D).later s t) : Through s t [] where
  calls := by simp [later_workerCalls h]
  taken := later_taken h
  transition hs := (later_transition h hs).1
  transitional := later_transitional h

/-- Two parts, one after the other. -/
theorem Through.trans (h : Through s t cs) (h' : Through t u cs') : Through s u (cs ++ cs') where
  calls := by rw [h'.calls, h.calls, List.append_assoc]
  taken := h'.taken.trans h.taken
  transition hs := h'.transition (h.transition hs)
  transitional hs := h'.transitional (h.transitional hs)

theorem Through.later (h : Through s t cs) (h' : (anyEnv D).later t u) : Through s u cs := by
  simpa using h.trans (.of_later h')

theorem Through.record (s : AnyState) (e : CallEvent) : Through s (s.record .worker e) [e] where
  calls := Shared.workerCalls_record_worker s e
  taken := rfl
  transition := id
  transitional := id

/-- A part before one that settles the mode. -/
theorem Through.settled (h : Through s t cs) (h' : Settled D t u cs' m) :
    Settled D s u (cs ++ cs') m where
  calls := by rw [h'.calls, h.calls, List.append_assoc]
  taken := h'.taken.trans h.taken
  settled := h'.settled

/-- A block executed on the fields the clients left behind sets the mode. -/
theorem Settled.of_block {self : NetworkController} (ht : (anyEnv D).later s t)
    (hlock : t.lock = none) (hmode : self.mode = m)
    (hu : (anyEnv D).later { t with controller := self } u) : Settled D s u [] m where
  calls := by
    have hcalls := later_workerCalls ht
    rw [later_workerCalls hu, List.append_nil]
    exact hcalls
  taken := by
    have htaken := later_taken ht
    rw [later_taken hu]
    exact htaken
  settled := ⟨{ t with controller := self }, hlock, hmode, .of_later hu⟩

/-- Steps of the clients behind it. -/
theorem Settled.later (h : Settled D s t cs m) (h' : (anyEnv D).later t u) :
    Settled D s u cs m where
  calls := by rw [later_workerCalls h', h.calls]
  taken := (later_taken h').trans h.taken
  settled := by
    obtain ⟨w, hlock, hmode, hw⟩ := h.settled
    exact ⟨w, hlock, hmode, hw.trans (.of_later h')⟩

/-- After the worker has settled the mode, an empty queue means that nothing has changed it. -/
theorem SettledAt.quiet (h : SettledAt D m t) :
    (t.work.items = [] → t.view.mode = m) ∧ (t.lock.isSome → t.work.items ≠ []) := by
  obtain ⟨u, hlock, hmode, hu⟩ := h
  refine Silent.stable (P := fun t : AnyState => (t.work.items = [] → t.view.mode = m) ∧
      (t.lock.isSome → t.work.items ≠ [])) ?_ (fun _ _ h => h) ?_ (fun _ _ _ h => h) hu ?_
  · rintro v w a ⟨hv, hl⟩ _ hm
    cases hm with
    | quiet hview hwork hlock' _ _ _ =>
      rw [hview, hwork]
      exact ⟨hv, fun h => hl (hlock' h)⟩
    | accept r _ _ _ _ _ hwork' _ _ _ =>
      rw [hwork']
      exact ⟨by simp, by simp⟩
  · intro v ssid hv
    rw [Shared.setSsid_view_mode]
    exact hv
  · rw [Shared.view_of_lock hlock, hlock]
    exact ⟨fun _ => hmode, by simp⟩

/-- With an empty queue the mode is still the one that was set. -/
theorem SettledAt.rest (h : SettledAt D m t) (hempty : t.work.items = []) :
    t.lock = none ∧ t.controller.mode = m := by
  obtain ⟨hmode, hlock⟩ := h.quiet
  have hfree : t.lock = none := by
    by_contra hheld
    exact hlock (Option.isSome_iff_ne_none.mpr hheld) hempty
  refine ⟨hfree, ?_⟩
  rw [← Shared.view_of_lock hfree]
  exact hmode hempty

/-! ## Backend calls and `_lock` blocks

The rules of the parts that the methods are made of. -/

section

variable {α : Type} {Q : α → AnyState → Prop} {R : PyErr → AnyState → Prop}

/-- A backend call is answered in some later state, and is recorded there. -/
theorem wp_call {c : BackendCall} {Q : c.Result → AnyState → Prop}
    (hok : ∀ t a, Through s t [⟨c, .ok a⟩] → Q a t)
    (herr : ∀ t e, Through s t [⟨c, .error e⟩] → R e.val t) :
    (Worker.ofBackend (.op c BackendCall.outcome)).wp (anyEnv D) Q R s := by
  intro t ht
  refine ⟨trivial, ?_⟩
  rintro r w ⟨answers, -, hx⟩
  cases hx
  have hrec : Through s (t.record .worker ⟨c, answers c⟩) [⟨c, answers c⟩] := by
    simpa using (Through.of_later ht).trans (.record t ⟨c, answers c⟩)
  cases hans : answers c with
  | ok a =>
    rw [hans] at hrec
    exact fun v hv => hok v a (hrec.later hv)
  | error e =>
    rw [hans] at hrec
    exact fun v hv => herr v e (hrec.later hv)

/-- `try call except ...: fallback`: nothing escapes. -/
theorem wp_callOr {c : BackendCall} {fallback : PyErr → c.Result}
    {Q : c.Result → AnyState → Prop}
    (h : ∀ t (ans : c.Answer) a, Through s t [⟨c, ans⟩] →
      (ans = .ok a ∨ ∃ e, ans = .error e ∧ a = fallback e.val) → Q a t) :
    (Worker.orOnFailure (Worker.ofBackend (.op c BackendCall.outcome)) fun e =>
      (Prog.ret (fallback e) : Worker BackendCall BackendCall.Answer c.Result)).wp
        (anyEnv D) Q R s := by
  refine wp_handle.mpr (wp_call ?_ ?_)
  · exact fun t a ht u hu => h u _ a (ht.later hu) (.inl rfl)
  · intro t e ht
    rw [if_pos e.property]
    exact fun u hu => h u _ _ (ht.later hu) (.inr ⟨e, rfl, rfl⟩)

/-- A block that returns normally and sets the mode to `m` settles it. -/
theorem wp_locked_settles {body : Locked Unit} {P : NetworkMode → Prop}
    (hbody : ∀ self : NetworkController, (P self.mode ∧ (body self).1 = .ok () ∧
      (body self).2.mode = m) ∨
      (¬P self.mode ∧ ∃ e, (body self).1 = .error e ∧ e.handled = true ∧ (body self).2 = self)) :
    (Worker.locked body : Worker BackendCall BackendCall.Answer Unit).wp (anyEnv D)
      (fun _ t => Settled D s t [] m)
      (fun e t => e.handled = true ∧ Through s t [] ∧
        ∃ u, (anyEnv D).later s u ∧ ¬P u.view.mode) s := by
  refine Worker.wp_locked fun t ht => ⟨trivial, fun hlock => ?_⟩
  rcases hbody t.view with ⟨-, hok, hmode⟩ | ⟨hP, e, herr, hhandled, hsame⟩
  · rw [hok]
    exact fun u hu => .of_block ht hlock hmode hu
  · rw [herr]
    intro u hu
    rw [hsame, Shared.view_of_lock hlock] at hu
    exact ⟨hhandled, Through.of_later ((anyEnv D).later_trans ht hu), t, ht, hP⟩

end

/-- A transition and the writes that follow it, or an error and none. -/
theorem applyThenSet_cases (event : NetworkEvent) (ssid err : Option String)
    (self : NetworkController) (hm : ∀ c, transitions c event = none ∨
      transitions c event = some m) :
    ((transitions self.mode event).isSome = true ∧
      (Locked.applyThenSet event ssid err self).1 = .ok () ∧
      (Locked.applyThenSet event ssid err self).2.mode = m) ∨
    (¬(transitions self.mode event).isSome = true ∧
      ∃ e, (Locked.applyThenSet event ssid err self).1 = .error e ∧ e.handled = true ∧
        (Locked.applyThenSet event ssid err self).2 = self) := by
  unfold Locked.applyThenSet Locked.apply transition
  rcases hm self.mode with h | h
  · rw [h]
    exact .inr ⟨by simp, _, rfl, rfl, rfl⟩
  · rw [h]
    exact .inl ⟨rfl, rfl, rfl⟩

/-! ## The methods

`_restore_provisioning`, what is made of an attempt, and the recovery. -/

/-- `_restore_provisioning` calls `activate_provisioning` once. It ends in the mode that tells
how the call went, or raises because the mode it found was not `TRANSITION`. -/
theorem wp_restoreProvisioning (prior : Option String) :
    (Worker.restoreProvisioning anyBackend prior).wp (anyEnv D)
      (fun _ t => ∃ ans, Settled D s t [provisioningEvent ans] (apMode ans))
      (fun e t => e.handled = true ∧ s.view.mode ≠ .transition ∧
        ∃ ans, Through s t [provisioningEvent ans]) s := by
  have hready : ∀ c, transitions c .apReady = none ∨
      transitions c .apReady = some .provisioningAp := by
    intro c
    cases c <;> simp [transitions]
  have hfailed : ∀ c, transitions c .apFailed = none ∨
      transitions c .apFailed = some .error := by
    intro c
    cases c <;> simp [transitions]
  refine wp_bind.mpr (wp_callOr fun t ans a ht hans => ?_)
  -- the answer decides which of the two blocks runs, and with it the mode
  have hmode : apMode ans = if a.1 then .provisioningAp else .error := by
    rcases hans with rfl | ⟨e, rfl, rfl⟩
    · rfl
    · rfl
  have hraise : ∀ (P : NetworkMode → Prop) (e : PyErr) (v : AnyState), P .transition →
      (e.handled = true ∧ Through t v [] ∧ ∃ w, (anyEnv D).later t w ∧ ¬P w.view.mode) →
      e.handled = true ∧ s.view.mode ≠ .transition ∧
        ∃ ans, Through s v [provisioningEvent ans] := by
    rintro P e v hP ⟨he, hv, w, hw, hnot⟩
    refine ⟨he, ?_, ans, by simpa using ht.trans hv⟩
    intro hs
    rw [(later_transition hw (ht.transition hs)).1] at hnot
    exact hnot hP
  obtain ⟨success, apError⟩ := a
  cases success with
  | true =>
    refine wp_mono (wp_locked_settles (m := .provisioningAp)
      (P := fun c => (transitions c .apReady).isSome = true)
      fun self => applyThenSet_cases _ _ _ _ hready) ?_ ?_
    · intro _ v hv
      exact ⟨ans, by rw [hmode]; simpa using ht.settled hv⟩
    · exact fun e v h => hraise (fun c => (transitions c .apReady).isSome = true) e v rfl h
  | false =>
    refine wp_mono (wp_locked_settles (m := .error)
      (P := fun c => (transitions c .apFailed).isSome = true)
      fun self => applyThenSet_cases _ _ _ _ hfailed) ?_ ?_
    · intro _ v hv
      exact ⟨ans, by rw [hmode]; simpa using ht.settled hv⟩
    · exact fun e v h => hraise (fun c => (transitions c .apFailed).isSome = true) e v rfl h

/-- From `TRANSITION`, `_restore_provisioning` does not raise. -/
theorem wp_restoreProvisioning_transition (prior : Option String)
    (h : s.view.mode = .transition) :
    (Worker.restoreProvisioning anyBackend prior).wp (anyEnv D)
      (fun _ t => ∃ ans, Settled D s t [provisioningEvent ans] (apMode ans))
      (fun _ _ => False) s :=
  wp_mono (wp_restoreProvisioning prior) (fun _ _ h => h) fun _ _ h' => h'.2.1 h

/-- `_apply` of an event that leads to `TRANSITION` from wherever it is valid. -/
theorem wp_apply {event : NetworkEvent}
    (hm : ∀ c, transitions c event = none ∨ transitions c event = some .transition) :
    (Worker.apply event : Worker BackendCall BackendCall.Answer Unit).wp (anyEnv D)
      (fun _ t => Through s t [] ∧ t.view.mode = .transition)
      (fun e t => e.handled = true ∧ Through s t [] ∧
        ∃ u, (anyEnv D).later s u ∧ transitions u.view.mode event = none) s := by
  refine Worker.wp_locked fun t ht => ⟨trivial, fun hlock => ?_⟩
  unfold Locked.apply transition
  rcases hm t.view.mode with h | h
  · rw [h]
    intro u hu
    rw [Shared.view_of_lock hlock] at hu
    exact ⟨rfl, Through.of_later ((anyEnv D).later_trans ht hu), t, ht, h⟩
  · rw [h]
    intro u hu
    have hmode : u.view.mode = .transition :=
      (later_transition hu (by simp [Shared.view, hlock])).1
    have hset : Settled D s u [] .transition := .of_block ht hlock rfl hu
    exact ⟨⟨hset.calls, hset.taken, fun _ => hmode, fun _ => by rw [hmode]; rfl⟩, hmode⟩

/-- A station that has gone leads to `TRANSITION`. -/
theorem transitions_stationTimeout (c : NetworkMode) :
    transitions c .stationTimeout = none ∨ transitions c .stationTimeout = some .transition := by
  cases c <;> simp [transitions]

/-- Only a mode that is not transitional has no such entry. -/
theorem transitions_stationTimeout_eq_none {c : NetworkMode}
    (h : transitions c .stationTimeout = none) : ¬c.transitional = true := by
  cases c <;> simp_all [transitions, NetworkMode.transitional]

/-- What follows a station attempt: the mode tells how the last activation went, or the mode
was not a transitional one. -/
theorem wp_settleAttempt (result : Bool × Option String × Option String) (fallback : String) :
    (Worker.settleAttempt anyBackend result fallback).wp (anyEnv D)
      (fun _ t => (result.1 = true ∧ Settled D s t [] .stationConnected) ∨
        (result.1 = false ∧ ∃ ans, Settled D s t [provisioningEvent ans] (apMode ans)))
      (fun e t => e.handled = true ∧ Through s t [] ∧ ¬s.view.mode.transitional = true) s := by
  obtain ⟨success, ssid, error⟩ := result
  cases success with
  | true =>
    -- a failed event is handled; by then the mode was at rest
    have hconnected : ∀ c, transitions c .stationConnected = none ∨
        transitions c .stationConnected = some .stationConnected := by
      intro c
      cases c <;> simp [transitions]
    refine wp_mono (wp_locked_settles (m := .stationConnected)
      (P := fun c => (transitions c .stationConnected).isSome = true)
      fun self => applyThenSet_cases _ _ _ _ hconnected) ?_ ?_
    · exact fun _ v hv => .inl ⟨rfl, hv⟩
    · rintro e v ⟨he, hv, w, hw, hnot⟩
      refine ⟨he, hv, fun hs => ?_⟩
      have := later_transitional hw hs
      revert this hnot
      cases w.view.mode <;> simp [transitions, NetworkMode.transitional]
  -- the failure goes through the transition to the access point
  | false =>
    refine wp_bind.mpr (wp_mono (wp_apply transitions_stationTimeout) ?_ ?_)
    · rintro _ v ⟨hv, hmode⟩
      refine wp_mono (wp_restoreProvisioning_transition _ hmode) ?_ (fun _ _ h => h.elim)
      rintro _ w ⟨ans, hw⟩
      exact .inr ⟨rfl, ans, by simpa using hv.settled hw⟩
    · rintro e v ⟨he, hv, w, hw, hnone⟩
      exact ⟨he, hv, fun hs =>
        transitions_stationTimeout_eq_none hnone (later_transitional hw hs)⟩

/-- `_recover_unexpected_failure` never raises. It restores the AP unless the mode is neither
`STATION_CONNECTING` nor `TRANSITION`, and then it settles for `ERROR`. -/
theorem wp_recoverUnexpectedFailure :
    (Worker.recoverUnexpectedFailure anyBackend).wp (anyEnv D)
      (fun _ t => (∃ ans, Settled D s t [provisioningEvent ans] (apMode ans)) ∨
        (¬s.view.mode.transitional = true ∧ Settled D s t [] .error))
      (fun _ _ => False) s := by
  refine wp_bind.mpr (Worker.wp_locked fun t ht => ⟨trivial, fun hlock => ?_⟩)
  by_cases hc : t.view.mode.transitional = true
  · -- both transitional modes lead to `TRANSITION`, where nothing interferes
    have hrec : (Locked.recover t.view).1 = .ok true ∧
        (Locked.recover t.view).2.mode = .transition := by
      unfold Locked.recover Locked.apply transition
      cases hmode : t.view.mode <;> simp_all [NetworkMode.transitional, transitions]
    rw [hrec.1]
    intro u hu
    have hmode : u.view.mode = .transition :=
      (later_transition hu (by simpa [Shared.view, hlock] using hrec.2)).1
    refine wp_mono (wp_restoreProvisioning_transition _ hmode) ?_ (fun _ _ h => h)
    rintro _ w ⟨ans, hw⟩
    have hset : Settled D s u [] .transition := .of_block ht hlock hrec.2 hu
    refine .inl ⟨ans, ?_, ?_, hw.settled⟩
    · rw [hw.calls, hset.calls, List.append_nil]
    · rw [hw.taken, hset.taken]
  · have hrec : Locked.recover t.view = (.ok false,
        { mode := .error, stationSsid := none, lastError := some "network_operation_failed" }) := by
      unfold Locked.recover
      cases hmode : t.view.mode <;> simp_all [NetworkMode.transitional]
    rw [hrec]
    intro u hu w hw
    have hlater := (anyEnv D).later_trans hu hw
    exact .inr ⟨fun hs => hc (later_transitional ht hs), .of_block ht hlock rfl hlater⟩

end Rave
