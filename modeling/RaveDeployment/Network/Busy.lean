import RaveDeployment.Network.Server

/-!
# Refusals reported as busy

A request may be refused by the mode check of `scan`, by the transition table, or by the full queue.
The first and the last raise `RuntimeError("network_transition_busy")`, which is a public code; the
table raises a `ValueError`, which is not.

`reportedBusy_iff`: a refusal is reported as busy, and `internal_error` kept for the backend, exactly
where the table has an entry for the mode and the request. `busy_as_internal` is a `CONNECT` sent
while the daemon boots.
-/

namespace Rave

variable {B : Type} {Ans : B → Type}

/-- What a client is told when a transition is under way. -/
def busyResponse : Json := errorResponseCode "network_transition_busy"

/-- The first thing the controller does for a request that it may refuse. -/
def ParsedRequest.firstStep : ParsedRequest → Option (ClientAction B Ans)
  | .status => none
  | .scan => some .scanCheck
  | .connect ssid password => some (.request (.connect ssid password))
  | .provisioning => some (.request .provisioning)

/-- The controller refuses the request with this exception, before it calls the backend. -/
def Refuses (backend : NetworkBackend B Ans) (s : Shared B Ans) (r : ParsedRequest) (e : PyErr) :
    Prop :=
  ∃ a t, r.firstStep = some a ∧ clientStep backend a s = some (.raised e, t)

def Outstanding (s : Shared B Ans) : Prop :=
  s.controller.mode.transitional = true ∨ s.work.items ≠ []

/-- However the controller deals with the request: refused while work is outstanding it is answered
busy, and an `internal_error` comes from something else than a refusal. -/
def ReportedBusy (backend : NetworkBackend B Ans) (s : Shared B Ans) (payload : Json)
    (r : ParsedRequest) : Prop :=
  ∀ (uid : Nat) (call : ControllerCall),
    (∀ e, Refuses backend s r e → call r = .error e → Outstanding s →
      serveConnection uid uid (.ok payload) call = busyResponse) ∧
    (serveConnection uid uid (.ok payload) call = internalErrorResponse →
      ∃ e, call r = .error e ∧ ¬Refuses backend s r e)

/-- The transition table has an entry for the request, or does not matter to it. -/
def ParsedRequest.inTable (mode : NetworkMode) : ParsedRequest → Bool
  | .status => true
  | .scan => true
  | .connect _ _ => (transitions mode .stationRequested).isSome
  | .provisioning => (transitions mode .provisioningRequested).isSome

variable {backend : NetworkBackend B Ans} {s : Shared B Ans} {r : ParsedRequest} {payload : Json}

/-- It is not what an internal error is answered with. -/
theorem busy_ne_internal : busyResponse ≠ internalErrorResponse := by
  intro h
  simp [busyResponse, internalErrorResponse, errorResponseCode] at h

/-- No request that was dispatched is answered with an internal error. -/
theorem dispatch_ne_internal (r : ParsedRequest) (result : r.Result) :
    r.dispatch result ≠ internalErrorResponse := by
  intro h
  cases r <;>
    simp [ParsedRequest.dispatch, internalErrorResponse, errorResponseCode, snapshotFields] at h

/-- What a request that the table has an entry for is refused with. -/
theorem request_raised {r : Request} {e : PyErr} {t : Shared B Ans}
    (hnext : (transitions s.controller.mode r.event).isSome = true)
    (h : s.request r = (.raised e, t)) : e = .runtimeError "network_transition_busy" := by
  obtain ⟨next, hnext⟩ := Option.isSome_iff_exists.mp hnext
  unfold Shared.request at h
  split at h
  · cases h
  · unfold Shared.enqueueTransition at h
    rw [transition_eq_ok.mpr hnext] at h
    dsimp only at h
    split at h
    · cases h
      rfl
    · cases h

/-- A request that the table does not refuse is refused as busy only. -/
theorem refuses_busy {e : PyErr} (htable : r.inTable s.controller.mode = true)
    (h : Refuses backend s r e) : e = .runtimeError "network_transition_busy" := by
  obtain ⟨a, t, ha, hs⟩ := h
  cases r with
  | status => cases ha
  | scan =>
    cases ha
    simp only [clientStep] at hs
    split at hs
    · cases hs
    · split at hs <;> cases hs
      rfl
  -- the table has the event, so that only the full queue is left to refuse it
  | connect ssid password =>
    cases ha
    simp only [clientStep] at hs
    split at hs
    · cases hs
    · exact request_raised (r := .connect ssid password) htable (Option.some.inj hs)
  | provisioning =>
    cases ha
    simp only [clientStep] at hs
    split at hs
    · cases hs
    · exact request_raised (r := .provisioning) htable (Option.some.inj hs)

/-- Without an entry the table itself refuses the request, whatever the queue holds. -/
theorem request_invalid {r : Request} (hr : r ≠ .boot)
    (hnext : transitions s.controller.mode r.event = none) :
    s.request r = (.raised (invalidTransition s.controller.mode r.event), s) := by
  have hap : ¬(r = .provisioning ∧ s.controller.mode = .provisioningAp) := by
    rintro ⟨rfl, hmode⟩
    rw [hmode] at hnext
    cases hnext
  have htransition : transition s.controller.mode r.event =
      .error (invalidTransition s.controller.mode r.event) := by
    rw [transition, hnext]
  rw [Shared.request, if_neg hap, Shared.enqueueTransition, htransition]

/-- The table's refusal is none of the public codes. -/
theorem refuses_invalid (hlock : s.lock = none) (htable : r.inTable s.controller.mode = false) :
    ∃ e, Refuses backend s r e ∧ failureResponse (.raised e) = internalErrorResponse := by
  cases r with
  | status => cases htable
  | scan => cases htable
  | connect ssid password =>
    have hnext : transitions s.controller.mode .stationRequested = none := by
      simpa [ParsedRequest.inTable] using htable
    have hreq := request_invalid (s := s) (r := .connect ssid password) (by simp) hnext
    refine ⟨invalidTransition s.controller.mode .stationRequested, ⟨_, s, rfl, ?_⟩, rfl⟩
    rw [clientStep, hlock, hreq]
    rfl
  | provisioning =>
    have hnext : transitions s.controller.mode .provisioningRequested = none := by
      simpa [ParsedRequest.inTable] using htable
    have hreq := request_invalid (s := s) (r := .provisioning) (by simp) hnext
    refine ⟨invalidTransition s.controller.mode .provisioningRequested, ⟨_, s, rfl, ?_⟩, rfl⟩
    rw [clientStep, hlock, hreq]
    rfl

/-- Where the table does not refuse the request, every refusal is answered as a busy one. -/
theorem reportedBusy_of_inTable (hr : parseRequest payload = .ok r)
    (htable : r.inTable s.controller.mode = true) : ReportedBusy backend s payload r := by
  intro uid call
  rw [serveConnection_parsed hr]
  refine ⟨?_, ?_⟩
  · intro e he hcall _
    rw [hcall, refuses_busy htable he]
    rfl
  · intro hinternal
    cases hcall : call r with
    | ok result =>
      rw [hcall] at hinternal
      exact absurd hinternal (dispatch_ne_internal r result)
    | error e =>
      refine ⟨e, rfl, fun he => ?_⟩
      rw [hcall, refuses_busy htable he] at hinternal
      exact busy_ne_internal hinternal

/-- Where it does not and nobody holds the lock, another answer is possible. -/
theorem not_reportedBusy (hlock : s.lock = none) (hr : parseRequest payload = .ok r)
    (htable : r.inTable s.controller.mode = false) : ¬ReportedBusy backend s payload r := by
  intro h
  have hinvalid : ∃ e, Refuses backend s r e ∧
      failureResponse (.raised e) = internalErrorResponse := refuses_invalid hlock htable
  obtain ⟨e, he, hresponse⟩ := hinvalid
  obtain ⟨-, hinternal⟩ := h 0 fun _ => .error e
  rw [serveConnection_parsed hr] at hinternal
  obtain ⟨e', hcall, hnot⟩ := hinternal hresponse
  cases hcall
  exact hnot he

/-- **Refusals are reported as busy exactly where the table has an entry.** In a reachable state with
`_lock` free, and for a well-formed request of the authorized peer: a refusal while work is
outstanding is answered busy, and `internal_error` is not the answer to a refusal, if and only if the
table has an entry for the mode and the request, or the request is a `SCAN` or a `STATUS`. -/
theorem reportedBusy_iff (backend : NetworkBackend B Ans) {as : List (Action B Ans)}
    {d : DaemonState B Ans} (_run : (daemon backend).Run Discipline.any.ok .init as d)
    (hlock : d.shared.lock = none) {payload : Json} {r : ParsedRequest}
    (hr : parseRequest payload = .ok r) :
    ReportedBusy backend d.shared payload r ↔ r.inTable d.shared.controller.mode = true := by
  constructor
  · intro h
    cases htable : r.inTable d.shared.controller.mode with
    | true => rfl
    | false => exact absurd h (not_reportedBusy hlock hr htable)
  · exact reportedBusy_of_inTable hr

/-- The payload of a `CONNECT` to an open network. -/
def connectPayload (ssid : String) : Json :=
  .obj [("api_version", .str API_VERSION), ("action", .str "connect"), ("ssid", .str ssid),
    ("password", .null)]

theorem reportedBusy_booting : ∃ d : DaemonState BackendCall BackendCall.Answer,
    (daemon anyBackend).Run Discipline.any.ok .init (requesting .boot) d ∧
      (ReportedBusy anyBackend d.shared (connectPayload "cave") (.connect "cave" none) ↔
        (ParsedRequest.connect "cave" none).inTable d.shared.controller.mode = true) := by
  have h : (((daemon anyBackend).exec Discipline.any.check (requesting .boot) .init).any
      fun d => d.shared.lock.isNone) = true := by decide
  obtain ⟨d, hd, hlock⟩ := (Option.any_eq_true _ _).mp h
  have hlock : d.shared.lock = none := by simpa using hlock
  have hr : parseRequest (connectPayload "cave") = .ok (.connect "cave" none) := by decide
  exact ⟨d, System.run_of_exec hd, reportedBusy_iff anyBackend (System.run_of_exec hd) hlock hr⟩

/-- **A `CONNECT` during the boot is answered `internal_error`.** -/
theorem busy_as_internal : ¬∀ as (d : DaemonState BackendCall BackendCall.Answer) payload r,
    (daemon anyBackend).Run Discipline.any.ok .init as d → d.shared.lock = none →
      parseRequest payload = .ok r → ReportedBusy anyBackend d.shared payload r := by
  intro hall
  have h : (((daemon anyBackend).exec Discipline.any.check (requesting .boot) .init).any
      fun d => d.shared.lock.isNone && decide (d.shared.controller.mode = .stationConnecting)) =
        true := by decide
  obtain ⟨d, hd, hstate⟩ := (Option.any_eq_true _ _).mp h
  rw [Bool.and_eq_true, decide_eq_true_eq] at hstate
  obtain ⟨hlock, hmode⟩ := hstate
  have hlock : d.shared.lock = none := by simpa using hlock
  have hr : parseRequest (connectPayload "cave") = .ok (.connect "cave" none) := by decide
  have hbusy := hall _ d _ _ (System.run_of_exec hd) hlock hr
  -- the table has no entry for a `CONNECT` while the station is connecting
  exact not_reportedBusy hlock hr (by rw [hmode]; rfl) hbusy

end Rave
