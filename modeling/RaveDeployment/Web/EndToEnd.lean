import RaveDeployment.Web.Routes

/-!
# From the page to the controller and back

The routes over the daemon itself: `exchange` is a request that the client writes, the connection
that serves it, and the bytes that the client reads. What the controller returned arrives in the body
of the response unchanged; what it raised arrives as one of two codes. What is posted to connect is
what the daemon parses, whatever the name and the password are.
-/

namespace Rave

namespace Web

open Prog Py NetworkdClient

/-! ## The client reads the daemon's bytes

What the daemon writes to the socket for each result, and what the client makes of it. -/

/-- The exchange on some bytes gives the client its answer on these bytes. -/
theorem answer_ofBytes [Json.Nesting] (codecs : Codecs) (r : ParsedRequest) (data : List UInt8) :
    (Exchange.ofBytes codecs data).answer r = clientAnswer codecs r data := by
  unfold Exchange.ofBytes clientAnswer
  split
  · rfl
  · cases loadsBytes codecs data with
    | error e =>
      cases e with
      | unicode => rfl
      | text e => cases e <;> rfl
    | ok response =>
      show ((checkResponse response).mapError ClientError.unavailable >>= fun fields =>
        (validateResponse r fields).mapError .unavailable) = _
      dsimp only
      cases checkResponse response <;> rfl

/-- One exchange over the daemon's socket: the request that the client writes is served by the
controller's `call`, and the client reads the response. -/
def exchange [Json.Nesting] (codecs : Codecs) (uid : Nat) (call : ControllerCall)
    (r : ParsedRequest) : Exchange :=
  .ofBytes codecs (responseBytes (serveConnection uid uid (.ok r.payload) call))

/-- The networks of a scan that the client accepts. -/
structure NetworksAccepted (networks : List AccessPoint) : Prop where
  length : networks.length ≤ MAX_NETWORKS
  accepted : ∀ a ∈ networks, a.Accepted

/-- What a controller may return, as far as its texts go. -/
def ResultAccepted : (r : ParsedRequest) → r.Result → Prop
  | .scan, networks => NetworksAccepted networks
  | .status, snapshot => NetworkSnapshot.Accepted snapshot
  | .connect _ _, snapshot => NetworkSnapshot.Accepted snapshot
  | .provisioning, snapshot => NetworkSnapshot.Accepted snapshot

/-- The fields of the response to a request that was served. -/
def resultFields : (r : ParsedRequest) → r.Result → List (PyStr × Json)
  | .scan, networks => scanFields networks
  | .status, snapshot => snapshotFields snapshot
  | .connect _ _, snapshot => snapshotFields snapshot ++ acceptedFields "station_connection_requested"
  | .provisioning, snapshot => snapshotFields snapshot ++ acceptedFields "provisioning_ap_requested"

theorem dispatch_eq (r : ParsedRequest) (result : r.Result) :
    r.dispatch result = .obj (resultFields r result) := by
  cases r <;> rfl

/-- The client accepts the answer to a result. -/
theorem clientAnswer_result [Json.Nesting] (codecs : Codecs) {r : ParsedRequest}
    {result : r.Result} (h : ResultAccepted r result) :
    clientAnswer codecs r (responseBytes (r.dispatch result)) = .ok (resultFields r result) := by
  rw [dispatch_eq]
  -- each result is written, fits the frame, is read as it was written and is valid
  cases r with
  | status =>
    have h : NetworkSnapshot.Accepted result := h
    have hplain := snapshotFields_plain result [] (.inl rfl)
    have hnesting := snapshotFields_nesting result [] (.inl rfl)
    have hweight := weight_snapshotFields_le h
    have hvalid : validateResponse .status (snapshotFields result) = .ok (snapshotFields result) :=
      validateStatusResponse_snapshot h
    rw [List.append_nil] at hplain hnesting
    exact (clientAnswer_eq_ok codecs rfl hplain (Nat.le_trans (Nat.le_of_eq hnesting) (Nat.zero_le 2))
      (Nat.le_trans hweight (by decide)) hvalid).2
  | scan =>
    have h : NetworksAccepted result := h
    have hweight := weight_scanFields_le h.length h.accepted
    have hvalid : validateResponse .scan (scanFields result) = .ok (scanFields result) :=
      validateScanResponse_scanFields h.length h.accepted
    exact (clientAnswer_eq_ok codecs rfl (scanFields_plain h.accepted)
      (scanFields_nesting result) (Nat.le_trans hweight (by decide)) hvalid).2
  -- an action is answered with a snapshot and a fixed reason
  | connect ssid password =>
    exact (clientAnswer_action codecs (r := .connect ssid password) h (by decide)
      (by decide) rfl).2
  | provisioning =>
    exact (clientAnswer_action codecs (r := .provisioning) h (by decide) (by decide)
      rfl).2

/-- The code that an exception of the controller is reported with. -/
def publicCode : PyErr → String
  | .runtimeError message =>
    if message ∈ PUBLIC_OPERATION_ERROR_CODES then message else "internal_error"
  | _ => "internal_error"

/-- An exception is answered by its public code. -/
theorem failureResponse_raised (e : PyErr) :
    failureResponse (.raised e) = errorResponseCode (publicCode e) := by
  cases e with
  | runtimeError message =>
    show errorResponse message PUBLIC_OPERATION_ERROR_CODES = _
    by_cases hpublic : message ∈ PUBLIC_OPERATION_ERROR_CODES
    · simp only [errorResponse, publicCode, if_pos hpublic]
    · simp only [errorResponse, publicCode, if_neg hpublic, internalErrorResponse]
  | _ => rfl

/-- There are two codes that are public. -/
theorem publicCode_mem (e : PyErr) :
    publicCode e = "network_transition_busy" ∨ publicCode e = "internal_error" := by
  cases e with
  | runtimeError message =>
    by_cases hpublic : message ∈ PUBLIC_OPERATION_ERROR_CODES
    · left
      simp only [publicCode, if_pos hpublic]
      exact List.mem_singleton.mp hpublic
    · right
      simp only [publicCode, if_neg hpublic]
  | _ => exact .inr rfl

/-- The client raises the code that it is sent. -/
theorem clientAnswer_error [Json.Nesting] (codecs : Codecs) (r : ParsedRequest) {code : String}
    (h : ReasonAccepted code) :
    clientAnswer codecs r (responseBytes (errorResponseCode code)) =
      .error (.unavailable ⟨code⟩) := by
  have hstyle : Compact responseStyle := ⟨rfl, rfl, rfl⟩
  have hplain : Json.Plain (errorResponseCode code) := by
    simp [errorResponseCode, Json.Plain, Json.PlainFields, Json.PlainKeys]
  -- a reason is short, so the answer is within the client's limit
  have hread : loadsBytes codecs (responseBytes (errorResponseCode code)) =
      .ok (errorResponseCode code) :=
    loadsBytes_dumps codecs hstyle rfl hplain (Nat.le_of_ble_eq_true rfl)
  have hsize : ¬MAX_RESPONSE_BYTES < (responseBytes (errorResponseCode code)).length := by
    have hle := length_dumps_le hstyle (errorResponseCode code)
    have hcode := weight_reason_le h
    have hkeys : ∀ k ∈ ["api_version", API_VERSION, "ok", "error"], k.utf8ByteSize ≤ 11 := by
      decide
    simp only [List.mem_cons, List.not_mem_nil, or_false, forall_eq_or_imp, forall_eq] at hkeys
    have hweight : weight (errorResponseCode code) ≤ 3000 := by
      simp only [errorResponseCode, weight, weightFields, strSize_text] at hcode ⊢
      omega
    show ¬65536 < (encodeUtf8 (Json.dumps responseStyle (errorResponseCode code))).length
    omega
  have hcheck : checkResponse (errorResponseCode code) = .error ⟨code⟩ := by
    simp [errorResponseCode, checkResponse, lookupField, requiredReason_of_accepted h]
  unfold clientAnswer
  rw [if_neg hsize, hread]
  dsimp only
  rw [hcheck]

/-- What comes back from an exchange: the fields of the result, or the code of the error. -/
theorem answer_exchange [Json.Nesting] (codecs : Codecs) (uid : Nat) {call : ControllerCall}
    {r : ParsedRequest} (hr : r.Accepted)
    (h : ∀ result, call r = .ok result → ResultAccepted r result) :
    (exchange codecs uid call r).answer r =
      match call r with
      | .ok result => .ok (resultFields r result)
      | .error e => .error (.unavailable ⟨publicCode e⟩) := by
  unfold exchange
  rw [answer_ofBytes, serveConnection_parsed (parseRequest_payload hr)]
  cases hcall : call r with
  | ok result => exact clientAnswer_result codecs (h result hcall)
  | error e =>
    dsimp only
    rw [failureResponse_raised]
    apply clientAnswer_error
    rcases publicCode_mem e with hcode | hcode
    · rw [hcode]
      decide
    · rw [hcode]
      decide

/-! ## The routes

From the controller's result to the response of the route. -/

/-- The entry of the list of networks that an access point becomes. -/
def WifiNetwork.ofAccessPoint (a : AccessPoint) : WifiNetwork :=
  ⟨a.ssid, a.signalPercent, a.security, a.connected⟩

/-- An access point comes out as it went in. -/
theorem wifiNetwork_networkJson (a : AccessPoint) :
    wifiNetwork (networkJson a) = .ok (WifiNetwork.ofAccessPoint a) := by
  have hfields : ([(PyStr.text "ssid", Json.str a.ssid),
      (.text "signal_percent", .int a.signalPercent), (.text "security", .str a.security.value),
      (.text "connected", .bool a.connected)].all fun f =>
        f.1 ∈ ["ssid", "signal_percent", "security", "connected"].map PyStr.text) = true := by
    simp
  unfold wifiNetwork networkJson
  dsimp only
  rw [if_pos hfields]
  simp only [lookupField, List.find?]
  show (securityOf (some (.str a.security.value)) >>= fun s => _) = _
  rw [securityOf_value]
  rfl

theorem mapM_wifiNetwork (networks : List AccessPoint) :
    (networks.map networkJson).mapM wifiNetwork = .ok (networks.map WifiNetwork.ofAccessPoint) := by
  induction networks with
  | nil => rfl
  | cons a networks ih =>
    rw [List.map_cons, List.mapM_cons, wifiNetwork_networkJson]
    show ((networks.map networkJson).mapM wifiNetwork >>= fun ns => _) = _
    rw [ih]
    rfl

/-- The fields of a snapshot are those of a status. -/
theorem statusFields_snapshot {snapshot : NetworkSnapshot} (h : snapshot.Accepted) :
    StatusFields (snapshotFields snapshot) snapshot.mode snapshot.provisioningApActive
      snapshot.stationSsid where
  mode := modeOf_value snapshot.mode
  active := rfl
  stationSsid := by
    show optionalTextOf (some (snapshot.stationSsid.elim .null fun text => .str text)) = _
    cases snapshot.stationSsid <;> rfl
  ssid_accepted := h.ssid

theorem lastError_snapshot (snapshot : NetworkSnapshot) :
    optionalTextOf (lookupField (snapshotFields snapshot) "last_error") =
      .ok snapshot.lastError := by
  show optionalTextOf (some (snapshot.lastError.elim .null fun text => .str text)) = _
  cases snapshot.lastError <;> rfl

/-- The answer to an action has its mode and its reason. -/
theorem actionResponse_snapshot (snapshot : NetworkSnapshot) {reason : String}
    (h : ReasonAccepted reason) :
    actionResponse (snapshotFields snapshot ++ acceptedFields reason) =
      .ok ⟨⟨"v1", true, snapshot.mode, reason⟩, networkActionResponse_valid true snapshot.mode h⟩ := by
  unfold actionResponse
  show (modeOf (some (.str snapshot.mode.value)) >>= fun mode => _) = _
  rw [modeOf_value]
  exact build_of_errors _

/-- What the controller returned in one call, as the routes report it. -/
structure Reports [Json.Nesting] (codecs : Codecs) (uid : Nat) (address : Option String)
    (call : ControllerCall) : Prop where
  status : ∀ snapshot : NetworkSnapshot, call .status = .ok snapshot →
    ∃ h, getNetwork address (exchange codecs uid call .status) = .success 200
      ⟨networkResponse snapshot.mode snapshot.provisioningApActive snapshot.stationSsid
        snapshot.lastError, h⟩
  status_error : ∀ e, call .status = .error e →
    ∃ h, getNetwork address (exchange codecs uid call .status) =
      .success 200 ⟨networkFallback address, h⟩
  scan : ∀ networks : List AccessPoint, call .scan = .ok networks →
    ∃ h, getWifiNetworks (exchange codecs uid call .scan) =
      .success 200 ⟨⟨"v1", networks.map WifiNetwork.ofAccessPoint⟩, h⟩
  scan_error : ∀ e, call .scan = .error e →
    getWifiNetworks (exchange codecs uid call .scan) = .failure 503 (publicCode e)
  connect : ∀ (body : Body) (request : NetworkConnectRequest) (snapshot : NetworkSnapshot),
    body.read NetworkConnectRequest.ofJson = .ok request →
    call (.connect request.ssid request.password) = .ok snapshot →
    ∃ h, postConnect body
      (exchange codecs uid call (.connect request.ssid request.password)) =
      .success 202 ⟨⟨"v1", true, snapshot.mode, "station_connection_requested"⟩, h⟩
  connect_error : ∀ (body : Body) (request : NetworkConnectRequest) (e : PyErr),
    body.read NetworkConnectRequest.ofJson = .ok request →
    call (.connect request.ssid request.password) = .error e →
    postConnect body (exchange codecs uid call (.connect request.ssid request.password)) =
      .failure 503 (publicCode e)
  provisioning : ∀ (body : Body) (snapshot : NetworkSnapshot),
    body.read ProvisioningRequest.ofJson = .ok () → call .provisioning = .ok snapshot →
    ∃ h, postProvisioning body (exchange codecs uid call .provisioning) =
      .success 202 ⟨⟨"v1", true, snapshot.mode, "provisioning_ap_requested"⟩, h⟩
  provisioning_error : ∀ (body : Body) (e : PyErr),
    body.read ProvisioningRequest.ofJson = .ok () → call .provisioning = .error e →
    postProvisioning body (exchange codecs uid call .provisioning) =
      .failure 503 (publicCode e)

/-- A request that the route has validated is accepted by the daemon. -/
theorem accepted_request (request : NetworkConnectRequest) :
    (ParsedRequest.connect request.ssid request.password).Accepted :=
  ⟨request.ssid_valid, request.password_valid⟩

/-- A code that the client raises is reported as its reason. -/
theorem guarded_exchange {α : Type} (success : Nat) {r : ParsedRequest} {x : Exchange}
    {f : List (PyStr × Json) → Except Raised α} {e : PyErr}
    (hx : x.answer r = .error (.unavailable ⟨publicCode e⟩)) :
    guarded success (do
      let response ← (x.answer r).mapError .ofClient
      f response) = .failure 503 (publicCode e) := by
  rw [hx]
  rfl

/-- The routes over a controller whose texts are accepted. -/
theorem reports_of_accepted [Json.Nesting] (codecs : Codecs) (uid : Nat)
    (address : Option String) {call : ControllerCall}
    (h : ∀ r result, call r = .ok result → ResultAccepted r result) :
    Reports codecs uid address call where
  status := by
    intro snapshot hcall
    have hx := answer_exchange codecs uid (r := .status) trivial (h .status)
    rw [hcall] at hx
    have haccepted : snapshot.Accepted := h .status snapshot hcall
    refine ⟨networkResponse_valid _ _ haccepted.ssid haccepted.reason, ?_⟩
    unfold getNetwork
    rw [network_of_fields address hx (statusFields_snapshot haccepted)
      (lastError_snapshot snapshot) haccepted.reason]
  status_error := by
    intro e hcall
    have hx := answer_exchange codecs uid (r := .status) trivial (h .status)
    rw [hcall] at hx
    refine ⟨networkFallback_valid address, ?_⟩
    unfold getNetwork network
    rw [hx]
    dsimp only
    rw [build_of_errors (networkFallback_valid address)]
  scan := by
    intro networks hcall
    have hx := answer_exchange codecs uid (r := .scan) trivial (h .scan)
    rw [hcall] at hx
    have haccepted : NetworksAccepted networks := h .scan networks hcall
    -- the daemon's limits on a scan are those of the API's models
    have hvalid : (⟨"v1", networks.map WifiNetwork.ofAccessPoint⟩ : WifiScanResponse).errors = [] := by
      apply wifiScanResponse_valid
      · rw [List.length_map]
        exact haccepted.length
      · intro n hn
        obtain ⟨a, ha, rfl⟩ := List.mem_map.mp hn
        obtain ⟨n, hn, hvalid⟩ := wifiNetwork_of_validate
          (validateNetwork_networkJson (haccepted.accepted a ha))
        rw [wifiNetwork_networkJson] at hn
        rw [Except.ok.inj hn]
        exact hvalid
    refine ⟨hvalid, ?_⟩
    unfold getWifiNetworks wifiNetworks
    rw [hx]
    show guarded 200 ((networks.map networkJson).mapM wifiNetwork >>= fun ns => _) = _
    rw [mapM_wifiNetwork]
    show guarded 200 (build WifiScanResponse.errors _) = _
    rw [build_of_errors hvalid]
    rfl
  scan_error := by
    intro e hcall
    have hx := answer_exchange codecs uid (r := .scan) trivial (h .scan)
    rw [hcall] at hx
    exact guarded_exchange 200 hx
  connect := by
    intro body request snapshot hbody hcall
    have hx := answer_exchange codecs uid (accepted_request request)
      (h (.connect request.ssid request.password))
    rw [hcall] at hx
    have hreason : ReasonAccepted "station_connection_requested" := by decide
    refine ⟨networkActionResponse_valid true snapshot.mode hreason, ?_⟩
    -- the body was accepted, so the request is sent and answered
    unfold postConnect
    rw [hbody]
    dsimp only
    rw [connectWifi_eq, hx]
    show guarded 202 (actionResponse
      (snapshotFields snapshot ++ acceptedFields "station_connection_requested")) = _
    rw [actionResponse_snapshot snapshot hreason]
    rfl
  connect_error := by
    intro body request e hbody hcall
    have hx := answer_exchange codecs uid (accepted_request request)
      (h (.connect request.ssid request.password))
    rw [hcall] at hx
    unfold postConnect
    rw [hbody]
    dsimp only
    rw [connectWifi_eq]
    exact guarded_exchange 202 hx
  provisioning := by
    intro body snapshot hbody hcall
    have hx := answer_exchange codecs uid (r := .provisioning) trivial (h .provisioning)
    rw [hcall] at hx
    have hreason : ReasonAccepted "provisioning_ap_requested" := by decide
    refine ⟨networkActionResponse_valid true snapshot.mode hreason, ?_⟩
    unfold postProvisioning
    rw [hbody]
    unfold enableProvisioning
    rw [hx]
    show guarded 202 (actionResponse
      (snapshotFields snapshot ++ acceptedFields "provisioning_ap_requested")) = _
    rw [actionResponse_snapshot snapshot hreason]
    rfl
  provisioning_error := by
    intro body e hbody hcall
    have hx := answer_exchange codecs uid (r := .provisioning) trivial (h .provisioning)
    rw [hcall] at hx
    unfold postProvisioning
    rw [hbody]
    exact guarded_exchange 202 hx

/-- What the controller returns in a run is accepted. -/
theorem resultAccepted_of_returns [PyUnicode] {as : List (Action RunnerCall RunnerAnswer)}
    {d : DaemonState RunnerCall RunnerAnswer}
    (run : (daemon networkManagerBackend).Run Discipline.any.ok .init as d) {r : ParsedRequest}
    {result : r.Result} (h : Returns networkManagerBackend d.shared r result) :
    ResultAccepted r result := by
  have hsnapshot := snapshot_accepted run
  cases h with
  | @status snapshot h =>
    show NetworkSnapshot.Accepted snapshot
    unfold Shared.snapshot? at h
    split at h
    · cases h
    · next hlock =>
      -- nobody holds the lock, so the snapshot is of what all see
      have hlock : d.shared.lock = none := by simpa using hlock
      rw [← Option.some.inj h, ← Shared.view_of_lock hlock]
      exact hsnapshot
  | @scan networks t h =>
    have hwithin : Prog.Within (fun _ => True) Backend.scan fun networks =>
        networks.length ≤ MAX_NETWORKS ∧ ∀ a ∈ networks, a.Accepted := within_scan fun _ => trivial
    have hscan := scanWithin_left (scanWithin_of_run hwithin run) h
    exact ⟨hscan.1, hscan.2⟩
  | connect h =>
    show NetworkSnapshot.Accepted _
    rw [clientStep_returned h]
    exact hsnapshot
  | provisioning h =>
    show NetworkSnapshot.Accepted _
    rw [clientStep_returned h]
    exact hsnapshot

/-- **What the controller returned is what the API reports.** In every reachable state of the daemon
over `NetworkManagerBackend`, for every call that returns what the controller's methods return there
and raises whatever they raise: through both encodings and all validators each route reports exactly
the snapshot or the networks, and of an exception only whether the daemon was busy. -/
theorem routes_report [PyUnicode] [Json.Nesting] {as : List (Action RunnerCall RunnerAnswer)}
    {d : DaemonState RunnerCall RunnerAnswer}
    (run : (daemon networkManagerBackend).Run Discipline.any.ok .init as d) {call : ControllerCall}
    (hcall : ∀ r result, call r = .ok result → Returns networkManagerBackend d.shared r result)
    (codecs : Codecs) (uid : Nat) (address : Option String) : Reports codecs uid address call :=
  reports_of_accepted codecs uid address fun r result h =>
    resultAccepted_of_returns run (hcall r result h)

/-- What a scan returns that has come to its end. -/
def finishedScan [PyUnicode] (s : Shared RunnerCall RunnerAnswer) : Option (List AccessPoint) :=
  match clientStep networkManagerBackend .scanLeave s with
  | some (.scanned (.ok networks), _) => some networks
  | _ => none

/-- The controller that returns whatever its methods may return in a state. -/
def returning [PyUnicode] (s : Shared RunnerCall RunnerAnswer) : ControllerCall
  | .status =>
    match s.snapshot? with
    | some snapshot => .ok snapshot
    | none => .error .osError
  | .scan =>
    match finishedScan s with
    | some networks => .ok networks
    | none => .error (.runtimeError "wifi_scan_failed")
  | .connect _ _ | .provisioning =>
    match clientStep networkManagerBackend .finishRequest s with
    | some (.returned snapshot, _) => .ok snapshot
    | _ => .error (.runtimeError "network_transition_busy")

/-- The result that is computed is one that the controller can return. -/
theorem returns_returning [PyUnicode] {s : Shared RunnerCall RunnerAnswer} {r : ParsedRequest}
    {result : r.Result} (h : returning s r = .ok result) :
    Returns networkManagerBackend s r result := by
  -- what `returning` reads off the daemon is what a step of the daemon returns
  cases r with
  | status =>
    simp only [returning] at h
    split at h
    · next snapshot hsnapshot =>
      rw [← Except.ok.inj h]
      exact .status hsnapshot
    · cases h
  | scan =>
    simp only [returning] at h
    split at h
    · next networks hnetworks =>
      rw [← Except.ok.inj h]
      unfold finishedScan at hnetworks
      split at hnetworks
      · next hstep =>
        rw [← Option.some.inj hnetworks]
        exact .scan hstep
      · cases hnetworks
    · cases h
  | connect ssid password =>
    simp only [returning] at h
    split at h
    · next snapshot t hstep =>
      rw [← Except.ok.inj h]
      exact .connect hstep
    · cases h
  | provisioning =>
    simp only [returning] at h
    split at h
    · next snapshot t hstep =>
      rw [← Except.ok.inj h]
      exact .provisioning hstep
    · cases h

/-- The AP is up and a scan has listed one network, but not yet returned it. -/
def scannedOnce : List (Action RunnerCall RunnerAnswer) :=
  quietBoot ++ [.work fun _ => .ok ⟨0, ""⟩, .client .scanCheck, .client .scanEnter,
    .client (.scanStep fun _ => .ok ⟨0, ""⟩), .client (.scanStep fun _ => .ok ⟨0, "cave:50:WPA2:*"⟩)]

/-- A request to connect has been taken, too, and has not returned. -/
def scannedAndAsked : List (Action RunnerCall RunnerAnswer) :=
  scannedOnce ++ [.client (.request (.connect "cave" none))]

theorem routes_report_scannedOnce : ∃ d e : DaemonState RunnerCall RunnerAnswer,
    (daemon (@networkManagerBackend asciiUnicode)).Run Discipline.any.ok .init scannedOnce d ∧
    (daemon (@networkManagerBackend asciiUnicode)).Run Discipline.any.ok .init scannedAndAsked e ∧
    (@returning asciiUnicode d.shared .status).isOk = true ∧
    @returning asciiUnicode d.shared .scan =
      .ok [⟨"cave", 50, .wpaPersonal, true, some "wpa-psk"⟩] ∧
    (@returning asciiUnicode e.shared (.connect "cave" none)).isOk = true ∧
    (@returning asciiUnicode e.shared .provisioning).isOk = true ∧
    @Reports .default (fun _ _ => .error .unicode) 0 none (@returning asciiUnicode d.shared) ∧
    @Reports .default (fun _ _ => .error .unicode) 0 none (@returning asciiUnicode e.shared) := by
  -- the first run ends with a status and a scan, the second with the two requests
  have hscanned : ((daemon (@networkManagerBackend asciiUnicode)).exec Discipline.any.check
      scannedOnce .init).any (fun d => (@returning asciiUnicode d.shared .status).isOk &&
        decide (@finishedScan asciiUnicode d.shared =
          some [⟨"cave", 50, .wpaPersonal, true, some "wpa-psk"⟩])) = true := by
    decide +kernel
  have hasked : ((daemon (@networkManagerBackend asciiUnicode)).exec Discipline.any.check
      scannedAndAsked .init).any (fun e =>
        (@returning asciiUnicode e.shared (.connect "cave" none)).isOk &&
        (@returning asciiUnicode e.shared .provisioning).isOk) = true := by
    decide
  obtain ⟨d, hd, hscanned⟩ := (Option.any_eq_true _ _).mp hscanned
  obtain ⟨e, he, hasked⟩ := (Option.any_eq_true _ _).mp hasked
  obtain ⟨hstatus, hscan⟩ := Bool.and_eq_true_iff.mp hscanned
  obtain ⟨hconnect, hprovisioning⟩ := Bool.and_eq_true_iff.mp hasked
  have hd := System.run_of_exec hd
  have he := System.run_of_exec he
  refine ⟨d, e, hd, he, hstatus, ?_, hconnect, hprovisioning, ?_, ?_⟩
  · simp only [returning, of_decide_eq_true hscan]
  · exact @routes_report asciiUnicode .default _ _ hd _ (fun _ _ => @returns_returning asciiUnicode
      _ _ _) _ _ _
  · exact @routes_report asciiUnicode .default _ _ he _ (fun _ _ => @returns_returning asciiUnicode
      _ _ _) _ _ _

/-! ## What is posted

From the body of the route to the request on the socket, and back from the request to the body. -/

/-- A body with the name and the password, which may be missing or null, and no other field. -/
structure Posts (body : Body) (ssid : String) (password : Option String) : Prop where
  fields : ∃ fields, body = .json (.obj fields) ∧
    (∀ f ∈ fields, f.1 ∈ ["ssid", "password"].map PyStr.text) ∧
    lookupField fields "ssid" = some (.str ssid) ∧
    (lookupField fields "password" = password.map (fun text => .str text) ∨
      lookupField fields "password" = some .null ∧ password = none)

/-- When a field is read as an SSID. -/
theorem requestedSsid_eq_some {v : Option Json} {ssid : String}
    (hvalid : validateSsid ssid = .ok ssid) :
    requestedSsid v = some ⟨ssid, hvalid⟩ ↔ v = some (.str ssid) := by
  constructor
  · intro h
    unfold requestedSsid at h
    split at h
    · split at h
      · cases h
        rfl
      · cases h
    · cases h
  · intro h
    rw [h]
    exact dif_pos hvalid

/-- When a field is read as a password, or as none. -/
theorem requestedPassword_eq_some {v : Option Json} {password : Option String}
    (hvalid : ∀ p ∈ password, validatePassword p = .ok p) :
    requestedPassword v = some ⟨password, hvalid⟩ ↔
      v = password.map (fun text => .str text) ∨ v = some .null ∧ password = none := by
  constructor
  -- the password is left out, null or a valid text; the other values are refused
  · intro h
    unfold requestedPassword at h
    split at h
    · cases h
      exact .inl rfl
    · cases h
      exact .inr ⟨rfl, rfl⟩
    · split at h
      · cases h
        exact .inl rfl
      · cases h
    · cases h
  · intro h
    rcases h with hsame | ⟨hnull, hnone⟩
    · cases password with
      | none =>
        rw [hsame]
        rfl
      | some p =>
        rw [hsame]
        exact dif_pos (hvalid p rfl)
    · subst hnone
      rw [hnull]
      rfl

/-- A body is read where it is JSON and its model accepts it. -/
theorem read_eq_ok {β : Type} {model : Json → Except (List PyStr) β} {body : Body} {request : β} :
    body.read model = .ok request ↔ ∃ value, body = .json value ∧ model value = .ok request := by
  cases body with
  | missing => exact ⟨nofun, nofun⟩
  | invalid => exact ⟨nofun, nofun⟩
  | unreadable => exact ⟨nofun, nofun⟩
  | json value =>
    show (model value).mapError _ = _ ↔ _
    constructor
    · intro h
      cases hvalue : model value with
      | error fields =>
        rw [hvalue] at h
        cases h
      | ok request' =>
        rw [hvalue] at h
        exact ⟨value, rfl, hvalue.trans (congrArg _ (Except.ok.inj h))⟩
    · rintro ⟨value', hsame, hvalue⟩
      rw [Body.json.inj hsame, hvalue]
      rfl

/-- A body is read where its texts pass the validators and it has no other field. -/
theorem ofJson_eq_ok {value : Json} {request : NetworkConnectRequest} :
    NetworkConnectRequest.ofJson value = .ok request ↔
      Posts (.json value) request.ssid request.password := by
  obtain ⟨ssid, password, hssid, hpassword⟩ := request
  constructor
  -- any key but the two is among the extra ones
  · intro h
    unfold NetworkConnectRequest.ofJson at h
    split at h
    · next fields =>
      dsimp only at h
      split at h
      · next s p hs hp hextra =>
        cases h
        have hs : lookupField fields "ssid" = some (.str s.val) :=
          (requestedSsid_eq_some s.property).mp hs
        have hp := (requestedPassword_eq_some p.property).mp hp
        refine ⟨fields, rfl, ?_, hs, hp⟩
        intro f hf
        by_contra hother
        have hmem : f.1 ∈
            (fields.map Prod.fst).filter (· ∉ ["ssid", "password"].map PyStr.text) := by
          rw [List.mem_filter]
          exact ⟨List.mem_map.mpr ⟨f, hf, rfl⟩, decide_eq_true hother⟩
        rw [hextra] at hmem
        exact absurd hmem List.not_mem_nil
      · cases h
    · cases h
  · intro h
    obtain ⟨fields, hvalue, hother, hs, hp⟩ := h.fields
    obtain rfl := Body.json.inj hvalue
    have hextra :
        (fields.map Prod.fst).filter (· ∉ ["ssid", "password"].map PyStr.text) = [] := by
      apply List.filter_eq_nil_iff.mpr
      intro key hkey hnot
      obtain ⟨f, hf, rfl⟩ := List.mem_map.mp hkey
      exact of_decide_eq_true hnot (hother f hf)
    have hs := (requestedSsid_eq_some hssid).mpr hs
    have hp := (requestedPassword_eq_some hpassword).mpr hp
    unfold NetworkConnectRequest.ofJson
    dsimp only
    rw [hs, hp, hextra]

/-- When a body is read as a connection. -/
theorem read_connect_eq_ok {body : Body} {request : NetworkConnectRequest} :
    body.read NetworkConnectRequest.ofJson = .ok request ↔
      Posts body request.ssid request.password := by
  rw [read_eq_ok]
  constructor
  · rintro ⟨value, rfl, h⟩
    exact ofJson_eq_ok.mp h
  · intro h
    obtain ⟨fields, rfl, -⟩ := h.fields
    exact ⟨_, rfl, ofJson_eq_ok.mpr h⟩

/-- A computation that has a value. -/
theorem eq_ok_of_toOption {ε α : Type} {x : Except ε α} {a : α} (h : x.toOption = some a) :
    x = .ok a := by
  cases x with
  | error e => cases h
  | ok b => rw [Option.some.inj h]

/-- The credentials that `parse_request` lets through have passed the same validators. -/
theorem accepted_of_parseRequest {payload : Json} {ssid : String} {password : Option String}
    (h : parseRequest payload = .ok (.connect ssid password)) :
    (ParsedRequest.connect ssid password).Accepted := by
  -- the credentials were validated, with a password and without
  have hcredentials : ∀ fields, parseCredentials fields = some (.connect ssid password) →
      (ParsedRequest.connect ssid password).Accepted := by
    intro fields hfields
    unfold parseCredentials at hfields
    split at hfields
    · next s _ _ =>
      obtain ⟨ssid', hs, heq⟩ := Option.bind_eq_some_iff.mp hfields
      have hs := eq_ok_of_toOption hs
      obtain ⟨rfl, rfl⟩ := ParsedRequest.connect.inj (Option.some.inj heq)
      exact ⟨ssidAccepted_of_validate hs, fun p hp => absurd hp (Option.not_mem_none p)⟩
    · next s p _ _ =>
      obtain ⟨ssid', hs, hrest⟩ := Option.bind_eq_some_iff.mp hfields
      obtain ⟨password', hp, heq⟩ := Option.bind_eq_some_iff.mp hrest
      have hs := eq_ok_of_toOption hs
      have hp := eq_ok_of_toOption hp
      obtain ⟨rfl, rfl⟩ := ParsedRequest.connect.inj (Option.some.inj heq)
      refine ⟨ssidAccepted_of_validate hs, ?_⟩
      intro q hq
      have hsame := (validatePassword_eq_ok hp).1
      rw [← Option.some.inj hq]
      rw [← hsame] at hp
      exact hp
    · cases hfields
  -- no other request is one for a station
  unfold parseRequest at h
  split at h
  · split at h
    · split at h
      · cases h
      split at h
      · cases h
      split at h
      · cases h
      split at h
      · cases h
      · cases h
      · cases h
      · split at h
        · next request hrequest =>
          rw [Except.ok.inj h] at hrequest
          exact hcredentials _ hrequest
        · cases h
    · cases h
  · cases h

/-- **What is posted is what the daemon parses.** The API takes a body for a request to connect
exactly where it posts credentials that `parse_request` lets through, and refuses any other without
asking the daemon: with FastAPI's own error where the body could not even be parsed, and with that
of the validation otherwise. What it takes it sends as one line, and however that is cut into chunks
the daemon reads from it the name and the password that were posted. -/
theorem connect_forwarded [Json.Nesting] (codecs : Codecs) (body : Body) :
    (∀ ssid password,
      (∃ request, body.read NetworkConnectRequest.ofJson = .ok request ∧ request.ssid = ssid ∧
        request.password = password) ↔
      Posts body ssid password ∧ ∃ payload, parseRequest payload = .ok (.connect ssid password)) ∧
    ((∀ request, body.read NetworkConnectRequest.ofJson ≠ .ok request) →
      ∃ refusal, Refusal body refusal ∧ ∀ x, postConnect body x = .failure refusal.1 refusal.2) ∧
    ∀ request, body.read NetworkConnectRequest.ofJson = .ok request →
      ∃ line, send (.connect request.ssid request.password) = .ok (line ++ [newlineByte]) ∧
        (∃ out t, (receiveParsed codecs).Runs delivering ⟨none, line ++ [newlineByte]⟩ out t) ∧
        ∀ out t, (receiveParsed codecs).Runs delivering ⟨none, line ++ [newlineByte]⟩ out t →
          out = .ok (.connect request.ssid request.password) := by
  refine ⟨?_, ?_, ?_⟩
  -- a body is read as a request when it posts what the daemon takes
  · intro ssid password
    constructor
    · intro h
      obtain ⟨request, hrequest, rfl, rfl⟩ := h
      exact ⟨read_connect_eq_ok.mp hrequest, _, parseRequest_payload (accepted_request request)⟩
    · intro h
      obtain ⟨hposts, payload, hpayload⟩ := h
      obtain ⟨hssid, hpassword⟩ := accepted_of_parseRequest hpayload
      exact ⟨⟨ssid, password, hssid, hpassword⟩, read_connect_eq_ok.mpr hposts, rfl, rfl⟩
  · intro hrefused
    cases hread : body.read NetworkConnectRequest.ofJson with
    | ok request => exact absurd hread (hrefused request)
    | error refusal =>
      exact ⟨refusal, refusal_of_read hread,
        fun x => ((postConnect_posted body x).refused refusal hread).2⟩
  -- what is sent is one line, and every chunking of it gives the request back
  · intro request _
    have hr := accepted_request request
    have hwp := receiveParsed_wp codecs hr
    refine ⟨_, send_accepted hr, Prog.wp_exists_runs delivering_live hwp, ?_⟩
    intro out t hrun
    obtain ⟨hok, herror⟩ := Prog.wp_runs hwp hrun
    cases out with
    | ok parsed => rw [hok parsed rfl]
    | error e => exact absurd (herror e rfl) id

attribute [local instance] Json.Nesting.default in
theorem connect_forwarded_cave :
    (∃ request, (Body.json (.obj [("ssid", .str "cave"), ("password", .null)])).read
      NetworkConnectRequest.ofJson = .ok request ∧ request.ssid = "cave" ∧ request.password = none ∧
      ∃ line, send (.connect request.ssid request.password) = .ok (line ++ [newlineByte]) ∧
        (∃ out t, (receiveParsed fun _ _ => .error .unicode).Runs delivering
          ⟨none, line ++ [newlineByte]⟩ out t) ∧
        ∀ out t, (receiveParsed fun _ _ => .error .unicode).Runs delivering
          ⟨none, line ++ [newlineByte]⟩ out t →
            out = .ok (.connect request.ssid request.password)) ∧
    (∃ refusal, Refusal (.json (.int 5)) refusal ∧
      ∀ x, postConnect (.json (.int 5)) x = .failure refusal.1 refusal.2) ∧
    ∃ refusal, Refusal .unreadable refusal ∧
      ∀ x, postConnect .unreadable x = .failure refusal.1 refusal.2 := by
  have haccepted : (ParsedRequest.connect "cave" none).Accepted := ⟨by decide, nofun⟩
  have hposts : Posts (.json (.obj [("ssid", .str "cave"), ("password", .null)])) "cave" none :=
    ⟨_, rfl, by decide, rfl, .inr ⟨rfl, rfl⟩⟩
  obtain ⟨htaken, -, hsent⟩ := connect_forwarded (fun _ _ => .error .unicode)
    (.json (.obj [("ssid", .str "cave"), ("password", .null)]))
  obtain ⟨request, hread, hssid, hpassword⟩ :=
    (htaken "cave" none).mpr ⟨hposts, _, parseRequest_payload haccepted⟩
  exact ⟨⟨request, hread, hssid, hpassword, hsent request hread⟩,
    (connect_forwarded (fun _ _ => .error .unicode) (.json (.int 5))).2.1 nofun,
    (connect_forwarded (fun _ _ => .error .unicode) .unreadable).2.1 nofun⟩

end Web

end Rave
