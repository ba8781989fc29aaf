import RaveDeployment.Network.Framing
import RaveDeployment.Network.Methods

/-!
# Every answer is one the client accepts

The encoder is `_dispatch` with `_snapshot_response`, the decoder is `_receive` with the validators
of the client. Between them stands what may be in the controller's state: only texts that
`NetworkManagerBackend` or the controller itself put there (`consistent_of_run` over
`backendTexts_networkManager`), and in a scan only rows that passed `_parse_access_point`.

`answer_accepted`: in every reachable state, what the controller returns for a request is encoded in
at most `MAX_RESPONSE_BYTES` bytes, and the client that sent the request reads it back unchanged.
-/

namespace Rave

open Py Prog NetworkdClient

variable {B : Type} {Ans : B → Type}

/-! ## What the controller returns

The texts that the daemon can put into an answer: the modes, reasons that its code names, and SSIDs
that have been decoded or were accepted in a request. -/

/-- What the controller's method for a request may return in a state: the snapshot, the fields as a
request leaves them, or the networks of a scan that has come to its end. -/
inductive Returns (backend : NetworkBackend B Ans) (s : Shared B Ans) :
    (r : ParsedRequest) → r.Result → Prop
  | status {snapshot : NetworkSnapshot} (h : s.snapshot? = some snapshot) :
      Returns backend s .status snapshot
  | scan {networks : List AccessPoint} {t : Shared B Ans}
      (h : clientStep backend .scanLeave s = some (.scanned (.ok networks), t)) :
      Returns backend s .scan networks
  | connect {ssid : String} {password : Option String} {a : ClientAction B Ans}
      {snapshot : NetworkSnapshot} {t : Shared B Ans}
      (h : clientStep backend a s = some (.returned snapshot, t)) :
      Returns backend s (.connect ssid password) snapshot
  | provisioning {a : ClientAction B Ans} {snapshot : NetworkSnapshot} {t : Shared B Ans}
      (h : clientStep backend a s = some (.returned snapshot, t)) :
      Returns backend s .provisioning snapshot

/-- The bytes `_serve_connection` sends. -/
def responseBytes (response : Json) : List UInt8 :=
  encodeUtf8 (Json.dumps responseStyle response)

/-- What `_request` raises where `json.loads` does. -/
def ClientError.ofLoads : LoadsError → ClientError
  | .text .recursion => .recursion
  | _ => .unavailable ⟨"network_management_unavailable"⟩

/-- What the method of the client that sent the request makes of the bytes it receives. -/
def clientAnswer [Json.Nesting] (codecs : Codecs) (r : ParsedRequest) (data : List UInt8) :
    Except ClientError (List (PyStr × Json)) :=
  if MAX_RESPONSE_BYTES < data.length then .error (.unavailable ⟨"network_management_unavailable"⟩)
  else
    match loadsBytes codecs data with
    | .error e => .error (.ofLoads e)
    | .ok response =>
      match checkResponse response with
      | .error e => .error (.unavailable e)
      | .ok fields => (validateResponse r fields).mapError .unavailable

variable {s : Shared B Ans}

/-! ## Snapshots

The fields of a status answer pass the client's validation one by one. -/

/-- The texts of a snapshot. -/
structure NetworkSnapshot.Accepted (snapshot : NetworkSnapshot) : Prop where
  ssid : ∀ s, snapshot.stationSsid = some s → SsidAccepted s
  reason : ∀ e, snapshot.lastError = some e → ReasonAccepted e

variable {snapshot : NetworkSnapshot}

/-- A reason that the daemon reports is one that the client accepts. -/
theorem requiredReason_of_accepted {reason : String} (h : ReasonAccepted reason) :
    requiredReason (some (.str reason)) = true := by
  obtain ⟨hmin, hmax, hline⟩ := h
  simp [requiredReason, hmin, hmax, hline]

theorem isSsid_of_accepted {ssid : String} (h : SsidAccepted ssid) :
    isSsid (some (.str ssid)) = true := by
  have h : validateSsid ssid = .ok ssid := h
  simp [isSsid, h, Except.isOk, Except.toBool]

theorem isNetworkMode_value (mode : NetworkMode) :
    isNetworkMode (some (.str mode.value)) = true := by
  cases mode <;> decide

/-- Every kind of security is one that the client knows. -/
theorem isWifiSecurity_value (security : WifiSecurity) :
    isWifiSecurity (some (.str security.value)) = true := by
  cases security <;> decide

/-- The station's SSID passes, if there is one. -/
theorem isSsid_or_isNull (h : snapshot.Accepted) :
    isNull (some (snapshot.stationSsid.elim .null fun text => .str text)) = true ∨
      isSsid (some (snapshot.stationSsid.elim .null fun text => .str text)) = true := by
  cases hssid : snapshot.stationSsid with
  | none => exact .inl rfl
  | some ssid => exact .inr (isSsid_of_accepted (h.ssid ssid hssid))

/-- The last error passes, if there is one. -/
theorem optionalReason_lastError (h : snapshot.Accepted) :
    optionalReason (some (snapshot.lastError.elim .null fun text => .str text)) = true := by
  cases hreason : snapshot.lastError with
  | none => rfl
  | some reason => exact requiredReason_of_accepted (h.reason reason hreason)

/-- **The client accepts the fields of a snapshot.** -/
theorem validateStatusResponse_snapshot (h : snapshot.Accepted) :
    validateStatusResponse (snapshotFields snapshot) = .ok (snapshotFields snapshot) := by
  -- the fields that the checks look up, read off the literal
  have hfields : hasFields (snapshotFields snapshot) STATUS_RESPONSE_FIELDS = true := by
    simp [hasFields, snapshotFields, STATUS_RESPONSE_FIELDS]
  have hmode : lookupField (snapshotFields snapshot) "mode" = some (.str snapshot.mode.value) := by
    simp [lookupField, snapshotFields]
  have hssid : lookupField (snapshotFields snapshot) "station_ssid" =
      some (snapshot.stationSsid.elim .null fun text => .str text) := by
    simp [lookupField, snapshotFields]
  have hactive : lookupField (snapshotFields snapshot) "provisioning_ap_active" =
      some (.bool snapshot.provisioningApActive) := by
    simp [lookupField, snapshotFields]
  have herror : lookupField (snapshotFields snapshot) "last_error" =
      some (snapshot.lastError.elim .null fun text => .str text) := by
    simp [lookupField, snapshotFields]
  have hbool : isBool (some (.bool snapshot.provisioningApActive)) = true := rfl
  -- no SSID is null, and one that is shown was accepted as an SSID
  have hnull : ¬(isNull (some (snapshot.stationSsid.elim .null fun text => .str text)) = false ∧
      isSsid (some (snapshot.stationSsid.elim .null fun text => .str text)) = false) := by
    rintro ⟨h1, h2⟩
    rcases isSsid_or_isNull h with h' | h'
    · rw [h1] at h'
      cases h'
    · rw [h2] at h'
      cases h'
  rw [validateStatusResponse, hmode, hssid, hactive, herror, if_neg (by simp [hfields]),
    if_neg (by simp [isNetworkMode_value]), if_neg hnull, if_neg (by simp [hbool]),
    if_neg (by simp [optionalReason_lastError h])]

/-- The same for a request that was taken, with the two fields of its own. -/
theorem validateActionResponse_snapshot (h : snapshot.Accepted) {reason : String}
    (hreason : ReasonAccepted reason) :
    validateActionResponse (snapshotFields snapshot ++ acceptedFields reason) =
      .ok (snapshotFields snapshot ++ acceptedFields reason) := by
  -- the two extra fields are dropped before the status is checked
  have hstatus : (snapshotFields snapshot ++ acceptedFields reason).filter
      (fun f => f.1 ∉ ["accepted", "reason"].map PyStr.text) = snapshotFields snapshot := by
    simp [snapshotFields, acceptedFields]
  have hfields : hasFields (snapshotFields snapshot ++ acceptedFields reason)
      (STATUS_RESPONSE_FIELDS ++ ["accepted", "reason"]) = true := by
    simp [hasFields, snapshotFields, acceptedFields, STATUS_RESPONSE_FIELDS]
  have haccepted : lookupField (snapshotFields snapshot ++ acceptedFields reason) "accepted" =
      some (.bool true) := by
    simp [lookupField, snapshotFields, acceptedFields]
  have hlookup : lookupField (snapshotFields snapshot ++ acceptedFields reason) "reason" =
      some (.str reason) := by
    simp [lookupField, snapshotFields, acceptedFields]
  have hrequired := requiredReason_of_accepted hreason
  simp only [validateActionResponse, hstatus, validateStatusResponse_snapshot h, hfields, haccepted,
    hlookup, hrequired]
  rfl

/-! ## Networks

The entries of a scan answer pass it too. The bound on the number of networks is the daemon's own.
-/

/-- An access point that the scan returned is a network that the client accepts. -/
theorem validateNetwork_networkJson {item : AccessPoint} (h : item.Accepted) :
    validateNetwork (networkJson item) = true := by
  have hfields : hasFields [("ssid", .str item.ssid), ("signal_percent", .int item.signalPercent),
      ("security", .str item.security.value), ("connected", .bool item.connected)]
      ["ssid", "signal_percent", "security", "connected"] = true := by
    simp [hasFields]
  have hssid := isSsid_of_accepted h.ssid
  have hsecurity := isWifiSecurity_value item.security
  have hsignal : isPercent (some (.int item.signalPercent)) = true := by
    simp [isPercent, h.signal]
  simp [networkJson, validateNetwork, hfields, lookupField, hssid, hsecurity, hsignal, isBool]

def scanFields (networks : List AccessPoint) : List (PyStr × Json) :=
  [("api_version", .str API_VERSION), ("ok", .bool true),
    ("networks", .arr (networks.map networkJson))]

/-- **The client accepts the networks of a scan.** -/
theorem validateScanResponse_scanFields {networks : List AccessPoint}
    (hlen : networks.length ≤ MAX_NETWORKS) (h : ∀ a ∈ networks, a.Accepted) :
    validateScanResponse (scanFields networks) = .ok (scanFields networks) := by
  have hfields : hasFields (scanFields networks) ["api_version", "ok", "networks"] = true := by
    simp [hasFields, scanFields]
  have hlookup : lookupField (scanFields networks) "networks" =
      some (.arr (networks.map networkJson)) := by
    simp [lookupField, scanFields]
  have hall : (networks.map networkJson).all validateNetwork = true := by
    rw [List.all_map, List.all_eq_true]
    exact fun a ha => validateNetwork_networkJson (h a ha)
  rw [validateScanResponse, hlookup, if_neg (by simp [hfields])]
  dsimp only
  rw [List.length_map, if_neg (by omega), if_neg (by simp [hall])]

/-! ## Sizes

A bound on the bytes of an answer, through a weight that is computed from the document and not from
its text. The client reads 64 KiB at most. -/

/-- A character takes at most four bytes. -/
theorem utf8ByteSize_le (s : String) : s.utf8ByteSize ≤ 4 * s.length := by
  have hs := length_encodeUtf8_le s.toList
  rw [length_encodeUtf8_toList, String.length_toList] at hs
  exact hs

theorem weight_mode_le (mode : NetworkMode) : mode.value.utf8ByteSize ≤ 18 := by
  cases mode <;> decide

/-- An SSID has at most 32 bytes, each of which may be escaped. -/
theorem weight_ssid_le {ssid : String} (h : SsidAccepted ssid) : weight (.str ssid) ≤ 194 := by
  have hsize : ssid.utf8ByteSize ≤ 32 := (validateSsid_eq_ok h).2
  show 6 * ssid.utf8ByteSize + 2 ≤ 194
  omega

/-- A reason has at most 64 characters, of at most four bytes each. -/
theorem weight_reason_le {reason : String} (h : ReasonAccepted reason) :
    weight (.str reason) ≤ 1538 := by
  have hsize := utf8ByteSize_le reason
  have hlen := h.2.1
  show 6 * reason.utf8ByteSize + 2 ≤ 1538
  omega

/-- A bound on a snapshot. -/
theorem weight_snapshotFields_le (h : snapshot.Accepted) :
    weightFields (snapshotFields snapshot) ≤ 3000 := by
  have hkeys : ∀ k ∈ ["api_version", API_VERSION, "ok", "mode", "provisioning_ap_active",
      "station_ssid", "last_error"], k.utf8ByteSize ≤ 22 := by decide
  simp only [List.mem_cons, List.not_mem_nil, or_false, forall_eq_or_imp, forall_eq] at hkeys
  have hmode := weight_mode_le snapshot.mode
  have hssid : weight (snapshot.stationSsid.elim .null fun text => .str text) ≤ 194 := by
    cases hssid : snapshot.stationSsid with
    | none => decide
    | some ssid => exact weight_ssid_le (h.ssid ssid hssid)
  have hreason : weight (snapshot.lastError.elim .null fun text => .str text) ≤ 1538 := by
    cases hreason : snapshot.lastError with
    | none => decide
    | some reason => exact weight_reason_le (h.reason reason hreason)
  simp only [snapshotFields, weightFields, weight, strSize_text]
  omega

theorem percent_digits : ∀ n < 101, (Nat.toDigits 10 n).length ≤ 3 := by
  decide

/-- A bound on a network. -/
theorem weight_networkJson_le {item : AccessPoint} (h : item.Accepted) :
    weight (networkJson item) ≤ 900 := by
  have hkeys : ∀ k ∈ ["ssid", "signal_percent", "security", "connected"],
      k.utf8ByteSize ≤ 14 := by decide
  simp only [List.mem_cons, List.not_mem_nil, or_false, forall_eq_or_imp, forall_eq] at hkeys
  have hssid := weight_ssid_le h.ssid
  have hsecurity : item.security.value.utf8ByteSize ≤ 12 := by
    cases item.security <;> decide
  have hsignal : (Json.dumpsInt item.signalPercent).length ≤ 3 := by
    obtain ⟨hlow, hhigh⟩ := h.signal
    rw [Json.dumpsInt, if_neg (by omega)]
    exact percent_digits _ (by omega)
  simp only [networkJson, weightFields, weight, strSize_text] at hssid ⊢
  omega

/-- A bound on a list, from one on its entries. -/
theorem weightItems_le {vs : List Json} {n : Nat} (h : ∀ v ∈ vs, weight v ≤ n) :
    weightItems vs ≤ (n + 1) * vs.length := by
  induction vs with
  | nil => simp [weightItems]
  | cons v vs ih =>
    have hv := h v (by simp)
    have hvs := ih fun w hw => h w (by simp [hw])
    rw [weightItems, List.length_cons, Nat.mul_succ]
    omega

/-- The weight of fields adds up. -/
theorem weightFields_append (fs gs : List (PyStr × Json)) :
    weightFields (fs ++ gs) = weightFields fs + weightFields gs := by
  induction fs with
  | nil => simp [weightFields]
  | cons f fs ih =>
    rw [List.cons_append, weightFields, weightFields, ih]
    omega

/-- A bound on a scan answer, which stays under what the client reads. -/
theorem weight_scanFields_le {networks : List AccessPoint} (hlen : networks.length ≤ MAX_NETWORKS)
    (h : ∀ a ∈ networks, a.Accepted) : weightFields (scanFields networks) ≤ 60000 := by
  have hkeys : ∀ k ∈ ["api_version", API_VERSION, "ok", "networks"], k.utf8ByteSize ≤ 11 := by
    decide
  simp only [List.mem_cons, List.not_mem_nil, or_false, forall_eq_or_imp, forall_eq] at hkeys
  have hitems : weightItems (networks.map networkJson) ≤ 901 * networks.length := by
    rw [← List.length_map networkJson]
    apply weightItems_le
    intro v hv
    obtain ⟨a, ha, rfl⟩ := List.mem_map.mp hv
    exact weight_networkJson_le (h a ha)
  have hmax : 901 * networks.length ≤ 901 * 64 := Nat.mul_le_mul_left _ hlen
  simp only [scanFields, weightFields, weight, strSize_text]
  omega

/-! ## Reading back

The daemon writes with `json.dumps` and the client reads with `json.loads`; what it reads is the
document that was written, since no field holds a float or half of a surrogate pair. -/

/-- A status answer holds texts, truth values and `null` only. -/
theorem snapshotFields_plain (snapshot : NetworkSnapshot) (extra : List (PyStr × Json))
    (hextra : extra = [] ∨ ∃ reason, extra = acceptedFields reason) :
    Json.Plain (.obj (snapshotFields snapshot ++ extra)) := by
  obtain ⟨mode, apActive, stationSsid, lastError⟩ := snapshot
  rcases hextra with rfl | ⟨reason, rfl⟩ <;> cases stationSsid <;> cases lastError <;>
    simp [snapshotFields, acceptedFields, Json.Plain, Json.PlainKeys, Json.PlainFields]

/-- A status answer has no inner list and no inner object. -/
theorem snapshotFields_nesting (snapshot : NetworkSnapshot) (extra : List (PyStr × Json))
    (hextra : extra = [] ∨ ∃ reason, extra = acceptedFields reason) :
    Json.nestingFields (snapshotFields snapshot ++ extra) = 0 := by
  obtain ⟨mode, apActive, stationSsid, lastError⟩ := snapshot
  rcases hextra with rfl | ⟨reason, rfl⟩ <;> cases stationSsid <;> cases lastError <;> rfl

/-- A network holds texts, whole numbers and truth values only. -/
theorem networkJson_plain {item : AccessPoint} (h : item.Accepted) :
    Json.Plain (networkJson item) := by
  have hsignal : (Nat.toDigits 10 item.signalPercent.natAbs).length ≤ Json.maxDigits := by
    obtain ⟨hlow, hhigh⟩ := h.signal
    exact Nat.le_trans (percent_digits _ (by omega)) (by decide)
  simp [networkJson, Json.Plain, Json.PlainKeys, Json.PlainFields, hsignal]

/-- A list is plain when its entries are. -/
theorem plainItems_of_forall {vs : List Json} (h : ∀ v ∈ vs, Json.Plain v) :
    Json.PlainItems vs := by
  induction vs with
  | nil => trivial
  | cons v vs ih => exact ⟨h v (by simp), ih fun w hw => h w (by simp [hw])⟩

theorem scanFields_plain {networks : List AccessPoint} (h : ∀ a ∈ networks, a.Accepted) :
    Json.Plain (.obj (scanFields networks)) := by
  have hitems : Json.PlainItems (networks.map networkJson) := by
    apply plainItems_of_forall
    intro v hv
    obtain ⟨a, ha, rfl⟩ := List.mem_map.mp hv
    exact networkJson_plain (h a ha)
  simp [scanFields, Json.Plain, Json.PlainKeys, Json.PlainFields, hitems]

/-- A scan answer is a list of objects in an object. -/
theorem scanFields_nesting (networks : List AccessPoint) :
    Json.nestingFields (scanFields networks) ≤ 2 := by
  have hitems : Json.nestingItems (networks.map networkJson) ≤ 1 := by
    induction networks with
    | nil => exact Nat.zero_le 1
    | cons a networks ih => exact Nat.max_le.mpr ⟨Nat.le_refl 1, ih⟩
  simp [scanFields, Json.nestingFields, Json.nesting, hitems]

/-- A small response with the right head that its validator accepts is what the client returns. -/
theorem clientAnswer_eq_ok [Json.Nesting] (codecs : Codecs) {r : ParsedRequest}
    {fields rest : List (PyStr × Json)}
    (hhead : fields = (.text "api_version", .str API_VERSION) :: (.text "ok", .bool true) :: rest)
    (hplain : Json.Plain (.obj fields)) (hnesting : Json.nestingFields fields ≤ 2)
    (hweight : weightFields fields ≤ 65000)
    (hvalid : validateResponse r fields = .ok fields) :
    (responseBytes (.obj fields)).length ≤ MAX_RESPONSE_BYTES ∧
      clientAnswer codecs r (responseBytes (.obj fields)) = .ok fields := by
  have hstyle : Compact responseStyle := ⟨rfl, rfl, rfl⟩
  -- the fields' weight bounds what they take up on the wire
  have hsize : (responseBytes (.obj fields)).length ≤ MAX_RESPONSE_BYTES := by
    have hle := length_dumps_le hstyle (.obj fields)
    have hobj : weight (.obj fields) = 2 + weightFields fields := rfl
    show (encodeUtf8 (Json.dumps responseStyle (.obj fields))).length ≤ 65536
    omega
  have hread : loadsBytes codecs (responseBytes (.obj fields)) = .ok (.obj fields) :=
    loadsBytes_dumps codecs hstyle (by rw [hhead]) hplain (Nat.succ_le_succ (by omega))
  have hcheck : checkResponse (.obj fields) = .ok fields := by
    simp [hhead, checkResponse, lookupField]
  refine ⟨hsize, ?_⟩
  rw [clientAnswer, if_neg (by omega), hread]
  dsimp only
  rw [hcheck]
  dsimp only
  rw [hvalid]
  rfl

/-- The answer to a request that was taken. -/
theorem clientAnswer_action [Json.Nesting] (codecs : Codecs) {r : ParsedRequest} {reason : String}
    (h : snapshot.Accepted) (hreason : ReasonAccepted reason)
    (hweight : weightFields (acceptedFields reason) ≤ 2000)
    (hr : validateResponse r = validateActionResponse) :
    (responseBytes (.obj (snapshotFields snapshot ++ acceptedFields reason))).length ≤
        MAX_RESPONSE_BYTES ∧
      clientAnswer codecs r
        (responseBytes (.obj (snapshotFields snapshot ++ acceptedFields reason))) =
          .ok (snapshotFields snapshot ++ acceptedFields reason) := by
  have hsize : weightFields (snapshotFields snapshot ++ acceptedFields reason) ≤ 65000 := by
    have hfields := weight_snapshotFields_le h
    rw [weightFields_append]
    omega
  have hplain := snapshotFields_plain snapshot _ (.inr ⟨reason, rfl⟩)
  have hnesting := Nat.le_of_eq (snapshotFields_nesting snapshot _ (.inr ⟨reason, rfl⟩))
  have hvalid : validateResponse r (snapshotFields snapshot ++ acceptedFields reason) =
      .ok (snapshotFields snapshot ++ acceptedFields reason) := by
    rw [hr]
    exact validateActionResponse_snapshot h hreason
  exact clientAnswer_eq_ok codecs rfl hplain (by omega) hsize hvalid

/-! ## Every answer

The parts put together, over every reachable state of the daemon. -/

/-- The error responses are small: their codes are fixed words. -/
theorem length_failureResponse_le (e : ServeError) :
    (responseBytes (failureResponse e)).length ≤ MAX_RESPONSE_BYTES := by
  have hcode : ∀ code ∈ "internal_error" :: "request_json_invalid" ::
      (PUBLIC_PROTOCOL_ERROR_CODES ++ PUBLIC_OPERATION_ERROR_CODES),
      (responseBytes (errorResponseCode code)).length ≤ MAX_RESPONSE_BYTES := by decide
  have hpublic : ∀ code codes, codes ⊆ PUBLIC_PROTOCOL_ERROR_CODES ++ PUBLIC_OPERATION_ERROR_CODES →
      (responseBytes (errorResponse code codes)).length ≤ MAX_RESPONSE_BYTES := by
    intro code codes hcodes
    unfold errorResponse
    split
    · next hmem => exact hcode code (List.mem_cons_of_mem _ (List.mem_cons_of_mem _ (hcodes hmem)))
    · exact hcode "internal_error" (by simp)
  cases e with
  | protocol code => exact hpublic code _ (List.subset_append_left _ _)
  | jsonDecode => exact hcode "request_json_invalid" (by simp)
  | raised e =>
    cases e with
    | runtimeError message => exact hpublic message _ (List.subset_append_right _ _)
    | _ => exact hcode "internal_error" (by simp)

/-- What a request returns is a snapshot of consistent fields. -/
theorem snapshot_accepted [PyUnicode] {as : List (Action RunnerCall RunnerAnswer)}
    {d : DaemonState RunnerCall RunnerAnswer}
    (run : (daemon networkManagerBackend).Run Discipline.any.ok .init as d) :
    d.shared.view.snapshot.Accepted := by
  have hfields := consistent_of_run backendTexts_networkManager run
  exact ⟨hfields.ssid, hfields.reason⟩

/-- **Every answer is one the client accepts.** In every reachable state of the daemon over
`NetworkManagerBackend`, whatever its commands print, and for every request: what `_dispatch` makes
of what the controller returns fits into `MAX_RESPONSE_BYTES`, and the client reads it back
unchanged through the validator of its method. The error responses fit as well. -/
theorem answer_accepted [PyUnicode] [Json.Nesting] {as : List (Action RunnerCall RunnerAnswer)}
    {d : DaemonState RunnerCall RunnerAnswer}
    (run : (daemon networkManagerBackend).Run Discipline.any.ok .init as d) (codecs : Codecs) :
    (∀ (r : ParsedRequest) (result : r.Result), Returns networkManagerBackend d.shared r result →
      ∃ fields, r.dispatch result = .obj fields ∧
        (responseBytes (r.dispatch result)).length ≤ MAX_RESPONSE_BYTES ∧
        clientAnswer codecs r (responseBytes (r.dispatch result)) = .ok fields) ∧
    ∀ e, (responseBytes (failureResponse e)).length ≤ MAX_RESPONSE_BYTES := by
  have hsnapshot := snapshot_accepted run
  refine ⟨?_, length_failureResponse_le⟩
  intro r result hreturns
  cases hreturns with
  | @status snapshot h =>
    -- a status is read without the lock held, so it is a snapshot of what all see
    have hview : snapshot = d.shared.view.snapshot := by
      unfold Shared.snapshot? at h
      split at h
      · cases h
      · next hlock =>
        have hlock : d.shared.lock = none := by simpa using hlock
        rw [← Option.some.inj h, Shared.view_of_lock hlock]
    subst hview
    have hfields := weight_snapshotFields_le hsnapshot
    have hplain := snapshotFields_plain d.shared.view.snapshot [] (.inl rfl)
    have hnesting := snapshotFields_nesting d.shared.view.snapshot [] (.inl rfl)
    rw [List.append_nil] at hplain hnesting
    exact ⟨_, rfl, clientAnswer_eq_ok codecs rfl hplain (by omega) (by omega)
      (validateStatusResponse_snapshot hsnapshot)⟩
  | @scan networks t h =>
    -- what a scan returns has passed the bounds of the backend
    have hwithin : Within (fun _ => True) Backend.scan fun networks =>
        networks.length ≤ MAX_NETWORKS ∧ ∀ a ∈ networks, a.Accepted := within_scan fun _ => trivial
    have hscan := scanWithin_left (scanWithin_of_run hwithin run) h
    have hweight := weight_scanFields_le hscan.1 hscan.2
    have hvalid : validateResponse .scan (scanFields networks) = .ok (scanFields networks) :=
      validateScanResponse_scanFields hscan.1 hscan.2
    have hhead : scanFields networks = (.text "api_version", .str API_VERSION) ::
        (.text "ok", .bool true) :: [(.text "networks", .arr (networks.map networkJson))] := rfl
    have hanswer := clientAnswer_eq_ok codecs hhead (scanFields_plain hscan.2)
      (scanFields_nesting networks) (by omega) hvalid
    exact ⟨scanFields networks, rfl, hanswer⟩
  | @connect ssid password a snapshot t h =>
    rw [clientStep_returned h]
    exact ⟨_, rfl, clientAnswer_action codecs (r := .connect ssid password) hsnapshot
      (by decide) (by decide) rfl⟩
  | @provisioning a snapshot t h =>
    rw [clientStep_returned h]
    exact ⟨_, rfl, clientAnswer_action codecs (r := .provisioning) hsnapshot (by decide)
      (by decide) rfl⟩

theorem answer_accepted_quietBoot : ∃ d : DaemonState RunnerCall RunnerAnswer,
    (daemon (@networkManagerBackend asciiUnicode)).Run Discipline.any.ok .init quietBoot d ∧
      (∀ (r : ParsedRequest) (result : r.Result),
        Returns (@networkManagerBackend asciiUnicode) d.shared r result →
        ∃ fields, r.dispatch result = .obj fields ∧
          (responseBytes (r.dispatch result)).length ≤ MAX_RESPONSE_BYTES ∧
          @clientAnswer .default (fun _ _ => .error .unicode) r
            (responseBytes (r.dispatch result)) = .ok fields) ∧
      ∀ e, (responseBytes (failureResponse e)).length ≤ MAX_RESPONSE_BYTES := by
  have h : ((daemon (@networkManagerBackend asciiUnicode)).exec Discipline.any.check quietBoot
      .init).isSome = true := by decide
  obtain ⟨d, hd⟩ := Option.isSome_iff_exists.mp h
  exact ⟨d, System.run_of_exec hd,
    @answer_accepted asciiUnicode .default _ _ (System.run_of_exec hd) fun _ _ => .error .unicode⟩

end Rave
