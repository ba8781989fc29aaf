import RaveDeployment.Lib.Checks
import RaveDeployment.Network.Answers
import RaveDeployment.Web.Api

/-!
# What the network routes answer

Whatever the daemon's socket does, what the validators of the client let through the models of the
API admit, but for one thing: the name of a network in bytes bounds it in characters, and a reason
fits its field, except that the client passes on half of a surrogate pair in a reason, which the
models and the encoder of the API refuse. With `RecursionError`, which the client does not catch,
that is all that brings a route to an internal error (`routes_documented`). Over a daemon in a
reachable state neither occurs: the routes report what its controller returned, and no text of an
error that is not public (`routes_report`), and what a client posts is what the daemon parses
(`connect_forwarded`).
-/

namespace Rave

namespace Web

open Py NetworkdClient

/-! ## Texts

The bounds of the client are on bytes and on code points, those of the models on characters. A
character has at least one byte, so the first imply the second. -/

/-- A text has at most as many characters as its encoding has bytes. -/
theorem length_le_utf8ByteSize (s : String) : s.length ≤ s.utf8ByteSize := by
  have hchars : ∀ cs : List Char, cs.length ≤ (encodeUtf8 cs).length := by
    intro cs
    induction cs with
    | nil => exact Nat.le_refl 0
    | cons c cs ih =>
      have hpos : 0 < c.utf8Size := Char.utf8Size_pos c
      have hone := length_encodeUtf8_singleton c
      have hcons : encodeUtf8 (c :: cs) = encodeUtf8 [c] ++ encodeUtf8 cs :=
        encodeUtf8_append [c] cs
      rw [hcons, List.length_append, hone, List.length_cons]
      omega
  have hs := hchars s.toList
  rw [length_encodeUtf8_toList, String.length_toList] at hs
  exact hs

/-- A name that the validator accepts fits the field of the model. -/
theorem ssidAccepted_length {ssid : String} (h : SsidAccepted ssid) :
    1 ≤ ssid.length ∧ ssid.length ≤ 32 := by
  have hle := length_le_utf8ByteSize ssid
  have hmax : ssid.utf8ByteSize ≤ 32 := (validateSsid_eq_ok h).2
  refine ⟨?_, by omega⟩
  by_contra hshort
  have hempty : ssid = "" := String.length_eq_zero_iff.mp (by omega)
  rw [hempty] at h
  have hrefused : validateSsid "" ≠ .ok "" := by decide
  exact hrefused h

/-- The client tests whether `validate_ssid` raises; where it does not, it returns its argument. -/
theorem ssidAccepted_of_isSsid {value : String} (h : isSsid (some (.str (.text value))) = true) :
    SsidAccepted value := by
  have hok : (validateSsid value).isOk = true := h
  cases hvalue : validateSsid value with
  | error e =>
    rw [hvalue] at hok
    cases hok
  | ok ssid =>
    have heq := (validateSsid_eq_ok hvalue).1
    rw [heq] at hvalue
    exact hvalue

/-- For a text, the test of the client is the one that the models make. -/
theorem accepted_of_requiredReason {value : String}
    (h : requiredReason (some (.str (.text value))) = true) : ReasonAccepted value := by
  simp only [requiredReason, Bool.and_eq_true, decide_eq_true_eq, Bool.not_eq_true',
    List.contains_eq_mem, decide_eq_false_iff_not, PyStr.length_text,
    PyStr.char_mem_points_text] at h
  exact ⟨h.1.1, h.1.2, h.2⟩

/-! ## Fields

Each validator of the client is a test, and each field of a model is read. These lemmas turn the one
into the other: what passes the test has the form that is read. -/

/-- A mode that passes is the text of a member of `NetworkMode`. -/
theorem modeOf_of_isNetworkMode {v : Option Json} (h : isNetworkMode v = true) :
    ∃ mode : NetworkMode, v = some (.str mode.value) := by
  unfold isNetworkMode at h
  split at h
  · next value =>
    obtain ⟨mode, -, hmode⟩ := List.any_eq_true.mp h
    exact ⟨mode, by rw [of_decide_eq_true hmode]⟩
  · cases h

theorem modeOf_value (mode : NetworkMode) : modeOf (some (.str mode.value)) = .ok mode := by
  cases mode <;> decide

/-- A security that passes is the text of a member of `WifiSecurity`. -/
theorem securityOf_of_isWifiSecurity {v : Option Json} (h : isWifiSecurity v = true) :
    ∃ security : WifiSecurity, v = some (.str security.value) := by
  unfold isWifiSecurity at h
  split at h
  · next value =>
    obtain ⟨security, -, hsecurity⟩ := List.any_eq_true.mp h
    exact ⟨security, by rw [of_decide_eq_true hsecurity]⟩
  · cases h

theorem securityOf_value (security : WifiSecurity) :
    securityOf (some (.str security.value)) = .ok security := by
  cases security <;> decide

/-- The test for a truth value admits nothing else, not even an integer. -/
theorem eq_bool_of_isBool {v : Option Json} (h : isBool v = true) : ∃ b, v = some (.bool b) := by
  unfold isBool at h
  split at h
  · next b => exact ⟨b, rfl⟩
  · cases h

/-- A name that passes is a text, since `validate_ssid` encodes it. -/
theorem eq_str_of_isSsid {v : Option Json} (h : isSsid v = true) :
    ∃ ssid : String, v = some (.str ssid) ∧ SsidAccepted ssid := by
  unfold isSsid at h
  split at h
  · next value => exact ⟨value, rfl, ssidAccepted_of_isSsid h⟩
  · cases h

/-- The client counts the code points of a reason, so that one it accepts need not be a text. -/
theorem eq_str_of_requiredReason {v : Option Json} (h : requiredReason v = true) :
    ∃ reason, v = some (.str reason) ∧ ∀ text, reason = .text text → ReasonAccepted text := by
  unfold requiredReason at h
  split at h
  · next value =>
    refine ⟨value, rfl, ?_⟩
    intro text htext
    rw [htext] at h
    exact accepted_of_requiredReason h
  · cases h

/-- A signal strength that passes is an integer within the bounds of the model. -/
theorem eq_int_of_isPercent {v : Option Json} (h : isPercent v = true) :
    ∃ n : Int, v = some (.int n) ∧ 0 ≤ n ∧ n ≤ 100 := by
  unfold isPercent at h
  split at h
  · next n =>
    simp only [Bool.and_eq_true, decide_eq_true_eq] at h
    exact ⟨n, rfl, h.1, h.2⟩
  · cases h

/-- Only null passes as null. -/
theorem eq_null_of_isNull {v : Option Json} (h : isNull v = true) : v = some .null := by
  unfold isNull at h
  split at h
  · rfl
  · cases h

/-- A name that may be null. -/
theorem optionalTextOf_ssid {v : Option Json} (h : isNull v = true ∨ isSsid v = true) :
    ∃ ssid : Option String, optionalTextOf v = .ok ssid ∧ ∀ s, ssid = some s → SsidAccepted s := by
  rcases h with hnull | hssid
  · rw [eq_null_of_isNull hnull]
    exact ⟨none, rfl, fun s hs => by cases hs⟩
  · obtain ⟨ssid, rfl, haccepted⟩ := eq_str_of_isSsid hssid
    exact ⟨some ssid, rfl, fun s hs => Option.some.inj hs ▸ haccepted⟩

def reasonOf : Option Json → Option PyStr
  | some (.str reason) => some reason
  | _ => none

/-- A reason that may be null: it is read where it is a text. -/
theorem optionalTextOf_reason {v : Option Json} (h : optionalReason v = true) :
    (∃ reason : Option String, optionalTextOf v = .ok reason ∧ reasonOf v = reason.map .text ∧
      ∀ e, reason = some e → ReasonAccepted e) ∨
    ∃ reason, optionalTextOf v = .error .other ∧ reasonOf v = some reason ∧ ¬reason.IsText := by
  unfold optionalReason at h
  split at h
  · exact .inl ⟨none, rfl, rfl, fun e he => by cases he⟩
  · obtain ⟨reason, rfl, haccepted⟩ := eq_str_of_requiredReason h
    cases reason with
    | text reason =>
      exact .inl ⟨some reason, rfl, rfl, fun e he => Option.some.inj he ▸ haccepted reason rfl⟩
    | surrogates points hpoints => exact .inr ⟨.surrogates points hpoints, rfl, rfl, id⟩

/-! ## What the validators let through

A response that passes is handed on unchanged, and its fields have the forms that the provider
reads. Only a reason may still hold half of a surrogate pair. -/

/-- The fields of a status as `network` reads them, up to its last error. -/
structure StatusFields (fields : List (PyStr × Json)) (mode : NetworkMode) (active : Bool)
    (ssid : Option String) : Prop where
  mode : modeOf (lookupField fields "mode") = .ok mode
  active : boolOf (lookupField fields "provisioning_ap_active") = .ok active
  stationSsid : optionalTextOf (lookupField fields "station_ssid") = .ok ssid
  ssid_accepted : ∀ s, ssid = some s → SsidAccepted s

/-- A status that passes the validator of the client. -/
theorem statusFields_of_validate {fields response : List (PyStr × Json)}
    (h : validateStatusResponse fields = .ok response) :
    response = fields ∧ optionalReason (lookupField fields "last_error") = true ∧
      ∃ mode active ssid, StatusFields fields mode active ssid := by
  -- one check for each field
  unfold validateStatusResponse at h
  split at h
  · cases h
  split at h
  · cases h
  next hmode =>
  split at h
  · cases h
  next hssid =>
  split at h
  · cases h
  next hactive =>
  split at h
  · cases h
  next hreason =>
  obtain ⟨mode, hmode⟩ := modeOf_of_isNetworkMode (Bool.not_eq_false _ ▸ hmode)
  obtain ⟨active, hactive⟩ := eq_bool_of_isBool (Bool.not_eq_false _ ▸ hactive)
  -- the SSID is null or an SSID
  have hssid : isNull (lookupField fields "station_ssid") = true ∨
      isSsid (lookupField fields "station_ssid") = true := by
    cases hnull : isNull (lookupField fields "station_ssid") with
    | true => exact .inl rfl
    | false =>
      refine .inr (Bool.not_eq_false _ ▸ ?_)
      exact fun hfalse => hssid ⟨hnull, hfalse⟩
  obtain ⟨ssid, hssid, hssids⟩ := optionalTextOf_ssid hssid
  refine ⟨(Except.ok.inj h).symm, Bool.not_eq_false _ ▸ hreason, mode, active, ssid, ?_, ?_, hssid,
    hssids⟩
  · rw [hmode]
    exact modeOf_value mode
  · rw [hactive]
    rfl

/-- Leaving out other keys does not change what is found under a key. -/
theorem lookupField_filter {p : PyStr × Json → Bool} {key : String}
    (h : ∀ f : PyStr × Json, f.1 = .text key → p f = true) (fields : List (PyStr × Json)) :
    lookupField (fields.filter p) key = lookupField fields key := by
  unfold lookupField
  rw [List.find?_filter]
  congr 2
  funext f
  by_cases hkey : f.1 = key
  · simp [hkey, h f hkey]
  · simp [hkey]

/-- `validate_action_response` as the sequence of its checks. -/
theorem validateActionResponse_eq (fields : List (PyStr × Json)) :
    validateActionResponse fields =
      match validateStatusResponse
          (fields.filter fun f => f.1 ∉ ["accepted", "reason"].map PyStr.text) with
      | .error e => .error e
      | .ok _ =>
        if hasFields fields (STATUS_RESPONSE_FIELDS ++ ["accepted", "reason"]) = false then
          .error invalidResponse
        else if isBool (lookupField fields "accepted") = false ∨
            requiredReason (lookupField fields "reason") = false then .error invalidResponse
        else .ok fields := by
  unfold validateActionResponse
  dsimp only
  cases validateStatusResponse
      (fields.filter fun f => f.1 ∉ ["accepted", "reason"].map PyStr.text) with
  | error e => rfl
  | ok status =>
    show (if _ then _ else _) = (if _ then _ else _)
    split
    · rfl
    · show (if _ then _ else _) = (if _ then _ else _)
      split <;> rfl

/-- The fields of an answer to a request that changes the network. -/
theorem actionFields_of_validate {fields response : List (PyStr × Json)}
    (h : validateActionResponse fields = .ok response) :
    response = fields ∧ ∃ accepted mode reason,
      boolOf (lookupField fields "accepted") = .ok accepted ∧
      modeOf (lookupField fields "mode") = .ok mode ∧
      lookupField fields "reason" = some (.str reason) ∧
      ∀ text, reason = .text text → ReasonAccepted text := by
  -- the status fields are checked first, with the two extra ones taken out
  rw [validateActionResponse_eq] at h
  split at h
  · cases h
  next status hstatus =>
  obtain ⟨-, -, mode, active, ssid, hfields⟩ := statusFields_of_validate hstatus
  have hmode := hfields.mode
  rw [lookupField_filter (by
    intro f hf
    simp [hf])] at hmode
  split at h
  · cases h
  split at h
  · cases h
  next hboth =>
  obtain ⟨haccepted, hreason⟩ := not_or.mp hboth
  obtain ⟨accepted, haccepted⟩ := eq_bool_of_isBool (Bool.not_eq_false _ ▸ haccepted)
  obtain ⟨reason, hreason, hpublic⟩ := eq_str_of_requiredReason (Bool.not_eq_false _ ▸ hreason)
  refine ⟨(Except.ok.inj h).symm, accepted, mode, reason, ?_, hmode, hreason, hpublic⟩
  rw [haccepted]
  rfl

/-- An entry of a scan that the client accepts is one that the model admits. -/
theorem wifiNetwork_of_validate {v : Json} (h : validateNetwork v = true) :
    ∃ n, wifiNetwork v = .ok n ∧ n.errors = [] := by
  unfold validateNetwork at h
  split at h
  · next network =>
    simp only [Bool.and_eq_true] at h
    obtain ⟨⟨⟨⟨hfields, hssid⟩, hsecurity⟩, hsignal⟩, hconnected⟩ := h
    obtain ⟨ssid, hssid, haccepted⟩ := eq_str_of_isSsid hssid
    obtain ⟨security, hsecurity⟩ := securityOf_of_isWifiSecurity hsecurity
    obtain ⟨n, hsignal, hleast, hmost⟩ := eq_int_of_isPercent hsignal
    obtain ⟨connected, hconnected⟩ := eq_bool_of_isBool hconnected
    obtain ⟨hmin, hmax⟩ := ssidAccepted_length haccepted
    have haccepted : validateSsid ssid = .ok ssid := haccepted
    -- the daemon's limits are those of the model, so the model admits the network
    refine ⟨⟨ssid, n, security, connected⟩, ?_, ?_⟩
    · have hall : (network.all fun f =>
          f.1 ∈ ["ssid", "signal_percent", "security", "connected"].map PyStr.text) = true := by
        simp only [hasFields, Bool.and_eq_true] at hfields
        exact hfields.1
      rw [wifiNetwork, if_pos hall, hssid, hsecurity, hsignal, hconnected]
      show (securityOf (some (.str security.value)) >>= fun s => _) = _
      rw [securityOf_value]
      rfl
    · simp [WifiNetwork.errors, hmin, hmax, haccepted, Except.isOk, Except.toBool, rangeErrors,
        hleast, hmost]
  · cases h

/-- A scan that passes has at most as many networks as the model admits, and each of them has passed
`_validate_network`. -/
theorem scanFields_of_validate {fields response : List (PyStr × Json)}
    (h : validateScanResponse fields = .ok response) :
    response = fields ∧ ∃ networks, lookupField fields "networks" = some (.arr networks) ∧
      networks.length ≤ 64 ∧ ∀ v ∈ networks, validateNetwork v = true := by
  unfold validateScanResponse at h
  split at h
  · cases h
  split at h
  · next networks hnetworks =>
    split at h
    · cases h
    next hlen =>
    split at h
    · cases h
    next hall =>
    refine ⟨(Except.ok.inj h).symm, networks, hnetworks, Nat.le_of_not_lt hlen, ?_⟩
    exact List.all_eq_true.mp (Bool.not_eq_false _ ▸ hall)
  · cases h

/-! ## What the client raises

Every reason is one of the client's own words, or an `error` of the daemon that has passed
`_required_reason`. So a 503 has a detail that can be shown, unless it is no text. -/

/-- A reason as the client raises it: one that can be told, unless it is no text. -/
def Raises (e : NetworkdUnavailable) : Prop :=
  ∀ text, e.reason = .text text → ReasonAccepted text

/-- A reason that can be told is raised as it is. -/
theorem raises_text {reason : String} (h : ReasonAccepted reason) : Raises ⟨reason⟩ :=
  fun _ htext => PyStr.text.inj htext ▸ h

/-- The word for a response of the wrong shape can be told. -/
theorem raises_invalidResponse : Raises invalidResponse :=
  raises_text (by decide)

/-- Whatever the daemon puts into `error`, what `_request` raises can be told or is no text. -/
theorem raises_of_checkResponse {response : Json} {e : NetworkdUnavailable}
    (h : checkResponse response = .error e) : Raises e := by
  unfold checkResponse at h
  split at h
  · split at h
    · split at h
      · exact Except.error.inj h ▸ raises_invalidResponse
      split at h
      · cases h
      split at h
      · split at h
        · next reason _ hreason =>
          rw [← Except.error.inj h]
          intro text htext
          have htext : reason = .text text := htext
          rw [htext] at hreason
          exact accepted_of_requiredReason hreason
        · exact Except.error.inj h ▸ raises_text (by decide)
      · exact Except.error.inj h ▸ raises_text (by decide)
    · exact Except.error.inj h ▸ raises_invalidResponse
  · exact Except.error.inj h ▸ raises_invalidResponse

/-- The validator of a status has one way to fail. -/
theorem error_of_validateStatusResponse {fields : List (PyStr × Json)} {e : NetworkdUnavailable}
    (h : validateStatusResponse fields = .error e) : e = invalidResponse := by
  unfold validateStatusResponse at h
  split at h
  · exact (Except.error.inj h).symm
  split at h
  · exact (Except.error.inj h).symm
  split at h
  · exact (Except.error.inj h).symm
  split at h
  · exact (Except.error.inj h).symm
  split at h
  · exact (Except.error.inj h).symm
  · cases h

/-- The validator of a scan has one way to fail. -/
theorem error_of_validateScanResponse {fields : List (PyStr × Json)} {e : NetworkdUnavailable}
    (h : validateScanResponse fields = .error e) : e = invalidResponse := by
  unfold validateScanResponse at h
  split at h
  · exact (Except.error.inj h).symm
  split at h
  · split at h
    · exact (Except.error.inj h).symm
    split at h
    · exact (Except.error.inj h).symm
    · cases h
  · exact (Except.error.inj h).symm

/-- The validator of an action fails as that of the status in it does. -/
theorem error_of_validateActionResponse {fields : List (PyStr × Json)} {e : NetworkdUnavailable}
    (h : validateActionResponse fields = .error e) : e = invalidResponse := by
  rw [validateActionResponse_eq] at h
  split at h
  · next e' hstatus =>
    rw [← Except.error.inj h]
    exact error_of_validateStatusResponse hstatus
  split at h
  · exact (Except.error.inj h).symm
  split at h
  · exact (Except.error.inj h).symm
  · cases h

/-- No validator tells the caller more than that the response was invalid. -/
theorem error_of_validateResponse {r : ParsedRequest} {fields : List (PyStr × Json)}
    {e : NetworkdUnavailable} (h : validateResponse r fields = .error e) : e = invalidResponse := by
  cases r with
  | status => exact error_of_validateStatusResponse h
  | scan => exact error_of_validateScanResponse h
  | connect => exact error_of_validateActionResponse h
  | provisioning => exact error_of_validateActionResponse h

/-- What the client raises after an exchange, and that `RecursionError` takes a response that is
nested too deep. -/
theorem error_of_answer {r : ParsedRequest} {x : Exchange} {e : ClientError}
    (h : x.answer r = .error e) :
    (x = .tooDeep ∧ e = .recursion) ∨ x ≠ .tooDeep ∧ ∃ e', e = .unavailable e' ∧ Raises e' := by
  cases x with
  -- only a nesting beyond the limit is raised as it is; the rest is an error with a reason
  | failed => exact .inr ⟨nofun, _, (Except.error.inj h).symm, raises_text (by decide)⟩
  | peerInvalid => exact .inr ⟨nofun, _, (Except.error.inj h).symm, raises_text (by decide)⟩
  | tooDeep => exact .inl ⟨rfl, (Except.error.inj h).symm⟩
  | answered response =>
    refine .inr ⟨nofun, ?_⟩
    have h : ((checkResponse response).mapError ClientError.unavailable >>= fun fields =>
      (validateResponse r fields).mapError .unavailable) = .error e := h
    cases hcheck : checkResponse response with
    | error e' =>
      rw [hcheck] at h
      exact ⟨e', (Except.error.inj h).symm, raises_of_checkResponse hcheck⟩
    | ok fields =>
      rw [hcheck] at h
      have hvalid : (validateResponse r fields).mapError ClientError.unavailable = .error e := h
      cases hfields : validateResponse r fields with
      | error e' =>
        rw [hfields] at hvalid
        refine ⟨e', (Except.error.inj hvalid).symm, ?_⟩
        rw [error_of_validateResponse hfields]
        exact raises_invalidResponse
      | ok response' =>
        rw [hfields] at hvalid
        cases hvalid

/-! ## What the models admit

No check of a model can fail on fields that the client has let through. -/

/-- A model is built where none of its checks fails. -/
theorem build_of_errors {α : Type} {errors : α → List String} {r : α} (h : errors r = []) :
    build errors r = .ok ⟨r, h⟩ := by
  unfold build
  rw [validated_of_errors h]
  rfl

/-- The fallback is a valid response, whatever address the interface has. -/
theorem networkFallback_valid (address : Option String) : (networkFallback address).errors = [] := by
  unfold networkFallback
  cases address == some MANAGEMENT_ADDRESS <;> decide

/-- A field that may be missing passes where its text is short enough. -/
theorem optionalLengthErrors_eq_nil {field : String} {most : Nat} {value : Option String}
    (h : ∀ s, value = some s → s.length ≤ most) : optionalLengthErrors field most value = [] := by
  cases value with
  | none => rfl
  | some s => exact if_pos ⟨Nat.zero_le _, h s rfl⟩

/-- A status whose texts the client accepted fits the model. -/
theorem networkResponse_valid (mode : NetworkMode) (active : Bool) {ssid reason : Option String}
    (hssid : ∀ s, ssid = some s → SsidAccepted s)
    (hreason : ∀ e, reason = some e → ReasonAccepted e) :
    (networkResponse mode active ssid reason).errors = [] := by
  have hssid : optionalLengthErrors "station_ssid" 32 ssid = [] :=
    optionalLengthErrors_eq_nil fun s hs => (ssidAccepted_length (hssid s hs)).2
  have hreason : optionalLengthErrors "last_error" 64 reason = [] :=
    optionalLengthErrors_eq_nil fun e he => (hreason e he).2.1
  show patternErrors _ _ _ ++ _ ++ _ ++ patternErrors _ _ _ ++
    optionalLengthErrors "station_ssid" 32 ssid ++ optionalLengthErrors "last_error" 64 reason = []
  rw [hssid, hreason]
  rfl

/-- A scan of at most 64 valid networks fits the model. -/
theorem wifiScanResponse_valid {networks : List WifiNetwork} (hlen : networks.length ≤ 64)
    (h : ∀ n ∈ networks, n.errors = []) : (⟨"v1", networks⟩ : WifiScanResponse).errors = [] := by
  have hnetworks : networks.flatMap WifiNetwork.errors = [] := List.flatMap_eq_nil_iff.mpr h
  show patternErrors _ _ _ ++ (if networks.length ≤ 64 then [] else _) ++
    networks.flatMap WifiNetwork.errors = []
  rw [if_pos hlen, hnetworks]
  rfl

/-- An action whose reason can be told fits the model. -/
theorem networkActionResponse_valid (accepted : Bool) (mode : NetworkMode) {reason : String}
    (h : ReasonAccepted reason) :
    (⟨"v1", accepted, mode, reason⟩ : NetworkActionResponse).errors = [] := by
  have hreason : lengthErrors "reason" 1 64 reason = [] := if_pos ⟨h.1, h.2.1⟩
  show patternErrors _ _ _ ++ lengthErrors "reason" 1 64 reason = []
  rw [hreason]
  rfl

/-! ## Every exchange

Over every exchange, from a socket that cannot be reached to an answer of any bytes. -/

/-- The reason that the route of a request passes on after an exchange: the last error of a status,
the reason of an action, or what the client raised, which the status route keeps to itself. -/
def passedOn : ParsedRequest → Except ClientError (List (PyStr × Json)) → Option PyStr
  | .status, .ok response => reasonOf (lookupField response "last_error")
  | .status, .error _ => none
  | .scan, .ok _ => none
  | .connect _ _, .ok response => reasonOf (lookupField response "reason")
  | .provisioning, .ok response => reasonOf (lookupField response "reason")
  | _, .error (.unavailable e) => some e.reason
  | _, .error .recursion => none

/-- An exchange that the route of a request can tell of: the response is not nested too deep, and
what is passed on holds no half of a surrogate pair. -/
structure Told (r : ParsedRequest) (x : Exchange) : Prop where
  read : x ≠ .tooDeep
  text : ∀ reason, passedOn r (x.answer r) = some reason → reason.IsText

/-- A reply of a route that asks the daemon, over whether the exchange can be told of. -/
inductive Documented {α : Type} (success : Nat) (told : Prop) : Reply α → Prop where
  | success (h : told) (body : α) : Documented success told (.success success body)
  | unavailable (h : told) {detail : String} (hdetail : ReasonAccepted detail) :
      Documented success told (.failure 503 detail)
  | internal (h : ¬told) : Documented success told .internalServerError

/-- A method of the client returns only after its validator has, on a response that could be read.
-/
theorem validateResponse_of_answer {r : ParsedRequest} {x : Exchange}
    {response : List (PyStr × Json)} (h : x.answer r = .ok response) :
    x ≠ .tooDeep ∧ ∃ fields, validateResponse r fields = .ok response := by
  refine ⟨?_, ?_⟩
  · rintro rfl
    cases h
  · obtain ⟨fields, -, hvalid⟩ := bind_eq_ok.mp h
    refine ⟨fields, ?_⟩
    cases hfields : validateResponse r fields with
    | error e =>
      rw [hfields] at hvalid
      cases hvalid
    | ok response' =>
      rw [hfields] at hvalid
      exact congrArg _ (Except.ok.inj hvalid)

/-- A route that raises nothing but what the client raised replies as documented, if what it makes
of a response is an error exactly where the exchange cannot be told of. -/
theorem documented_of_answer {α : Type} {success : Nat} {r : ParsedRequest} {x : Exchange}
    {f : List (PyStr × Json) → Except Raised α}
    (hraised : ∀ e, passedOn r (.error (.unavailable e)) = some e.reason)
    (h : ∀ response, x.answer r = .ok response →
      (Told r x ∧ ∃ body, f response = .ok body) ∨ ¬Told r x ∧ f response = .error .other) :
    Documented success (Told r x) (guarded success (do
      let response ← (x.answer r).mapError .ofClient
      f response)) := by
  cases hx : x.answer r with
  | error e =>
    -- a reason that is a text is written out; half a surrogate pair cannot be
    rcases error_of_answer hx with ⟨hdeep, rfl⟩ | ⟨hread, e', rfl, hraises⟩
    · exact .internal fun htold => htold.read hdeep
    · have hpassed : passedOn r (x.answer r) = some e'.reason := by
        rw [hx]
        exact hraised e'
      show Documented success (Told r x) (httpException 503 e'.reason)
      cases hreason : e'.reason with
      | text reason =>
        refine .unavailable ⟨hread, ?_⟩ (hraises reason hreason)
        intro passed h
        rw [hpassed, hreason] at h
        exact Option.some.inj h ▸ trivial
      | surrogates points hpoints =>
        refine .internal fun htold => ?_
        have htext := htold.text _ hpassed
        rw [hreason] at htext
        exact htext
  | ok response =>
    show Documented success (Told r x) (guarded success (f response))
    -- the client returned: the route told of it, or it could not
    rcases h response hx with ⟨htold, body, hbody⟩ | ⟨htold, hother⟩
    · rw [hbody]
      exact .success htold body
    · rw [hother]
      exact .internal htold

/-! ### The status

`GET /api/v1/network`, whatever the daemon answered. -/

/-- A status whose last error is a text becomes a response. -/
theorem network_of_fields (address : Option String) {x : Exchange} {status : List (PyStr × Json)}
    {mode : NetworkMode} {active : Bool} {ssid reason : Option String}
    (hx : x.answer .status = .ok status) (h : StatusFields status mode active ssid)
    (hreason : optionalTextOf (lookupField status "last_error") = .ok reason)
    (haccepted : ∀ e, reason = some e → ReasonAccepted e) :
    network address x = .ok ⟨networkResponse mode active ssid reason,
      networkResponse_valid mode active h.ssid_accepted haccepted⟩ := by
  unfold network
  rw [hx]
  dsimp only
  rw [h.mode, h.active, h.stationSsid, hreason]
  exact build_of_errors _

/-- The status route reports, from the daemon or its fallback, whatever can be told. -/
theorem network_told (address : Option String) (x : Exchange) :
    (Told .status x ∧ ∃ body, network address x = .ok body) ∨
      ¬Told .status x ∧ network address x = .error .other := by
  cases hx : x.answer .status with
  | error e =>
    -- this route answers an error of the client with the fallback
    rcases error_of_answer hx with ⟨hdeep, rfl⟩ | ⟨hread, e', rfl, -⟩
    · refine .inr ⟨fun htold => htold.read hdeep, ?_⟩
      unfold network
      rw [hx]
    · refine .inl ⟨⟨hread, ?_⟩, ⟨networkFallback address, networkFallback_valid address⟩, ?_⟩
      · intro reason h
        rw [hx] at h
        cases h
      · unfold network
        rw [hx]
        exact build_of_errors _
  | ok status =>
    obtain ⟨hread, fields, hvalid⟩ := validateResponse_of_answer hx
    obtain ⟨rfl, herror, mode, active, ssid, hfields⟩ := statusFields_of_validate hvalid
    have hpassed : passedOn .status (x.answer .status) =
        reasonOf (lookupField status "last_error") := by rw [hx]; rfl
    -- the last error is told on as a text, or cannot be
    rcases optionalTextOf_reason herror with
      ⟨reason, hreason, hsame, haccepted⟩ | ⟨reason, hreason, hsame, htext⟩
    · refine .inl ⟨⟨hread, ?_⟩, _, network_of_fields address hx hfields hreason haccepted⟩
      intro passed h
      rw [hpassed, hsame] at h
      obtain ⟨text, -, rfl⟩ := Option.map_eq_some_iff.mp h
      trivial
    · refine .inr ⟨fun htold => htext (htold.text reason (hpassed.trans hsame)), ?_⟩
      unfold network
      rw [hx]
      dsimp only
      rw [hfields.mode, hfields.active, hfields.stationSsid, hreason]
      rfl

/-! ### The scan

`GET /api/v1/network/wifi`, whatever the daemon answered. -/

/-- The scan passes on no text of the daemon, so only the depth of the response can fail it. -/
theorem getWifiNetworks_documented (x : Exchange) :
    Documented 200 (Told .scan x) (getWifiNetworks x) := by
  refine documented_of_answer (fun _ => rfl) ?_
  intro response hx
  obtain ⟨hread, fields, hvalid⟩ := validateResponse_of_answer hx
  obtain ⟨rfl, networks, hnetworks, hlen, hall⟩ := scanFields_of_validate hvalid
  -- each network that the client let through is one for the model
  obtain ⟨ns, hns, hvalid⟩ := mapM_of_forall (P := fun (_ : Json) (n : WifiNetwork) => n.errors = [])
    fun v hv => wifiNetwork_of_validate (hall v hv)
  have hcount : ns.length ≤ 64 := by
    rw [← hvalid.length_eq]
    exact hlen
  have hadmitted : ∀ n ∈ ns, n.errors = [] := by
    intro n hn
    obtain ⟨i, hi, rfl⟩ := List.mem_iff_getElem.mp hn
    exact (List.forall₂_iff_get.mp hvalid).2 i (hvalid.length_eq ▸ hi) hi
  -- a scan tells no reason
  have htold : Told .scan x := by
    refine ⟨hread, ?_⟩
    intro reason h
    rw [hx] at h
    cases h
  refine .inl ⟨htold, ⟨_, wifiScanResponse_valid hcount hadmitted⟩, ?_⟩
  rw [hnetworks]
  dsimp only
  rw [hns]
  exact build_of_errors _

/-! ### The actions

The two `POST` routes, whatever was posted and whatever the daemon answered. -/

/-- The answer to an action is reported where its reason is a text. -/
theorem actionResponse_told {r : ParsedRequest} {x : Exchange} {response : List (PyStr × Json)}
    (hr : validateResponse r = validateActionResponse)
    (hpassed : ∀ response, passedOn r (.ok response) = reasonOf (lookupField response "reason"))
    (hx : x.answer r = .ok response) :
    (Told r x ∧ ∃ body, actionResponse response = .ok body) ∨
      ¬Told r x ∧ actionResponse response = .error .other := by
  obtain ⟨hread, fields, hvalid⟩ := validateResponse_of_answer hx
  rw [hr] at hvalid
  obtain ⟨rfl, accepted, mode, reason, haccepted, hmode, hreason, hpublic⟩ :=
    actionFields_of_validate hvalid
  have hpassed : passedOn r (x.answer r) = some reason := by
    rw [hx, hpassed, hreason]
    rfl
  -- the reason is all that may fail to be written out
  cases reason with
  | text reason =>
    refine .inl ⟨⟨hread, ?_⟩, ⟨_, networkActionResponse_valid accepted mode (hpublic reason rfl)⟩, ?_⟩
    · intro passed h
      rw [hpassed] at h
      exact Option.some.inj h ▸ trivial
    · unfold actionResponse
      rw [haccepted, hmode, hreason]
      exact build_of_errors _
  | surrogates points hpoints =>
    refine .inr ⟨fun htold => htold.text _ hpassed, ?_⟩
    unfold actionResponse
    rw [haccepted, hmode, hreason]
    rfl

/-- The validators of the client repeat those of the model, so that the payload is built. -/
theorem connectPayload_ok (request : NetworkConnectRequest) :
    NetworkdClient.connectPayload request.ssid request.password =
      .ok [("ssid", .str request.ssid),
        ("password", request.password.elim .null fun text => .str text)] := by
  unfold NetworkdClient.connectPayload
  rw [request.ssid_valid]
  cases hpassword : request.password with
  | none => rfl
  | some password =>
    have hvalid := request.password_valid password (by rw [hpassword]; exact rfl)
    simp only [bind, Except.bind, hvalid]
    rfl

/-- The client sends what the model has admitted. -/
theorem connectWifi_eq (request : NetworkConnectRequest) (x : Exchange) :
    connectWifi request x = (do
      let response ← (x.answer (.connect request.ssid request.password)).mapError .ofClient
      actionResponse response) := by
  unfold connectWifi
  rw [connectPayload_ok]
  rfl

/-- What a body is refused with: one of two texts, which repeat nothing of it. -/
inductive Refusal : Body → Nat × String → Prop where
  | unreadable : Refusal .unreadable (400, "There was an error parsing the body")
  | validation {body : Body} (h : body ≠ .unreadable) :
      Refusal body (422, "request_validation_failed")

/-- A body is refused in one of two ways, whatever the model is. -/
theorem refusal_of_read {β : Type} {model : Json → Except (List PyStr) β} {body : Body}
    {refusal : Nat × String} (h : body.read model = .error refusal) : Refusal body refusal := by
  cases body with
  | missing => exact Except.error.inj h ▸ .validation nofun
  | invalid => exact Except.error.inj h ▸ .validation nofun
  | unreadable => exact Except.error.inj h ▸ .unreadable
  | json value =>
    have h : (model value).mapError (fun _ => (422, "request_validation_failed")) =
      .error refusal := h
    cases hvalue : model value with
    | error fields =>
      rw [hvalue] at h
      exact Except.error.inj h ▸ .validation nofun
    | ok request =>
      rw [hvalue] at h
      cases h

/-- A reply to a body: that to what is read of it, or what it is refused with. -/
structure Posted {α β : Type} (body : Body) (model : Json → Except (List PyStr) β)
    (told : β → Prop) (reply : Reply α) : Prop where
  taken : ∀ request, body.read model = .ok request → Documented 202 (told request) reply
  refused : ∀ refusal, body.read model = .error refusal →
    Refusal body refusal ∧ reply = .failure refusal.1 refusal.2

/-- The route of `connect_wifi` over any body and any exchange. -/
theorem postConnect_posted (body : Body) (x : Exchange) :
    Posted body NetworkConnectRequest.ofJson
      (fun request => Told (.connect request.ssid request.password) x) (postConnect body x) where
  taken := by
    intro request hread
    unfold postConnect
    rw [hread]
    dsimp only
    rw [connectWifi_eq]
    exact documented_of_answer (fun _ => rfl) fun response hx =>
      actionResponse_told rfl (fun _ => rfl) hx
  refused := by
    intro refusal hread
    refine ⟨refusal_of_read hread, ?_⟩
    unfold postConnect
    rw [hread]

/-- The route of `enable_provisioning` over any body and any exchange. -/
theorem postProvisioning_posted (body : Body) (x : Exchange) :
    Posted body ProvisioningRequest.ofJson (fun _ => Told .provisioning x)
      (postProvisioning body x) where
  taken := by
    intro request hread
    unfold postProvisioning
    rw [hread]
    exact documented_of_answer (fun _ => rfl) fun response hx =>
      actionResponse_told rfl (fun _ => rfl) hx
  refused := by
    intro refusal hread
    refine ⟨refusal_of_read hread, ?_⟩
    unfold postProvisioning
    rw [hread]

/-- **Every exchange is answered.** Whatever the daemon's socket does, a response of any shape
included, and whatever a client posts: the status of the network is reported, and the other routes
report their result or a reason of 1 to 64 characters without a line feed, exactly where the
exchange can be told of, and otherwise each of them comes to an internal error. A body that is not
the model's is refused with one of two texts, whatever the exchange would have been. -/
theorem routes_documented (address : Option String) (body : Body) (x : Exchange) :
    ((Told .status x ∧ ∃ response, getNetwork address x = .success 200 response) ∨
      ¬Told .status x ∧ getNetwork address x = .internalServerError) ∧
    Documented 200 (Told .scan x) (getWifiNetworks x) ∧
    Posted body NetworkConnectRequest.ofJson
      (fun request => Told (.connect request.ssid request.password) x) (postConnect body x) ∧
    Posted body ProvisioningRequest.ofJson (fun _ => Told .provisioning x)
      (postProvisioning body x) := by
  refine ⟨?_, getWifiNetworks_documented x, postConnect_posted body x,
    postProvisioning_posted body x⟩
  unfold getNetwork
  rcases network_told address x with ⟨htold, response, hresponse⟩ | ⟨htold, hother⟩
  · rw [hresponse]
    exact .inl ⟨htold, response, rfl⟩
  · rw [hother]
    exact .inr ⟨htold, rfl⟩

/-- A status whose last error is half of a surrogate pair. -/
def halfPair : Exchange :=
  .answered (.obj [("api_version", .str API_VERSION), ("ok", .bool true), ("mode", .str "error"),
    ("provisioning_ap_active", .bool false), ("station_ssid", .null),
    ("last_error", .str (.surrogates [.surrogate 0] rfl))])

/-- Cases of each kind: a status that cannot be told of, a scan that can, a body that cannot be
parsed, and an answer that is nested too deep. -/
theorem routes_documented_halfPair :
    (¬Told .status halfPair ∧ getNetwork none halfPair = .internalServerError) ∧
    (Told .scan .failed ∧ ∃ detail, getWifiNetworks .failed = .failure 503 detail ∧
      ReasonAccepted detail) ∧
    (∃ refusal, Refusal .unreadable refusal ∧
      postConnect .unreadable .failed = .failure refusal.1 refusal.2) ∧
    ¬Told .provisioning .tooDeep ∧
      postProvisioning (.json (.obj [])) .tooDeep = .internalServerError := by
  have hstatus := (routes_documented none .missing halfPair).1
  have hscan : Documented 200 (Told .scan .failed)
      (.failure 503 "network_management_unavailable" : Reply ValidWifiScanResponse) :=
    (routes_documented none .missing .failed).2.1
  have hconnect := (routes_documented none .unreadable .failed).2.2.1
  have hdeep : Documented 202 (Told .provisioning .tooDeep)
      (.internalServerError : Reply ValidNetworkActionResponse) :=
    (routes_documented none (.json (.obj [])) .tooDeep).2.2.2.taken () rfl
  refine ⟨hstatus.resolve_left ?_, ?_, ⟨_, hconnect.refused _ rfl⟩, ?_, rfl⟩
  · rintro ⟨htold, -⟩
    exact htold.text (.surrogates [.surrogate 0] rfl) (by decide)
  · cases hscan with
    | unavailable htold hdetail => exact ⟨htold, _, rfl, hdetail⟩
  · cases hdeep with
    | internal htold => exact htold

end Web

end Rave
