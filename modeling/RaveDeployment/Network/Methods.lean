import RaveDeployment.Network.DhcpOwnership
import RaveDeployment.Network.WorkerBlocks

/-!
# What the backend's methods issue and return

`Within ok` for each method of `NetworkManagerBackend`, where `ok` admits every call of
`run`: whatever the commands print, the method issues nothing else and what it returns has passed the
checks on the way. Only `connect_station` also hands a password to the runner, the one it was given.

`backendTexts_networkManager`: every SSID the backend reports passes `validate_ssid`, and every
reason is one of its own words. `scan_accessPoints`: so do the entries of a scan.
-/

namespace Rave

open Prog Py

def SsidAccepted (ssid : String) : Prop :=
  validateSsid ssid = .ok ssid

/-- A reason as the client asks for it: 1 to 64 characters, no line feed. -/
def ReasonAccepted (reason : String) : Prop :=
  1 ≤ reason.length ∧ reason.length ≤ 64 ∧ '\n' ∉ reason.toList

instance (reason : String) : Decidable (ReasonAccepted reason) :=
  inferInstanceAs (Decidable (_ ∧ _ ∧ _))

/-- A text that was validated is an SSID. -/
theorem ssidAccepted_of_validate {value ssid : String} (h : validateSsid value = .ok ssid) :
    SsidAccepted ssid := by
  have heq := (validateSsid_eq_ok h).1
  subst heq
  exact h

/-- The reasons that the backend names. -/
def backendReasons : List String :=
  ["security_not_supported", "password_not_expected", "password_required", "password_invalid",
    "saved_station_profile_failed", "wifi_radio_failed", "ap_dhcp_stop_failed",
    "saved_station_timeout", "station_timeout", "station_profile_persistence_failed",
    "station_profile_failed", "ssid_not_found", "ap_activation_failed", "ap_dhcp_failed"]

/-- Each of them is one that the client accepts. -/
theorem backendReason_accepted {reason : String} (h : reason ∈ backendReasons) :
    ReasonAccepted reason := by
  have hall : ∀ reason ∈ backendReasons, ReasonAccepted reason := by decide
  exact hall reason h

/-- A failed attempt reports a reason and no SSID. -/
theorem stationFailed {P : String → Prop} {reason : String} (h : reason ∈ backendReasons) :
    StationTexts P ReasonAccepted (false, none, some reason) :=
  ⟨by simp, fun _ he => Option.some.inj he ▸ backendReason_accepted h⟩

theorem provisioningFailed {reason : String} (h : reason ∈ backendReasons) :
    ∀ e, ((false, some reason) : ProvisioningResult).2 = some e → ReasonAccepted e :=
  fun _ he => Option.some.inj he ▸ backendReason_accepted h

/-- What is wrong with the credentials is reported as one of these reasons. -/
theorem credentialError_mem {security : WifiSecurity} {password : Option String}
    {reason : String} (h : Backend.credentialError security password = some reason) :
    reason ∈ backendReasons := by
  unfold Backend.credentialError at h
  split at h
  · exact Option.some.inj h ▸ by simp [backendReasons]
  · exact Option.some.inj h ▸ by simp [backendReasons]
  · cases h
  · exact Option.some.inj h ▸ by simp [backendReasons]
  · exact Option.some.inj h ▸ by simp [backendReasons]
  · split at h
    · cases h
    · exact Option.some.inj h ▸ by simp [backendReasons]

/-! ## The entries of a scan

What is parsed was checked: the SSID decodes, and the signal is a percentage. -/

/-- What a parsed row has passed. -/
structure AccessPoint.Accepted (accessPoint : AccessPoint) : Prop where
  ssid : SsidAccepted accessPoint.ssid
  signal : 0 ≤ accessPoint.signalPercent ∧ accessPoint.signalPercent ≤ 100

/-- Keeping the stronger of two rows keeps rows that were parsed. -/
theorem keepStrongest_accepted {strongest : List AccessPoint} {accessPoint : AccessPoint}
    (h : ∀ a ∈ strongest, a.Accepted) (ha : accessPoint.Accepted) :
    ∀ a ∈ keepStrongest strongest accessPoint, a.Accepted := by
  intro a hmem
  unfold keepStrongest at hmem
  split at hmem
  · obtain ⟨b, hb, rfl⟩ := List.mem_map.mp hmem
    split
    · exact ha
    · exact h b hb
  · rcases List.mem_append.mp hmem with hmem | hmem
    · exact h a hmem
    · rw [List.mem_singleton.mp hmem]
      exact ha

theorem foldl_keepStrongest_accepted (rows strongest : List AccessPoint)
    (hrows : ∀ a ∈ rows, a.Accepted) (h : ∀ a ∈ strongest, a.Accepted) :
    ∀ a ∈ rows.foldl keepStrongest strongest, a.Accepted := by
  induction rows generalizing strongest with
  | nil => exact h
  | cons row rows ih =>
    have hrow := keepStrongest_accepted h (hrows row (by simp))
    exact ih _ (fun a ha => hrows a (by simp [ha])) hrow

section

variable [PyUnicode]

/-- A row that is parsed is an access point that the client accepts. -/
theorem parseAccessPoint_accepted {line : String} {accessPoint : AccessPoint}
    (h : parseAccessPoint line = some accessPoint) : accessPoint.Accepted := by
  unfold parseAccessPoint at h
  split at h
  · split at h
    · next validSsid signalPercent hssid _ =>
      split at h
      · next hsignal =>
        cases h
        exact ⟨ssidAccepted_of_validate hssid, hsignal⟩
      · cases h
    · cases h
  · cases h

/-- **The result of a scan** is short, and each entry has passed the checks of its row. -/
theorem scanResult_accepted (stdout : String) :
    (scanResult stdout).length ≤ MAX_NETWORKS ∧ ∀ a ∈ scanResult stdout, a.Accepted := by
  refine ⟨List.length_take_le _ _, fun a ha => ?_⟩
  have hsorted := List.mem_of_mem_take ha
  have hmem := (List.perm_insertionSort _ _).mem_iff.mp hsorted
  refine foldl_keepStrongest_accepted _ [] ?_ (by simp) a hmem
  intro row hrow
  obtain ⟨line, -, hline⟩ := List.mem_filterMap.mp hrow
  exact parseAccessPoint_accepted hline

end

/-! ## Single commands

The programs of the backend, with what they return and which commands they issue. -/

section

variable {ok : RunnerCall → Prop} (hrun : ∀ c, ok (.run c))
include hrun

theorem within_run (c : Command) : Within ok (Backend.run c) fun _ => True :=
  within_op (hrun c) fun _ => within_ofExcept fun _ _ => trivial

theorem within_succeeds (c : Command) : Within ok (Backend.succeeds c) fun _ => True :=
  within_bind (within_run hrun c) fun _ _ => within_ret trivial

theorem within_deleteProfile (profile : ProfileName) :
    Within ok (Backend.deleteProfile profile) fun _ => True :=
  within_bind (within_run hrun _) fun _ _ => within_ret trivial

theorem within_profileProperty (profile : Uuid) (property : ProfileProperty) :
    Within ok (Backend.profileProperty profile property) fun _ => True :=
  within_bind (within_run hrun _) fun _ _ => within_ret trivial

theorem within_profileHasIdentity (profile : Uuid) (profileId : ProfileName) :
    Within ok (Backend.profileHasIdentity profile profileId) fun _ => True := by
  apply within_bind (within_profileProperty hrun _ _)
  intro id _
  split
  · exact within_bind (within_profileProperty hrun _ _) fun _ _ => within_ret trivial
  · exact within_ret trivial

theorem within_profileUuid (profileId : ProfileName) :
    Within ok (Backend.profileUuid profileId) fun _ => True := by
  apply within_bind (within_run hrun _)
  intro result _
  split
  · exact within_ret trivial
  · exact within_ret trivial

theorem within_activeConnection : Within ok Backend.activeConnection fun _ => True :=
  within_bind (within_run hrun _) fun _ _ => within_ret trivial

/-- The SSID of a saved profile is validated. -/
theorem within_savedSsid (profile : Option Uuid) :
    Within ok (Backend.savedSsid profile) fun r => ∀ s, r = some s → SsidAccepted s := by
  apply within_bind (within_run hrun _)
  intro result _
  dsimp only
  split
  · split
    · next ssid hssid =>
      exact within_ret fun s hs => Option.some.inj hs ▸ ssidAccepted_of_validate hssid
    · exact within_ret (by simp)
  · exact within_ret (by simp)

/-! ## Scanning and promoting

The promotion renames and deletes profiles; it returns no text. -/

/-- **The entries of a scan have passed the checks of their rows.** -/
theorem within_scan [PyUnicode] : Within ok Backend.scan fun networks =>
    networks.length ≤ MAX_NETWORKS ∧ ∀ a ∈ networks, a.Accepted := by
  apply within_bind (within_succeeds hrun _)
  intro enabled _
  dsimp only
  split
  · exact within_raise _
  apply within_bind (within_run hrun _)
  intro result _
  split
  · exact within_raise _
  · exact within_ret (scanResult_accepted _)

theorem within_createPendingProfile (accessPoint : AccessPoint) :
    Within ok (Backend.createPendingProfile accessPoint) fun _ => True := by
  apply within_bind (within_run hrun _)
  intro added _
  split
  · exact within_succeeds hrun _
  · exact within_ret trivial

theorem within_backUpPrevious (previous : Option Uuid) :
    Within ok (Backend.backUpPrevious previous) fun _ => True := by
  cases previous with
  | none => exact within_ret trivial
  | some previous =>
    apply within_bind (within_succeeds hrun _)
    intro renamed _
    split
    · exact within_ret trivial
    · exact within_profileHasIdentity hrun _ _

theorem within_promotePendingProfile (pending : Uuid) (previous : Option Uuid) :
    Within ok (Backend.promotePendingProfile pending previous) fun _ => True := by
  apply within_bind (within_backUpPrevious hrun previous)
  intro backedUp _
  split
  · exact within_ret trivial
  apply within_bind (within_succeeds hrun _)
  intro renamed _
  split
  · exact within_ret trivial
  apply within_bind (within_profileHasIdentity hrun _ _)
  intro verified _
  split
  · exact within_ret trivial
  cases previous with
  | none => exact within_ret trivial
  | some previous => exact within_succeeds hrun _

theorem within_rollbackPromotion (pending : Uuid) (previous : Option Uuid) :
    Within ok (Backend.rollbackPromotion pending previous) fun _ => True := by
  have hdelete : Within ok
      ((Backend.deleteProfileUuid pending).bind fun _ => (Prog.ret () : Backend Unit))
      fun _ => True :=
    within_bind (within_succeeds hrun _) fun _ _ => within_ret trivial
  apply within_bind (within_succeeds hrun _)
  intro _ _
  cases previous with
  | none => exact hdelete
  | some previous => exact within_bind (within_succeeds hrun _) fun _ _ => hdelete

theorem within_takeSavedName (profile : Uuid) :
    Within ok (Backend.takeSavedName profile) fun _ => True := by
  apply within_bind (within_succeeds hrun _)
  intro renamed _
  split
  · exact within_ret trivial
  apply within_bind (within_profileHasIdentity hrun _ _)
  intro verified _
  split
  · exact within_ret trivial
  · exact within_ret trivial

theorem within_savedProfileForActivation :
    Within ok Backend.savedProfileForActivation fun _ => True := by
  apply within_bind (within_profileUuid hrun _)
  rintro ⟨lookupOk, saved⟩ _
  dsimp only
  split
  · exact within_ret trivial
  cases saved with
  | some profile => exact within_takeSavedName hrun profile
  | none =>
    apply within_bind (within_profileUuid hrun _)
    rintro ⟨backupOk, backup⟩ _
    dsimp only
    split
    · exact within_takeSavedName hrun _
    · exact within_ret trivial

/-! ## The public methods

What they return is one of the reasons that the source names, or an SSID that was checked. -/

theorem within_hasSavedStation : Within ok Backend.hasSavedStation fun _ => True := by
  apply within_bind (within_profileUuid hrun _)
  rintro ⟨lookupOk, saved⟩ _
  dsimp only
  split
  · exact within_ret trivial
  · exact within_bind (within_profileUuid hrun _) fun _ _ => within_ret trivial

/-- The texts of `activate_saved_station`. -/
theorem within_activateSavedStation :
    Within ok Backend.activateSavedStation (StationTexts SsidAccepted ReasonAccepted) := by
  apply within_bind (within_savedProfileForActivation hrun)
  intro profile _
  cases profile with
  | none => exact within_ret (stationFailed (by simp [backendReasons]))
  | some profile =>
    apply within_bind (within_succeeds hrun _)
    intro enabled _
    split
    · exact within_ret (stationFailed (by simp [backendReasons]))
    apply within_bind (within_succeeds hrun _)
    intro stopped _
    split
    · exact within_ret (stationFailed (by simp [backendReasons]))
    apply within_bind (within_run hrun _)
    intro result _
    split
    · exact within_ret (stationFailed (by simp [backendReasons]))
    apply within_bind (within_savedSsid hrun _)
    intro ssid hssid
    exact within_ret ⟨hssid, by simp⟩

/-- The texts of `activate_provisioning`. -/
theorem within_activateProvisioning : Within ok Backend.activateProvisioning
    fun r => ∀ e, r.2 = some e → ReasonAccepted e := by
  apply within_bind (within_succeeds hrun _)
  intro enabled _
  split
  · exact within_ret (provisioningFailed (by simp [backendReasons]))
  apply within_bind (within_run hrun _)
  intro result _
  split
  · exact within_ret (provisioningFailed (by simp [backendReasons]))
  apply within_bind (within_run hrun _)
  intro dhcp _
  split
  · exact within_ret (provisioningFailed (by simp [backendReasons]))
  · exact within_ret (by simp)

/-- The SSID of the active connection is validated. -/
theorem within_activeStationSsid : Within ok Backend.activeStationSsid
    fun r => ∀ s, r = some s → SsidAccepted s := by
  apply within_bind (within_activeConnection hrun)
  intro name _
  split
  · exact within_ret (by simp)
  · exact within_savedSsid hrun none

theorem within_provisioningReady : Within ok Backend.provisioningReady fun _ => True := by
  apply within_bind (within_activeConnection hrun)
  intro name _
  split
  · exact within_ret trivial
  · exact within_bind (within_run hrun _) fun _ _ => within_ret trivial

/-! ## `connect_station`

The SSID that it returns is the one it was asked for. -/

section

variable {password : Option String}
  (hsecret : ∀ c secret, password = some secret → ok (.runWithSecret c secret))
include hsecret

theorem within_activatePending (pending : Uuid) (accessPoint : AccessPoint) :
    Within ok (Backend.activatePending pending accessPoint password) fun _ => True := by
  have hret : ∀ result : CommandResult, True → Within ok
      (Prog.ret (result.returncode == 0) : Backend Bool) fun _ => True :=
    fun _ _ => within_ret trivial
  unfold Backend.activatePending
  split
  · exact within_bind (within_run hrun _) hret
  cases password with
  | none => exact within_raise _
  | some secret =>
    have hcall : Within ok (Backend.runWithSecret (.upUuid pending) secret) fun _ => True :=
      within_op (hsecret _ secret rfl) fun _ => within_ofExcept fun _ _ => trivial
    exact within_bind hcall hret

/-- The texts of an attempt: the SSID that was asked for, or a reason. -/
theorem within_activateAndPromote {P : String → Prop} {selectedSsid : String}
    (hssid : P selectedSsid) (pending : Uuid) (previous : Option Uuid) (accessPoint : AccessPoint) :
    Within ok (Backend.activateAndPromote selectedSsid pending previous accessPoint password)
      (StationTexts P ReasonAccepted) := by
  apply within_bind (within_activatePending hrun hsecret pending accessPoint)
  intro activated _
  split
  · apply within_bind (within_succeeds hrun _)
    intro _ _
    exact within_ret (stationFailed (by simp [backendReasons]))
  apply within_bind (within_promotePendingProfile hrun pending previous)
  intro promoted _
  split
  · apply within_bind (within_rollbackPromotion hrun pending previous)
    intro _ _
    exact within_ret (stationFailed (by simp [backendReasons]))
  · exact within_ret ⟨fun s hs => Option.some.inj hs ▸ hssid, by simp⟩

theorem within_replaceProfile {P : String → Prop} {selectedSsid : String} (hssid : P selectedSsid)
    (accessPoint : AccessPoint) :
    Within ok (Backend.replaceProfile selectedSsid accessPoint password)
      (StationTexts P ReasonAccepted) := by
  apply within_bind (within_succeeds hrun _)
  intro stopped _
  split
  -- a failure is reported with a fixed reason, which the validator accepts
  · exact within_ret (stationFailed (by simp [backendReasons]))
  apply within_bind (within_profileUuid hrun _)
  rintro ⟨lookupOk, previous⟩ _
  dsimp only
  split
  · exact within_ret (stationFailed (by simp [backendReasons]))
  apply within_bind (within_deleteProfile hrun _)
  intro _ _
  apply within_bind (within_createPendingProfile hrun accessPoint)
  intro created _
  split
  · apply within_bind (within_deleteProfile hrun _)
    intro _ _
    exact within_ret (stationFailed (by simp [backendReasons]))
  apply within_bind (within_profileUuid hrun _)
  rintro ⟨lookupOk, pending⟩ _
  split
  · exact within_activateAndPromote hrun hsecret hssid _ previous accessPoint
  · apply within_bind (within_deleteProfile hrun _)
    intro _ _
    exact within_ret (stationFailed (by simp [backendReasons]))

/-- **`connect_station`** hands the runner no other password than its own, and reports no other
SSID than the one it was given. -/
theorem within_connectStation [PyUnicode] (ssid : String) :
    Within ok (Backend.connectStation ssid password)
      (StationTexts (fun s => validateSsid ssid = .ok s) ReasonAccepted) := by
  have hselected : Within ok (Prog.ofExcept (validateSsid ssid) : Backend String)
      fun s => validateSsid ssid = .ok s := within_ofExcept fun _ hs => hs
  apply within_bind hselected
  intro selectedSsid hssid
  apply within_bind (within_scan hrun)
  intro networks _
  split
  · exact within_ret (stationFailed (by simp [backendReasons]))
  · next accessPoint _ =>
    split
    · next error herror => exact within_ret (stationFailed (credentialError_mem herror))
    · exact within_replaceProfile hrun hsecret hssid accessPoint

end

end

/-- **What the backend reports to the controller** has passed the validators, or is one of its own
words. -/
theorem backendTexts_networkManager [PyUnicode] :
    BackendTexts networkManagerBackend (fun _ => True) SsidAccepted ReasonAccepted where
  hasSavedStation := within_hasSavedStation fun _ => trivial
  activateSavedStation := within_activateSavedStation fun _ => trivial
  connectStation ssid _ := (within_connectStation (fun _ => trivial) (fun _ _ _ => trivial)
    ssid).mono fun _ h => ⟨fun s hs => ssidAccepted_of_validate (h.1 s hs), h.2⟩
  activateProvisioning := within_activateProvisioning fun _ => trivial
  activeStationSsid := within_activeStationSsid fun _ => trivial
  provisioningReady := within_provisioningReady fun _ => trivial
  own := by decide

/-- What is left of a scan issues and returns only this, whatever the backend's operations answer. -/
def ScanWithin {B : Type} {Ans : B → Type} (ok : B → Prop) (Q : List AccessPoint → Prop)
    (s : Shared B Ans) : Prop :=
  ∀ rest, s.operation = some (.client rest) → Within ok rest Q

section

variable {B : Type} {Ans : B → Type} {backend : NetworkBackend B Ans} {ok : B → Prop}
  {Q : List AccessPoint → Prop} {s t : Shared B Ans}

/-- A client's step leads a scan on or starts one. -/
theorem scanWithin_clientStep (hscan : Within ok backend.scan Q)
    {a : ClientAction B Ans} {reply : Reply} (h : ScanWithin ok Q s)
    (hs : clientStep backend a s = some (reply, t)) : ScanWithin ok Q t := by
  -- only the scan's own steps touch its program: it is entered, advanced and left
  cases a with
  | request r =>
    simp only [clientStep] at hs
    split at hs
    · cases hs
    · rcases request_cases (Option.some.inj hs) with ⟨rfl, -⟩ | ⟨-, next, work, -, -, rfl⟩
      · exact h
      · exact h
  | finishRequest =>
    simp only [clientStep] at hs
    split at hs <;> cases hs
    exact h
  | scanCheck =>
    simp only [clientStep] at hs
    split at hs
    · cases hs
    · split at hs <;> cases hs <;> exact h
  | scanEnter =>
    simp only [clientStep] at hs
    split at hs <;> cases hs
    intro rest hrest
    cases hrest
    exact hscan
  | scanStep answers =>
    simp only [clientStep] at hs
    split at hs
    · next b k hop =>
      cases hs
      intro rest hrest
      cases hrest
      -- after an answer, what is left of the scan issues what the whole scan may issue
      exact (h _ hop () trivial).2 (answers b) () trivial
    · cases hs
  | scanLeave =>
    simp only [clientStep] at hs
    split at hs <;> cases hs <;> exact fun rest hrest => by cases hrest

/-- The worker does not touch a scan. -/
theorem scanWithin_workerExec {answers : (b : B) → Ans b} {o : WorkerOp B} {r : WorkerAns Ans o}
    (h : ScanWithin ok Q s) (hx : workerExec answers o s = some (r, t)) : ScanWithin ok Q t := by
  intro rest hrest
  rcases workerExec_cases hx with ⟨item, work, -, rfl⟩ | ⟨b, -, rfl⟩ | ⟨-, -, hop⟩
  · exact h rest hrest
  · exact h rest hrest
  · rcases hop with hop | hop | hop <;> rw [hop] at hrest
    · exact h rest hrest
    · cases hrest
    · cases hrest

/-- **A scan under way goes on as the backend's program says**, whatever step the daemon takes. -/
theorem scanWithin_step (hscan : Within ok backend.scan Q) {a : Action B Ans}
    {d d' : DaemonState B Ans} (h : ScanWithin ok Q d.shared)
    (hs : daemonStep backend a d = some d') : ScanWithin ok Q d'.shared := by
  cases daemonStep_move hs with
  | client hc => exact scanWithin_clientStep hscan h hc
  | worker _ hx => exact scanWithin_workerExec h hx
  | silent hs => rwa [hs]
  | restart hs => exact fun rest hrest => by rw [hs] at hrest; cases hrest

/-- What is left of a scan stays within its operations, in every run. -/
theorem scanWithin_of_run {D : Discipline B Ans} (hscan : Within ok backend.scan Q)
    {as : List (Action B Ans)} {d : DaemonState B Ans} (run : (daemon backend).Run D.ok .init as d) :
    ScanWithin ok Q d.shared := by
  have hinit : ScanWithin ok Q (Shared.init : Shared B Ans) := fun rest hrest => by cases hrest
  exact run.invariant (I := fun d => ScanWithin ok Q d.shared) hinit
    fun _ _ _ h _ hs => scanWithin_step hscan h hs

/-- The networks of a scan that returns. -/
theorem scanWithin_left {networks : List AccessPoint} (h : ScanWithin ok Q s)
    (hs : clientStep backend .scanLeave s = some (.scanned (.ok networks), t)) : Q networks := by
  -- the scan has come to a `return`
  simp only [clientStep] at hs
  split at hs
  · next networks' hop =>
    cases hs
    exact h _ hop () trivial
  · cases hs
  · cases hs

end

end Rave
