import RaveDeployment.Network.DhcpOwnership
import RaveDeployment.Network.Refines

/-!
# `NetworkManagerBackend` under the controller

As long as the runner raises nothing but `OSError`, `RuntimeError` and `ValueError`, neither does a
method of the backend: the `assert` of `_activate_pending` is behind the credential check
(`handles_activatePending`). So the daemon over the commands of `NetworkManagerBackend` refines the
daemon whose backend calls are single steps.
-/

namespace Rave

open Prog

variable {α β : Type}

/-- The runner returns a result or raises what the controller handles. -/
def handledAnswer (call : RunnerCall) : RunnerAnswer call → Bool
  | .ok _ => true
  | .error e => e.handled

/-- Over such a runner the method raises only what the controller handles. -/
def Handles (p : Backend α) : Prop :=
  RaisesOnly (fun call r => handledAnswer call r = true) (fun e => e.handled = true) p

/-! ## Commands and look-ups

A method raises only where its runner does, or where it gives up a text that it could not read; the
controller handles both. -/

theorem handles_ret (a : α) : Handles (.ret a) :=
  raisesOnly_ret a

theorem handles_bind {p : Backend α} {f : α → Backend β} (hp : Handles p)
    (hf : ∀ a, Handles (f a)) : Handles (p.bind f) :=
  raisesOnly_bind hp hf

/-- A call of the runner raises what the runner does. -/
theorem handles_call (call : RunnerCall) : Handles (.op call Prog.ofExcept) := by
  intro r hr
  apply raisesOnly_ofExcept
  rintro e rfl
  exact hr

theorem handles_run (c : Command) : Handles (Backend.run c) :=
  handles_call (.run c)

theorem handles_succeeds (c : Command) : Handles (Backend.succeeds c) :=
  handles_bind (handles_run c) fun _ => handles_ret _

theorem handles_profileHasIdentity (profile : Uuid) (profileId : ProfileName) :
    Handles (Backend.profileHasIdentity profile profileId) := by
  have hproperty (property : ProfileProperty) : Handles (Backend.profileProperty profile property) :=
    handles_bind (handles_run _) fun _ => handles_ret _
  apply handles_bind (hproperty _)
  intro id
  split
  · exact handles_bind (hproperty _) fun _ => handles_ret _
  · exact handles_ret _

theorem handles_profileUuid (profileId : ProfileName) :
    Handles (Backend.profileUuid profileId) := by
  apply handles_bind (handles_run _)
  intro result
  split
  · exact handles_ret _
  · exact handles_ret _

theorem handles_activeConnection : Handles Backend.activeConnection :=
  handles_bind (handles_run _) fun _ => handles_ret _

theorem handles_savedSsid (profile : Option Uuid) : Handles (Backend.savedSsid profile) := by
  apply handles_bind (handles_run _)
  intro result
  dsimp only
  split
  · split
    · exact handles_ret _
    · exact handles_ret _
  · exact handles_ret _

theorem handles_scan [PyUnicode] : Handles Backend.scan := by
  apply handles_bind (handles_succeeds _)
  intro enabled
  dsimp only
  split
  · exact raisesOnly_raise rfl
  apply handles_bind (handles_run _)
  intro result
  split
  · exact raisesOnly_raise rfl
  · exact handles_ret _

theorem handles_takeSavedName (profile : Uuid) : Handles (Backend.takeSavedName profile) := by
  apply handles_bind (handles_succeeds _)
  intro renamed
  split
  · exact handles_ret _
  apply handles_bind (handles_profileHasIdentity _ _)
  intro verified
  split
  · exact handles_ret _
  · exact handles_ret _

theorem handles_savedProfileForActivation : Handles Backend.savedProfileForActivation := by
  apply handles_bind (handles_profileUuid _)
  rintro ⟨lookupOk, saved⟩
  dsimp only
  split
  · exact handles_ret _
  cases saved with
  | some profile => exact handles_takeSavedName profile
  | none =>
    apply handles_bind (handles_profileUuid _)
    rintro ⟨backupOk, backup⟩
    dsimp only
    split
    · exact handles_takeSavedName _
    · exact handles_ret _

/-! ## `connect_station`

The one place that could raise something else is `run_with_secret` without a password. The
credentials were checked before. -/

theorem handles_createPendingProfile (accessPoint : AccessPoint) :
    Handles (Backend.createPendingProfile accessPoint) := by
  apply handles_bind (handles_run _)
  intro added
  split
  · exact handles_succeeds _
  · exact handles_ret _

/-- **The assertion holds**: a network that is not open has a password by now. -/
theorem handles_activatePending (pending : Uuid) {accessPoint : AccessPoint}
    {password : Option String}
    (hcredential : Backend.credentialError accessPoint.security password = none) :
    Handles (Backend.activatePending pending accessPoint password) := by
  unfold Backend.activatePending
  split
  · exact handles_bind (handles_run _) fun _ => handles_ret _
  · next hclosed =>
    cases password with
    | none =>
      cases hsecurity : accessPoint.security with
      | «open» => exact absurd hsecurity hclosed
      | _ =>
        rw [hsecurity] at hcredential
        cases hcredential
    | some secret => exact handles_bind (handles_call _) fun _ => handles_ret _

theorem handles_promotePendingProfile (pending : Uuid) (previous : Option Uuid) :
    Handles (Backend.promotePendingProfile pending previous) := by
  have hbackUp : Handles (Backend.backUpPrevious previous) := by
    cases previous with
    | none => exact handles_ret true
    | some previous =>
      apply handles_bind (handles_succeeds _)
      intro renamed
      split
      · exact handles_ret _
      · exact handles_profileHasIdentity _ _
  -- each step of the promotion reports its failure
  apply handles_bind hbackUp
  intro backedUp
  split
  · exact handles_ret _
  apply handles_bind (handles_succeeds _)
  intro renamed
  split
  · exact handles_ret _
  apply handles_bind (handles_profileHasIdentity _ _)
  intro verified
  split
  · exact handles_ret _
  cases previous with
  | none => exact handles_ret _
  | some previous => exact handles_succeeds _

theorem handles_rollbackPromotion (pending : Uuid) (previous : Option Uuid) :
    Handles (Backend.rollbackPromotion pending previous) := by
  have hdelete : Handles
      ((Backend.deleteProfileUuid pending).bind fun _ => (Prog.ret () : Backend Unit)) :=
    handles_bind (handles_succeeds _) fun _ => handles_ret _
  apply handles_bind (handles_succeeds _)
  intro _
  cases previous with
  | none => exact hdelete
  | some previous => exact handles_bind (handles_succeeds _) fun _ => hdelete

/-- With credentials that were checked there is a password for the secret command. -/
theorem handles_activateAndPromote (selectedSsid : String) (pending : Uuid)
    (previous : Option Uuid) {accessPoint : AccessPoint} {password : Option String}
    (hcredential : Backend.credentialError accessPoint.security password = none) :
    Handles (Backend.activateAndPromote selectedSsid pending previous accessPoint password) := by
  apply handles_bind (handles_activatePending pending hcredential)
  intro activated
  split
  · exact handles_bind (handles_succeeds _) fun _ => handles_ret _
  apply handles_bind (handles_promotePendingProfile pending previous)
  intro promoted
  split
  · exact handles_bind (handles_rollbackPromotion pending previous) fun _ => handles_ret _
  · exact handles_ret _

theorem handles_replaceProfile (selectedSsid : String) {accessPoint : AccessPoint}
    {password : Option String}
    (hcredential : Backend.credentialError accessPoint.security password = none) :
    Handles (Backend.replaceProfile selectedSsid accessPoint password) := by
  -- every early exit deletes the candidate and reports; neither part raises
  have hgiveUp (result : StationResult) : Handles
      ((Backend.deleteProfile PENDING_PROFILE).bind fun _ => (Prog.ret result : Backend _)) :=
    handles_bind (handles_bind (handles_run _) fun _ => handles_ret _) fun _ => handles_ret _
  apply handles_bind (handles_succeeds _)
  intro stopped
  split
  · exact handles_ret _
  apply handles_bind (handles_profileUuid _)
  rintro ⟨lookupOk, previous⟩
  dsimp only
  split
  · exact handles_ret _
  apply handles_bind (handles_bind (handles_run _) fun _ => handles_ret _)
  intro _
  apply handles_bind (handles_createPendingProfile accessPoint)
  intro created
  split
  · exact hgiveUp _
  apply handles_bind (handles_profileUuid _)
  rintro ⟨lookupOk, pending⟩
  split
  -- the candidate is known: from here on the password is one that the profile takes
  · exact handles_activateAndPromote selectedSsid _ previous hcredential
  · exact hgiveUp _

/-- What the validator raises is a `ValueError`. -/
theorem handled_of_validateSsid {ssid : String} {e : PyErr} (h : validateSsid ssid = .error e) :
    e.handled = true := by
  by_cases hsize : ssid.utf8ByteSize = 0 ∨ SSID_MAX_BYTES < ssid.utf8ByteSize
  · simp only [validateSsid, if_pos hsize] at h
    cases h
    rfl
  · simp only [validateSsid, if_neg hsize] at h
    split at h
    · cases h
      rfl
    split at h
    · cases h
      rfl
    · cases h

/-- `connect_station` checks the credentials before it uses them. -/
theorem handles_connectStation [PyUnicode] (ssid : String) (password : Option String) :
    Handles (Backend.connectStation ssid password) := by
  apply handles_bind (raisesOnly_ofExcept fun e he => handled_of_validateSsid he)
  intro selectedSsid
  apply handles_bind handles_scan
  intro networks
  split
  · exact handles_ret _
  · split
    · exact handles_ret _
    · next hcredential => exact handles_replaceProfile selectedSsid hcredential

/-! ## The backend

All methods together, and with them the refinement for this backend. -/

/-- Every method of the backend raises only what the controller handles. -/
theorem handles_method [PyUnicode] (c : BackendCall) :
    Handles (networkManagerBackend.method c) := by
  cases c with
  -- each method ends with a report wherever a command fails
  | hasSavedStation =>
    apply handles_bind (handles_profileUuid _)
    rintro ⟨lookupOk, saved⟩
    dsimp only
    split
    · exact handles_ret _
    · exact handles_bind (handles_profileUuid _) fun _ => handles_ret _
  | activateSavedStation =>
    apply handles_bind handles_savedProfileForActivation
    intro profile
    cases profile with
    | none => exact handles_ret _
    | some profile =>
      apply handles_bind (handles_succeeds _)
      intro enabled
      split
      · exact handles_ret _
      apply handles_bind (handles_succeeds _)
      intro stopped
      split
      · exact handles_ret _
      apply handles_bind (handles_run _)
      intro result
      split
      · exact handles_ret _
      · exact handles_bind (handles_savedSsid _) fun _ => handles_ret _
  -- the two with an argument to check have lemmas of their own
  | connectStation ssid password => exact handles_connectStation ssid password
  | activateProvisioning =>
    apply handles_bind (handles_succeeds _)
    intro enabled
    split
    · exact handles_ret _
    apply handles_bind (handles_run _)
    intro result
    split
    · exact handles_ret _
    apply handles_bind (handles_run _)
    intro dhcp
    split
    · exact handles_ret _
    · exact handles_ret _
  | scan => exact handles_scan
  | activeStationSsid =>
    apply handles_bind handles_activeConnection
    intro name
    split
    · exact handles_ret _
    · exact handles_savedSsid none
  | provisioningReady =>
    apply handles_bind handles_activeConnection
    intro name
    split
    · exact handles_ret _
    · exact handles_bind (handles_run _) fun _ => handles_ret _

/-- The condition of the refinement, for this backend. -/
theorem raisesHandled_networkManager [PyUnicode] :
    RaisesHandled networkManagerBackend handledAnswer := by
  intro c late e run hlate
  exact (handles_method c).of_runs run hlate

/-- **The controller may take a method of the backend for a single step.** Every run of the daemon
over `NetworkManagerBackend`, in which clients come in between any two commands, is matched by a run
over the calls: the fields, the queue, the locks and the waiting scans are the same, the worker is as
far in the same call, and a method is called when it has ended, with the outcome that it has come to.
Between two calls of the worker its commands are, one after the other, the runs of the methods that
were called. -/
theorem networkManager_refines [PyUnicode] {as : List (Action RunnerCall RunnerAnswer)}
    {d : DaemonState RunnerCall RunnerAnswer}
    (run : (daemon networkManagerBackend).Run (Discipline.answeredBy handledAnswer).ok .init as d) :
    ∃ bs e, (daemon anyBackend).Run Discipline.any.ok .init bs e ∧
      Refines networkManagerBackend handledAnswer d e ∧
      (d.worker = .idle → e.worker = .idle ∧
        CarriedOut networkManagerBackend.methods d.shared.workerCalls e.shared.workerCalls) := by
  obtain ⟨bs, e, run', h⟩ := refines_of_run raisesHandled_networkManager run
  exact ⟨bs, e, run', h, h.carriedOut⟩

theorem networkManager_refines_quietBoot : ∃ d : DaemonState RunnerCall RunnerAnswer,
    (daemon (@networkManagerBackend asciiUnicode)).Run (Discipline.answeredBy handledAnswer).ok .init
        quietBoot d ∧
      ∃ bs e, (daemon anyBackend).Run Discipline.any.ok .init bs e ∧
        Refines (@networkManagerBackend asciiUnicode) handledAnswer d e ∧
        (d.worker = .idle → e.worker = .idle ∧
          CarriedOut (@networkManagerBackend asciiUnicode).methods d.shared.workerCalls
            e.shared.workerCalls) := by
  have h : ((daemon (@networkManagerBackend asciiUnicode)).exec
      (Discipline.answeredBy handledAnswer).check quietBoot .init).isSome = true := by decide
  obtain ⟨d, hd⟩ := Option.isSome_iff_exists.mp h
  exact ⟨d, System.run_of_exec hd,
    @networkManager_refines asciiUnicode _ _ (System.run_of_exec hd)⟩

end Rave
