import RaveDeployment.Lib.Lockstep
import RaveDeployment.Network.Consistent
import RaveDeployment.Network.Methods

/-!
# Two passwords in lockstep

Two requests, items or runner calls are alike when they differ at most in a password, and both
passwords pass `validate_password`. This module carries that relation through the backend's
`connect_station` and the worker's `process_next`: whatever the commands answer, as long as they
answer both programs the same, the two programs issue calls that are alike and end the same way.
-/

namespace Rave

open Prog

/-- `validate_password` accepts it. -/
def PasswordAccepted (password : String) : Prop :=
  validatePassword password = .ok password

/-- Calls of the runner that differ at most in the password. -/
inductive CallAlike : RunnerCall → RunnerCall → Prop where
  | same (call : RunnerCall) : CallAlike call call
  | secret (c : Command) {p p' : String} (hp : PasswordAccepted p) (hp' : PasswordAccepted p') :
      CallAlike (.runWithSecret c p) (.runWithSecret c p')

/-- The same item, with another password. -/
inductive ItemAlike : WorkItem → WorkItem → Prop where
  | same (item : WorkItem) : ItemAlike item item
  | connect (ssid : String) {p p' : String} (hp : PasswordAccepted p) (hp' : PasswordAccepted p') :
      ItemAlike (.connect ssid (some p)) (.connect ssid (some p'))

/-- Calls that are alike, answered the same. -/
inductive CallPairing : Pairing RunnerCall RunnerAnswer where
  | intro {b b' : RunnerCall} (h : CallAlike b b') : CallPairing b b' fun r r' => r = r'

/-- The operations of the worker: an item taken from the queue may be alike instead of equal. -/
inductive WorkerPairing : Pairing (WorkerOp RunnerCall) (WorkerAns RunnerAnswer) where
  | get : WorkerPairing .workGet .workGet (Option.Rel ItemAlike)
  | same (o : WorkerOp RunnerCall) (ho : o ≠ .workGet) : WorkerPairing o o Eq
  | call {b b' : RunnerCall} (h : CallAlike b b') :
      WorkerPairing (.backend b) (.backend b') fun r r' => r = r'

/-! ## `connect_station`

Two runs of the method on two passwords issue the same commands, in step. -/

def IsPublic (call : RunnerCall) : Prop :=
  ∃ c, call = .run c

theorem isPublic_run (c : Command) : IsPublic (.run c) := ⟨c, rfl⟩

section

variable {α : Type} {Q : α → Prop}

/-- A method that issues public commands runs in step with itself. -/
theorem lockstep_public {p : Backend α} (hp : Within IsPublic p Q) : Lockstep CallPairing p p := by
  apply lockstep_of_within _ hp
  intro call _
  exact .intro (.same call)

variable {p p' : String} (hp : PasswordAccepted p) (hp' : PasswordAccepted p')
include hp hp'

/-- An accepted password is judged like any other. -/
theorem credentialError_alike (security : WifiSecurity) :
    Backend.credentialError security (some p) = Backend.credentialError security (some p') := by
  have hp : validatePassword p = .ok p := hp
  have hp' : validatePassword p' = .ok p' := hp'
  cases security with
  | wpaPersonal => simp [Backend.credentialError, hp, hp']
  | _ => rfl

/-- Two runs of `_activate_pending` on two passwords. -/
theorem lockstep_activatePending (pending : Uuid) (accessPoint : AccessPoint) :
    Lockstep CallPairing (Backend.activatePending pending accessPoint (some p))
      (Backend.activatePending pending accessPoint (some p')) := by
  unfold Backend.activatePending
  split
  · exact lockstep_bind (lockstep_public (within_run isPublic_run _)) fun _ => .ret _
  · have hcall : Lockstep CallPairing (Backend.runWithSecret (.upUuid pending) p)
        (Backend.runWithSecret (.upUuid pending) p') := by
      apply Lockstep.op (.intro (.secret _ hp hp'))
      rintro r r' rfl
      exact lockstep_ofExcept r
    exact lockstep_bind hcall fun _ => .ret _

theorem lockstep_activateAndPromote (selectedSsid : String) (pending : Uuid)
    (previous : Option Uuid) (accessPoint : AccessPoint) :
    Lockstep CallPairing
      (Backend.activateAndPromote selectedSsid pending previous accessPoint (some p))
      (Backend.activateAndPromote selectedSsid pending previous accessPoint (some p')) := by
  apply lockstep_bind (lockstep_activatePending hp hp' pending accessPoint)
  intro activated
  split
  · exact lockstep_bind (lockstep_public (within_succeeds isPublic_run _)) fun _ => .ret _
  apply lockstep_bind (lockstep_public (within_promotePendingProfile isPublic_run pending previous))
  intro promoted
  split
  · apply lockstep_bind (lockstep_public (within_rollbackPromotion isPublic_run pending previous))
    exact fun _ => .ret _
  · exact .ret _

theorem lockstep_replaceProfile (selectedSsid : String) (accessPoint : AccessPoint) :
    Lockstep CallPairing (Backend.replaceProfile selectedSsid accessPoint (some p))
      (Backend.replaceProfile selectedSsid accessPoint (some p')) := by
  have hdelete : Lockstep CallPairing (Backend.deleteProfile PENDING_PROFILE)
      (Backend.deleteProfile PENDING_PROFILE) :=
    lockstep_public (within_deleteProfile isPublic_run _)
  apply lockstep_bind (lockstep_public (within_succeeds isPublic_run _))
  intro stopped
  split
  · exact .ret _
  apply lockstep_bind (lockstep_public (within_profileUuid isPublic_run _))
  rintro ⟨lookupOk, previous⟩
  dsimp only
  split
  · exact .ret _
  apply lockstep_bind hdelete
  intro _
  apply lockstep_bind (lockstep_public (within_createPendingProfile isPublic_run accessPoint))
  intro created
  split
  · exact lockstep_bind hdelete fun _ => .ret _
  apply lockstep_bind (lockstep_public (within_profileUuid isPublic_run _))
  rintro ⟨lookupOk, pending⟩
  split
  -- the one part in which the passwords occur
  · exact lockstep_activateAndPromote hp hp' selectedSsid _ previous accessPoint
  · exact lockstep_bind hdelete fun _ => .ret _

/-- **`connect_station` keeps step with itself under another password.** -/
theorem lockstep_connectStation [PyUnicode] (ssid : String) :
    Lockstep CallPairing (Backend.connectStation ssid (some p))
      (Backend.connectStation ssid (some p')) := by
  apply lockstep_bind (lockstep_ofExcept (validateSsid ssid))
  intro selectedSsid
  apply lockstep_bind (lockstep_public (within_scan isPublic_run))
  intro networks
  split
  · exact .ret _
  · next accessPoint _ =>
    rw [credentialError_alike hp hp']
    split
    · exact .ret _
    · exact lockstep_replaceProfile hp hp' selectedSsid accessPoint

end

/-! ## The worker

The same for the worker's programs, on items that differ in their passwords. -/

section

variable {α : Type} {Q : α → Prop}

theorem lockstep_ofBackend {p p' : Backend α} (h : Lockstep CallPairing p p') :
    Lockstep WorkerPairing (Worker.ofBackend p) (Worker.ofBackend p') := by
  induction h with
  | ret a => exact .ret a
  | raise e => exact .raise e
  | op ho _ ih =>
    cases ho with
    | intro h => exact .op (.call h) fun r r' hr => ih r r' hr

/-- A program that takes nothing from the queue keeps step with itself. -/
theorem lockstep_getless {p : Worker RunnerCall RunnerAnswer α}
    (hp : Within (fun o => o ≠ .workGet) p Q) : Lockstep WorkerPairing p p :=
  lockstep_of_within (fun o ho => .same o ho) hp

theorem lockstep_orOnFailure {p p' : Worker RunnerCall RunnerAnswer α}
    {h h' : PyErr → Worker RunnerCall RunnerAnswer α} (hp : Lockstep WorkerPairing p p')
    (hh : ∀ e, Lockstep WorkerPairing (h e) (h' e)) :
    Lockstep WorkerPairing (Worker.orOnFailure p h) (Worker.orOnFailure p' h') := by
  apply lockstep_handle hp
  intro e
  cases e.handled with
  | true => exact hh e
  | false => exact .raise e

/-- Programs under the operation lock. -/
theorem lockstep_withOperation {p p' : Worker RunnerCall RunnerAnswer α}
    (hp : Lockstep WorkerPairing p p') :
    Lockstep WorkerPairing (Worker.withOperation p) (Worker.withOperation p') := by
  apply Lockstep.op (.same .acquireOperation (by simp))
  rintro r r' rfl
  apply lockstep_finallyDo hp
  apply Lockstep.op (.same .releaseOperation (by simp))
  rintro r r' rfl
  exact .ret r

end

/-- Nothing but `process_next` itself takes an item. -/
theorem workerBlocks_getless : WorkerBlocks (B := RunnerCall) (fun o => o ≠ .workGet)
    (fun _ => True) (fun _ => True) (fun _ => True) where
  taskDone := by simp
  acquireOperation := by simp
  releaseOperation := by simp
  backend _ _ := by simp
  snapshot := by simp
  apply _ _ := by simp
  station _ _ := by simp
  ap _ _ := by simp
  failed _ _ := by simp
  checkStation _ _ := by simp
  checkProvisioning := by simp
  recover := by simp

section

variable [PyUnicode]

/-- What `process_next` does with an item it has taken. -/
def processTaken (item : WorkItem) : Worker RunnerCall RunnerAnswer Unit :=
  Prog.finallyDo
    (Worker.orOnFailure
      (Worker.withOperation (Worker.processItem networkManagerBackend item)) fun e =>
        (Worker.recoverUnexpectedFailure networkManagerBackend).bind fun _ => .raise e)
    (.op .taskDone .ret)

theorem backendTexts_free :
    BackendTexts networkManagerBackend (fun _ => True) (fun _ => True) (fun _ => True) :=
  backendTexts_any networkManagerBackend

/-- Items that differ in their passwords are processed in step. -/
theorem lockstep_processTaken {item item' : WorkItem} (h : ItemAlike item item') :
    Lockstep WorkerPairing (processTaken item) (processTaken item') := by
  cases h with
  | same =>
    exact lockstep_getless (backendTexts_free.processTaken workerBlocks_getless item)
  | @connect ssid p p' hp hp' =>
    have hrecover : Lockstep WorkerPairing
        (Worker.recoverUnexpectedFailure networkManagerBackend)
        (Worker.recoverUnexpectedFailure networkManagerBackend) :=
      lockstep_getless (backendTexts_free.recoverUnexpectedFailure workerBlocks_getless)
    -- the connection runs in lockstep, and what follows it is free of the password
    have hconnect : Lockstep WorkerPairing
        (Worker.processConnect networkManagerBackend ssid (some p))
        (Worker.processConnect networkManagerBackend ssid (some p')) := by
      apply lockstep_bind (lockstep_ofBackend (lockstep_connectStation hp hp' ssid))
      intro result
      exact lockstep_getless (backendTexts_free.settleAttempt workerBlocks_getless
        ⟨fun _ _ => trivial, fun _ _ => trivial⟩ trivial)
    apply lockstep_finallyDo
    · apply lockstep_orOnFailure (lockstep_withOperation hconnect)
      exact fun e => lockstep_bind hrecover fun _ => .raise e
    · apply Lockstep.op (.same .taskDone (by simp))
      rintro r r' rfl
      exact .ret r

/-- **`process_next` keeps step with itself**, also where the items it takes differ in a password. -/
theorem lockstep_processNext : Lockstep WorkerPairing (Worker.processNext networkManagerBackend)
    (Worker.processNext networkManagerBackend) := by
  apply Lockstep.op .get
  intro r r' hr
  cases hr with
  | none => exact .ret false
  | some h => exact lockstep_bind (lockstep_processTaken h) fun _ => .ret true

theorem lockstep_reconcile : Lockstep WorkerPairing (Worker.reconcile networkManagerBackend)
    (Worker.reconcile networkManagerBackend) :=
  lockstep_getless (backendTexts_free.reconcile workerBlocks_getless)

end

end Rave
