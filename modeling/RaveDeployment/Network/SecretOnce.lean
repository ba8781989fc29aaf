import RaveDeployment.Network.Secrets

/-!
# A password is handed over at most once

A `process_next` may spend the password of the item it has taken, once, and no other. The budget is
the state of `spending`; `wp_spending_processNext` spends no more than it has, and `secrets_sublist`
reads the result off the history of a run.
-/

namespace Rave

open Prog

def RunnerCall.secret? : RunnerCall → Option String
  | .run _ => none
  | .runWithSecret _ password => some password

def WorkItem.password? : WorkItem → Option String
  | .connect _ password => password
  | _ => none

def RunnerCall.spend : RunnerCall → Option String → Option String
  | .run _, budget => budget
  | .runWithSecret _ _, _ => none

/-- What is left after an operation of the worker. A new item comes with a new budget. -/
def budgetAfter : (o : WorkerOp RunnerCall) → WorkerAns RunnerAnswer o → Option String →
    Option String
  | .workGet, item, _ => (item : Option WorkItem).bind WorkItem.password?
  | .backend call, _, budget => call.spend budget
  | _, _, budget => budget

def Affordable : WorkerOp RunnerCall → Option String → Prop
  | .backend call, budget => ∀ password, call.secret? = some password → budget = some password
  | _, _ => True

def spendingCalls : Env RunnerCall RunnerAnswer (Option String) :=
  .sequential (fun call budget => ∀ password, call.secret? = some password → budget = some password)
    fun call budget _ budget' => budget' = call.spend budget

def spending : Env (WorkerOp RunnerCall) (WorkerAns RunnerAnswer) (Option String) :=
  .sequential Affordable fun o budget r budget' => budget' = budgetAfter o r budget

/-! ## `connect_station`

It hands over the password once, in the command that brings up the candidate. -/

section

variable {α : Type} {budget : Option String}

/-- What hands over nothing leaves the budget as it is. -/
theorem keeps_public {p : Backend α} {Q : α → Prop} (hp : Within IsPublic p Q) :
    Keeps spendingCalls (fun b => b = budget) p := by
  apply hp.keeps (stable_sequential _)
  · rintro call b ⟨c, rfl⟩ _ password hsecret
    cases hsecret
  · rintro call b r b' ⟨c, rfl⟩ hb rfl
    exact hb

/-- A call without a secret, then the rest. -/
theorem wp_public_bind {β : Type} {p : Backend α} {Q : α → Prop} {f : α → Backend β}
    {password : String} (hp : Within IsPublic p Q)
    (hf : ∀ a, (f a).wp spendingCalls (fun _ _ => True) (fun _ _ => True) (some password)) :
    (p.bind f).wp spendingCalls (fun _ _ => True) (fun _ _ => True) (some password) := by
  apply wp_bind.mpr
  apply wp_mono (keeps_public hp _ rfl)
  · rintro a b rfl
    exact hf a
  · exact fun _ _ _ => trivial

/-- A method that hands over no password needs none. -/
theorem wp_public {p : Backend α} {Q : α → Prop} (hp : Within IsPublic p Q) :
    p.wp spendingCalls (fun _ _ => True) (fun _ _ => True) budget :=
  wp_mono (keeps_public hp _ rfl) (fun _ _ _ => trivial) fun _ _ _ => trivial

theorem wp_spent_ret (a : α) :
    (Prog.ret a : Backend α).wp spendingCalls (fun _ _ => True) (fun _ _ => True) budget :=
  fun _ _ => trivial

end

section

variable (password : String)

/-- Bringing up the candidate hands over the password. -/
theorem affords_activatePending (pending : Uuid) (accessPoint : AccessPoint) :
    (Backend.activatePending pending accessPoint (some password)).wp spendingCalls
      (fun _ _ => True) (fun _ _ => True) (some password) := by
  unfold Backend.activatePending
  split
  · exact wp_public_bind (within_run isPublic_run _) fun _ => wp_spent_ret _
  · apply wp_bind.mpr
    rintro _ rfl
    -- the one call that spends the budget
    refine ⟨fun p hp => by rw [← hp]; rfl, ?_⟩
    rintro r b rfl
    cases r with
    | ok result => exact fun _ _ => wp_spent_ret _
    | error e => exact fun _ _ => trivial

theorem affords_activateAndPromote (selectedSsid : String) (pending : Uuid) (previous : Option Uuid)
    (accessPoint : AccessPoint) :
    (Backend.activateAndPromote selectedSsid pending previous accessPoint (some password)).wp
      spendingCalls (fun _ _ => True) (fun _ _ => True) (some password) := by
  apply wp_bind.mpr
  apply wp_mono (affords_activatePending password pending accessPoint)
  · intro activated budget _
    split
    · apply wp_public (Q := fun _ => True)
      exact within_bind (within_succeeds isPublic_run _) fun _ _ => within_ret trivial
    apply wp_public (Q := fun _ => True)
    apply within_bind (within_promotePendingProfile isPublic_run pending previous)
    intro promoted _
    split
    · exact within_bind (within_rollbackPromotion isPublic_run pending previous)
        fun _ _ => within_ret trivial
    · exact within_ret trivial
  · exact fun _ _ h => h

theorem affords_replaceProfile (selectedSsid : String) (accessPoint : AccessPoint) :
    (Backend.replaceProfile selectedSsid accessPoint (some password)).wp spendingCalls
      (fun _ _ => True) (fun _ _ => True) (some password) := by
  have hdelete := within_deleteProfile isPublic_run PENDING_PROFILE
  apply wp_public_bind (within_succeeds isPublic_run _)
  intro stopped
  split
  · exact wp_spent_ret _
  apply wp_public_bind (within_profileUuid isPublic_run _)
  rintro ⟨lookupOk, previous⟩
  dsimp only
  split
  · exact wp_spent_ret _
  apply wp_public_bind hdelete
  intro _
  apply wp_public_bind (within_createPendingProfile isPublic_run accessPoint)
  intro created
  split
  · exact wp_public_bind hdelete fun _ => wp_spent_ret _
  apply wp_public_bind (within_profileUuid isPublic_run _)
  rintro ⟨lookupOk, pending⟩
  split
  -- all before is public; here the secret is spent
  · exact affords_activateAndPromote password selectedSsid _ previous accessPoint
  · exact wp_public_bind hdelete fun _ => wp_spent_ret _

/-- **`connect_station` hands its password over at most once.** -/
theorem affords_connectStation [PyUnicode] (ssid : String) :
    (Backend.connectStation ssid (some password)).wp spendingCalls (fun _ _ => True)
      (fun _ _ => True) (some password) := by
  apply wp_public_bind (within_ofExcept (Q := fun _ => True) fun _ _ => trivial)
  intro selectedSsid
  apply wp_public_bind (within_scan isPublic_run)
  intro networks
  split
  · exact wp_spent_ret _
  · split
    · exact wp_spent_ret _
    · exact affords_replaceProfile password selectedSsid _

end

/-! ## The worker

Between two items there is no password to hand over; an item with one brings it along. -/

/-- A method within the worker spends what it spends. -/
theorem wp_spending_ofBackend {α : Type} {p : Backend α} {Q : α → Option String → Prop}
    {R : PyErr → Option String → Prop} {budget : Option String}
    (h : p.wp spendingCalls Q R budget) : (Worker.ofBackend p).wp spending Q R budget := by
  induction p generalizing budget with
  | ret a => exact h
  | raise e => exact h
  | op call k ih =>
    rintro _ rfl
    obtain ⟨hpre, hk⟩ := h budget rfl
    refine ⟨hpre, ?_⟩
    rintro r b rfl
    exact ih r (hk r _ rfl)

/-- The operation takes no item and hands over no password. -/
def IsQuiet (o : WorkerOp RunnerCall) : Prop :=
  o ≠ .workGet ∧ ∀ call, o = .backend call → IsPublic call

theorem isQuiet_backend {call : RunnerCall} (h : IsPublic call) :
    IsQuiet (.backend call) :=
  ⟨by simp, fun _ heq => WorkerOp.backend.inj heq ▸ h⟩

theorem workerBlocks_quiet :
    WorkerBlocks IsQuiet IsPublic (fun _ => True) (fun _ => True) where
  taskDone := ⟨by simp, by simp⟩
  acquireOperation := ⟨by simp, by simp⟩
  releaseOperation := ⟨by simp, by simp⟩
  backend _ h := isQuiet_backend h
  snapshot := ⟨by simp, by simp⟩
  apply _ _ := ⟨by simp, by simp⟩
  station _ _ := ⟨by simp, by simp⟩
  ap _ _ := ⟨by simp, by simp⟩
  failed _ _ := ⟨by simp, by simp⟩
  checkStation _ _ := ⟨by simp, by simp⟩
  checkProvisioning := ⟨by simp, by simp⟩
  recover := ⟨by simp, by simp⟩

/-- A quiet program is within any budget. -/
theorem keeps_quiet {α : Type} {p : Worker RunnerCall RunnerAnswer α} {Q : α → Prop}
    (hp : Within IsQuiet p Q) : Keeps spending (fun _ => True) p := by
  apply hp.keeps (stable_sequential _)
  · intro o budget ho _
    cases o with
    | backend call =>
      obtain ⟨c, rfl⟩ := ho.2 call rfl
      exact fun password hsecret => by cases hsecret
    | _ => trivial
  · exact fun _ _ _ _ _ _ _ => trivial

section

variable {α β : Type} {p : Worker RunnerCall RunnerAnswer α} {budget : Option String}
  (hp : p.wp spending (fun _ _ => True) (fun _ _ => True) budget)

theorem stable_spending : Stable spending fun _ => True :=
  fun _ _ _ _ => trivial

include hp

/-- A first program, then a quiet one. -/
theorem wp_then_quiet {f : α → Worker RunnerCall RunnerAnswer β}
    (hf : ∀ a, Keeps spending (fun _ => True) (f a)) :
    (p.bind f).wp spending (fun _ _ => True) (fun _ _ => True) budget := by
  apply wp_bind.mpr
  apply wp_mono hp
  · exact fun a b _ => hf a b trivial
  · exact fun _ _ h => h

/-- What is done at the end needs no password. -/
theorem wp_finallyDo_quiet {c : Worker RunnerCall RunnerAnswer Unit}
    (hc : Keeps spending (fun _ => True) c) :
    (p.finallyDo c).wp spending (fun _ _ => True) (fun _ _ => True) budget :=
  wp_then_quiet (wp_attempt.mpr hp) fun outcome =>
    keeps_bind hc fun _ => keeps_ofExcept stable_spending outcome

theorem wp_orOnFailure_quiet {h : PyErr → Worker RunnerCall RunnerAnswer α}
    (hh : ∀ e, Keeps spending (fun _ => True) (h e)) :
    (Worker.orOnFailure p h).wp spending (fun _ _ => True) (fun _ _ => True) budget := by
  apply wp_then_quiet (wp_attempt.mpr hp)
  intro outcome
  cases outcome with
  | ok a => exact keeps_ret stable_spending a
  | error e =>
    show Keeps _ _ (if e.handled then h e else .raise e)
    split
    · exact hh e
    · exact keeps_raise stable_spending e

theorem wp_withOperation_quiet :
    (Worker.withOperation p).wp spending (fun _ _ => True) (fun _ _ => True) budget := by
  have hrelease : Keeps spending (fun _ => True)
      (.op .releaseOperation .ret : Worker RunnerCall RunnerAnswer Unit) :=
    keeps_quiet (within_op (Q := fun _ => True) ⟨by simp, by simp⟩ fun _ => within_ret trivial)
  rintro _ rfl
  refine ⟨trivial, ?_⟩
  rintro r _ rfl
  exact wp_finallyDo_quiet hp hrelease

end

/-! ## An attempt without a password

The backend in which `connect_station` is called without one, and what the worker does over it. Only
`processConnect` calls that method. -/

section

variable {B : Type} {Ans : B → Type} (backend : NetworkBackend B Ans)
  (connectStation : String → Option String → Prog PyErr B Ans StationResult)

namespace Worker

theorem restoreProvisioning_withConnect (priorError : Option String) :
    restoreProvisioning { backend with connectStation := connectStation } priorError =
      restoreProvisioning backend priorError := rfl

theorem processBoot_withConnect :
    processBoot { backend with connectStation := connectStation } = processBoot backend := rfl

theorem settleAttempt_withConnect (result : StationResult) (fallback : String) :
    settleAttempt { backend with connectStation := connectStation } result fallback =
      settleAttempt backend result fallback := rfl

theorem recoverUnexpectedFailure_withConnect :
    recoverUnexpectedFailure { backend with connectStation := connectStation } =
      recoverUnexpectedFailure backend := rfl

theorem reconcile_withConnect :
    reconcile { backend with connectStation := connectStation } = reconcile backend := rfl

/-- Where the two methods agree, so do the attempts. -/
theorem processConnect_withConnect {ssid : String} {password : Option String}
    (h : connectStation ssid password = backend.connectStation ssid password) :
    processConnect { backend with connectStation := connectStation } ssid password =
      processConnect backend ssid password := by
  unfold processConnect
  dsimp only
  rw [h]
  rfl

end Worker

end

section

variable [PyUnicode]

def publicBackend : NetworkBackend RunnerCall RunnerAnswer :=
  { networkManagerBackend with connectStation := fun ssid _ => Backend.connectStation ssid none }

/-- The methods that are called without a password hand over none. -/
theorem backendTexts_public :
    BackendTexts publicBackend IsPublic (fun _ => True) (fun _ => True) where
  hasSavedStation := within_hasSavedStation isPublic_run
  activateSavedStation := (within_activateSavedStation isPublic_run).mono
    fun _ _ => ⟨fun _ _ => trivial, fun _ _ => trivial⟩
  connectStation ssid _ := (within_connectStation isPublic_run (by simp) ssid).mono
    fun _ _ => ⟨fun _ _ => trivial, fun _ _ => trivial⟩
  activateProvisioning := (within_activateProvisioning isPublic_run).mono
    fun _ _ _ _ => trivial
  activeStationSsid := (within_activeStationSsid isPublic_run).mono fun _ _ _ _ => trivial
  provisioningReady := within_provisioningReady isPublic_run
  own _ _ := trivial

/-- What the worker does beside the attempt itself it does over either backend. -/
theorem settleAttempt_public (result : StationResult) (fallback : String) :
    Worker.settleAttempt publicBackend result fallback =
      Worker.settleAttempt networkManagerBackend result fallback :=
  Worker.settleAttempt_withConnect _ _ result fallback

theorem recoverUnexpectedFailure_public :
    Worker.recoverUnexpectedFailure publicBackend =
      Worker.recoverUnexpectedFailure networkManagerBackend :=
  Worker.recoverUnexpectedFailure_withConnect _ _

/-- Where no password is handed over, the worker does the same over either backend. -/
theorem processItem_public {item : WorkItem} (h : item.password? = none) :
    Worker.processItem publicBackend item = Worker.processItem networkManagerBackend item := by
  cases item with
  | boot => exact Worker.processBoot_withConnect _ _
  | provisioning => exact Worker.restoreProvisioning_withConnect _ _ none
  | connect ssid password =>
    cases password with
    | none => exact Worker.processConnect_withConnect _ _ rfl
    | some password => cases h

/-- **An item spends no more than its own password.** -/
theorem affords_processTaken (item : WorkItem) :
    (processTaken item).wp spending (fun _ _ => True) (fun _ _ => True) item.password? := by
  -- a run that hands out no secret is within any allowance
  have hquiet : ∀ {item : WorkItem} (budget : Option String), item.password? = none →
      (processTaken item).wp spending (fun _ _ => True) (fun _ _ => True) budget := by
    intro item budget hnone
    have hpublic := backendTexts_public.processTaken workerBlocks_quiet item
    rw [processItem_public hnone, recoverUnexpectedFailure_public] at hpublic
    exact keeps_quiet hpublic budget trivial
  cases item with
  | boot => exact hquiet _ rfl
  | provisioning => exact hquiet _ rfl
  | connect ssid password =>
    cases password with
    | none => exact hquiet _ rfl
    | some password =>
      -- the one part that spends the secret; all that follows it is quiet
      have hconnect : (Worker.processConnect networkManagerBackend ssid (some password)).wp spending
          (fun _ _ => True) (fun _ _ => True) (some password) := by
        apply wp_then_quiet (wp_spending_ofBackend (affords_connectStation password ssid))
        intro result
        rw [← settleAttempt_public]
        exact keeps_quiet (backendTexts_public.settleAttempt workerBlocks_quiet
          ⟨fun _ _ => trivial, fun _ _ => trivial⟩ trivial)
      have hrecover : Keeps spending (fun _ => True)
          (Worker.recoverUnexpectedFailure networkManagerBackend) := by
        rw [← recoverUnexpectedFailure_public]
        exact keeps_quiet (backendTexts_public.recoverUnexpectedFailure workerBlocks_quiet)
      have hguarded := wp_orOnFailure_quiet (wp_withOperation_quiet hconnect) fun e =>
        keeps_bind hrecover fun _ => keeps_raise stable_spending e
      have hdone : Keeps spending (fun _ => True)
          (.op .taskDone .ret : Worker RunnerCall RunnerAnswer Unit) :=
        keeps_quiet (within_op (Q := fun _ => True) ⟨by simp, by simp⟩ fun _ => within_ret trivial)
      exact wp_finallyDo_quiet hguarded hdone

/-- `process_next` hands over the password of its item, once. -/
theorem wp_spending_processNext (budget : Option String) :
    (Worker.processNext networkManagerBackend).wp spending (fun _ _ => True) (fun _ _ => True)
      budget := by
  rintro _ rfl
  refine ⟨trivial, ?_⟩
  rintro item _ rfl
  cases item with
  | none => exact fun _ _ => trivial
  | some item =>
    exact wp_then_quiet (affords_processTaken item) fun _ => keeps_ret stable_spending true

theorem wp_spending_reconcile (budget : Option String) :
    (Worker.reconcile networkManagerBackend).wp spending (fun _ _ => True) (fun _ _ => True)
      budget := by
  have hpublic := backendTexts_public.reconcile workerBlocks_quiet
  rw [publicBackend, Worker.reconcile_withConnect] at hpublic
  exact keeps_quiet hpublic budget trivial

end

/-! ## Runs

The passwords handed over, among those that were taken, over every run. -/

def secretsOf (calls : List (Thread × BackendEvent RunnerCall RunnerAnswer)) : List String :=
  calls.filterMap fun c => c.2.1.secret?

def passwordsOf (taken : List WorkItem) : List String :=
  taken.filterMap WorkItem.password?

/-- What the worker has left to do is within the budget. -/
def WithinBudget (budget : Option String) : WorkerState RunnerCall RunnerAnswer → Prop
  | .idle => True
  | .processing _ rest => rest.wp spending (fun _ _ => True) (fun _ _ => True) budget
  | .reconciling rest => rest.wp spending (fun _ _ => True) (fun _ _ => True) budget

/-- The passwords handed over so far and the one that may still be are among those taken, in order. -/
structure SpentOnce (d : DaemonState RunnerCall RunnerAnswer) : Prop where
  worker : ∃ budget, WithinBudget budget d.worker ∧
    (secretsOf d.shared.history.calls ++ budget.toList).Sublist (passwordsOf d.shared.history.taken)
  scan : ScanWithin IsPublic (fun _ => True) d.shared

variable {s t : Shared RunnerCall RunnerAnswer}

theorem secretsOf_append (calls calls' : List (Thread × BackendEvent RunnerCall RunnerAnswer)) :
    secretsOf (calls ++ calls') = secretsOf calls ++ secretsOf calls' :=
  List.filterMap_append

theorem passwordsOf_append (taken taken' : List WorkItem) :
    passwordsOf (taken ++ taken') = passwordsOf taken ++ passwordsOf taken' :=
  List.filterMap_append

/-- A client hands over no password: all it runs is a scan. -/
theorem secrets_clientStep [PyUnicode] {a : ClientAction RunnerCall RunnerAnswer} {reply : Reply}
    (h : ScanWithin IsPublic (fun _ => True) s)
    (hs : clientStep networkManagerBackend a s = some (reply, t)) :
    secretsOf t.history.calls = secretsOf s.history.calls ∧ t.history.taken = s.history.taken := by
  cases a with
  | request r =>
    simp only [clientStep] at hs
    split at hs
    · cases hs
    · rcases request_cases (Option.some.inj hs) with ⟨rfl, -⟩ | ⟨-, next, work, -, -, rfl⟩
      · exact ⟨rfl, rfl⟩
      · exact ⟨rfl, rfl⟩
  | finishRequest =>
    simp only [clientStep] at hs
    split at hs <;> cases hs
    exact ⟨rfl, rfl⟩
  | scanCheck =>
    simp only [clientStep] at hs
    split at hs
    · cases hs
    · split at hs <;> cases hs <;> exact ⟨rfl, rfl⟩
  | scanEnter =>
    simp only [clientStep] at hs
    split at hs <;> cases hs
    exact ⟨rfl, rfl⟩
  | scanStep answers =>
    simp only [clientStep] at hs
    split at hs
    · next b k hop =>
      cases hs
      -- what a scan runs is a command without a secret
      obtain ⟨c, rfl⟩ := (h _ hop () trivial).1
      refine ⟨?_, rfl⟩
      show secretsOf (s.history.calls ++ [(.client, ⟨.run c, answers (.run c)⟩)]) = _
      rw [secretsOf_append]
      exact List.append_nil _
    · cases hs
  | scanLeave =>
    simp only [clientStep] at hs
    split at hs <;> cases hs <;> exact ⟨rfl, rfl⟩

/-- An operation of the worker, paid from the budget. -/
theorem secrets_workerExec {answers : (call : RunnerCall) → RunnerAnswer call}
    {o : WorkerOp RunnerCall} {r : WorkerAns RunnerAnswer o} {budget : Option String}
    (ho : Affordable o budget)
    (h : (secretsOf s.history.calls ++ budget.toList).Sublist (passwordsOf s.history.taken))
    (hx : workerExec answers o s = some (r, t)) :
    (secretsOf t.history.calls ++ (budgetAfter o r budget).toList).Sublist
      (passwordsOf t.history.taken) := by
  have hspent : (secretsOf s.history.calls).Sublist (passwordsOf s.history.taken) :=
    (List.sublist_append_left _ _).trans h
  cases o with
  | workGet =>
    simp only [workerExec] at hx
    split at hx
    · cases hx
      exact (List.append_nil _).symm ▸ hspent
    · next item rest hget =>
      cases hx
      -- the item brings its password along
      show (secretsOf s.history.calls ++ item.password?.toList).Sublist
        (passwordsOf (s.history.taken ++ [item]))
      have hitem : passwordsOf [item] = item.password?.toList := by
        cases hp : item.password? <;> simp [passwordsOf, hp]
      rw [passwordsOf_append, hitem]
      exact hspent.append (List.Sublist.refl _)
  | backend call =>
    cases hx
    show (secretsOf (s.history.calls ++ [(.worker, ⟨call, answers call⟩)]) ++
      (call.spend budget).toList).Sublist (passwordsOf s.history.taken)
    rw [secretsOf_append]
    cases call with
    | run c =>
      have hnone : secretsOf [(Thread.worker, (⟨.run c, answers (.run c)⟩ :
          BackendEvent RunnerCall RunnerAnswer))] = [] := rfl
      rw [hnone, List.append_nil]
      exact h
    | runWithSecret c password =>
      have hbudget : budget = some password := ho password rfl
      have hone : secretsOf [(Thread.worker, (⟨.runWithSecret c password,
          answers (.runWithSecret c password)⟩ : BackendEvent RunnerCall RunnerAnswer))] =
            [password] := rfl
      rw [hbudget] at h
      rw [hone]
      show (secretsOf s.history.calls ++ [password] ++ []).Sublist _
      rw [List.append_nil]
      exact h
  | taskDone => cases hx; exact h
  | acquireOperation =>
    simp only [workerExec] at hx
    split at hx <;> cases hx
    exact h
  | releaseOperation => cases hx; exact h
  | locked body =>
    simp only [workerExec] at hx
    split at hx <;> cases hx
    exact h

/-- A step of the program the worker is running. -/
theorem spentOnce_workStep {α : Type} {answers : (call : RunnerCall) → RunnerAnswer call}
    {rest rest' : Worker RunnerCall RunnerAnswer α} {budget : Option String}
    (hrest : rest.wp spending (fun _ _ => True) (fun _ _ => True) budget)
    (h : (secretsOf s.history.calls ++ budget.toList).Sublist (passwordsOf s.history.taken))
    (hs : workStep answers rest s = some (rest', t)) :
    ∃ budget', rest'.wp spending (fun _ _ => True) (fun _ _ => True) budget' ∧
      (secretsOf t.history.calls ++ budget'.toList).Sublist (passwordsOf t.history.taken) := by
  obtain ⟨o, k, r, rfl, rfl, hx⟩ := workStep_eq_some hs
  obtain ⟨ho, hk⟩ := hrest budget rfl
  exact ⟨_, hk r _ rfl, secrets_workerExec ho h hx⟩

/-- **One step hands over no more than the passwords taken.** -/
theorem spentOnce_step [PyUnicode] {a : Action RunnerCall RunnerAnswer}
    {d d' : DaemonState RunnerCall RunnerAnswer} (h : SpentOnce d)
    (hs : daemonStep networkManagerBackend a d = some d') : SpentOnce d' := by
  have hscan : ScanWithin IsPublic (fun _ => True) d'.shared :=
    scanWithin_step ((within_scan isPublic_run).mono fun _ _ => trivial) h.scan hs
  obtain ⟨s, worker⟩ := d
  obtain ⟨⟨budget, hbudget, hsub⟩, hs0⟩ := h
  refine ⟨?_, hscan⟩
  -- between two calls the budget is empty, and what was handed over stays accounted for
  have hspent : (secretsOf s.history.calls ++ (none : Option String).toList).Sublist
      (passwordsOf s.history.taken) :=
    (List.append_nil _).symm ▸ (List.sublist_append_left _ _).trans hsub
  cases a with
  | client a =>
    obtain ⟨⟨reply, t⟩, hc, rfl⟩ := Option.map_eq_some_iff.mp hs
    obtain ⟨hcalls, htaken⟩ := secrets_clientStep hs0 hc
    refine ⟨budget, hbudget, ?_⟩
    show (secretsOf t.history.calls ++ _).Sublist (passwordsOf t.history.taken)
    rw [hcalls, htaken]
    exact hsub
  | begin call =>
    cases worker with
    | idle =>
      cases call with
      | processNext => cases hs; exact ⟨none, wp_spending_processNext none, hspent⟩
      | reconcile => cases hs; exact ⟨none, wp_spending_reconcile none, hspent⟩
    | processing start rest => cases call <;> cases hs
    | reconciling rest => cases call <;> cases hs
  | work answers =>
    cases worker with
    | idle => cases hs
    | processing start rest =>
      obtain ⟨⟨rest', t⟩, hw, rfl⟩ := Option.map_eq_some_iff.mp hs
      exact spentOnce_workStep hbudget hsub hw
    | reconciling rest =>
      obtain ⟨⟨rest', t⟩, hw, rfl⟩ := Option.map_eq_some_iff.mp hs
      exact spentOnce_workStep hbudget hsub hw
  | finishCall =>
    cases worker with
    | idle => cases hs
    | processing start rest => cases rest <;> cases hs <;> exact ⟨none, trivial, hspent⟩
    | reconciling rest => cases rest <;> cases hs <;> exact ⟨none, trivial, hspent⟩
  | restart =>
    cases hs
    exact ⟨none, trivial, List.Sublist.refl _⟩

end Rave
