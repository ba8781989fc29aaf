import RaveDeployment.Network.Backend
import RaveDeployment.Network.Logged

/-!
# DHCP ownership

The daemon over `NetworkManagerBackend`, command by command, whatever the commands answer.

* `dhcpRule` is what the worker's own commands obey: a station profile is brought up only while
  DHCP is known to be stopped, and DHCP is started only by the command after the one that brought
  the AP up.
* `Permitted` says the same of the log of all threads. `permitted_of_run` derives it from the
  worker's obedience and from the fact that clients only scan.
-/

namespace Rave

open Prog

abbrev RunnerEvent : Type := BackendEvent RunnerCall RunnerAnswer

def networkManagerBackend [PyUnicode] : NetworkBackend RunnerCall RunnerAnswer where
  hasSavedStation := Backend.hasSavedStation
  activateSavedStation := Backend.activateSavedStation
  connectStation := Backend.connectStation
  activateProvisioning := Backend.activateProvisioning
  scan := Backend.scan
  activeStationSsid := Backend.activeStationSsid
  provisioningReady := Backend.provisioningReady

/-! ## The rule

Which commands may be issued after which log. The DHCP service is started only right after the
access point was brought up, and a station is brought up only while the service is stopped. -/

def Command.isSwitch : Command → Bool
  | .dhcp .start => true
  | .dhcp .stop => true
  | _ => false

/-- An activation of a profile on `wlan0`. -/
def Command.isUp : Command → Bool
  | .upUuid _ => true
  | .upProvisioning => true
  | _ => false

def Command.isScan : Command → Bool
  | .radioWifiOn => true
  | .wifiList => true
  | _ => false

/-- The command was run to its end and returned 0. -/
def RunnerEvent.returnedZero : RunnerEvent → Bool
  | ⟨_, .ok result⟩ => result.returncode == 0
  | ⟨_, .error _⟩ => false

def lastSwitch (log : List RunnerEvent) : Option RunnerEvent :=
  (log.filter fun e => e.1.command.isSwitch).getLast?

def lastUp (log : List RunnerEvent) : Option RunnerEvent :=
  (log.filter fun e => e.1.command.isUp).getLast?

/-- The last start or stop of the DHCP service was a stop that returned 0. -/
def Stopped (log : List RunnerEvent) : Prop :=
  ∃ e : RunnerEvent, lastSwitch log = some e ∧ e.1.command = .dhcp .stop ∧
    RunnerEvent.returnedZero e = true

/-- The entry is an activation of the provisioning profile that returned 0. -/
def BroughtUp (e : RunnerEvent) : Prop :=
  e.1.command = .upProvisioning ∧ RunnerEvent.returnedZero e = true

def dhcpRule (log : List RunnerEvent) (call : RunnerCall) : Prop :=
  match call.command with
  | .upUuid _ => Stopped log
  | .dhcp .start => ∃ e, log.getLast? = some e ∧ BroughtUp e
  | _ => True

/-- What is demanded of an entry by the entries of all threads before it. -/
def Permitted (before : List (Thread × RunnerEvent)) (c : Thread × RunnerEvent) : Prop :=
  match c.2.1.command with
  | .upUuid _ => Stopped (before.map Prod.snd)
  | .dhcp .start => ∃ e, (workerOf before).getLast? = some e ∧
      lastUp (before.map Prod.snd) = some e ∧ BroughtUp e
  | _ => True

/-- Other commands leave the service stopped. -/
theorem stopped_concat {log : List RunnerEvent} {e : RunnerEvent}
    (he : e.1.command.isSwitch = false) (h : Stopped log) : Stopped (log ++ [e]) := by
  unfold Stopped lastSwitch at h ⊢
  rwa [List.filter_append, List.filter_cons_of_neg (by simp [he]), List.filter_nil,
    List.append_nil]

/-! ## Methods that leave DHCP and the activations alone

Most of the backend only reads, or changes profiles. Their commands are allowed after any log and do
not change what the rule looks at. -/

/-- Neither an activation of a station nor a switch of DHCP. -/
def Command.isHarmless (c : Command) : Bool :=
  !c.isSwitch && !c.isUp

section

variable {P : List RunnerEvent → Prop}
  (hP : ∀ (log : List RunnerEvent) (e : RunnerEvent), e.1.command.isSwitch = false → P log →
    P (log ++ [e]))
include hP

/-- A harmless command keeps every assertion about the log. -/
theorem keeps_run (c : Command) (hc : c.isHarmless = true) :
    Keeps (logged dhcpRule) P (Backend.run c) := by
  simp only [Command.isHarmless, Bool.and_eq_true, Bool.not_eq_true'] at hc
  refine keeps_op (stable_sequential P) ?_ ?_ fun r => keeps_ofExcept (stable_sequential P) r
  · intro log _
    cases c with
    | upUuid profile => cases hc.2
    | dhcp action =>
      cases action with
      | start => cases hc.1
      | _ => trivial
    | _ => trivial
  · rintro log r _ hlog rfl
    exact hP log _ hc.1 hlog

theorem keeps_succeeds (c : Command) (hc : c.isHarmless = true) :
    Keeps (logged dhcpRule) P (Backend.succeeds c) :=
  keeps_bind (keeps_run hP c hc) fun _ => keeps_ret (stable_sequential P) _

theorem keeps_profileProperty (profile : Uuid) (property : ProfileProperty) :
    Keeps (logged dhcpRule) P (Backend.profileProperty profile property) :=
  keeps_bind (keeps_run hP _ rfl) fun _ => keeps_ret (stable_sequential P) _

theorem keeps_profileHasIdentity (profile : Uuid) (profileId : ProfileName) :
    Keeps (logged dhcpRule) P (Backend.profileHasIdentity profile profileId) := by
  refine keeps_bind (keeps_profileProperty hP _ _) fun id => ?_
  split
  · exact keeps_bind (keeps_profileProperty hP _ _) fun _ => keeps_ret (stable_sequential P) _
  · exact keeps_ret (stable_sequential P) _

theorem keeps_profileUuid (profileId : ProfileName) :
    Keeps (logged dhcpRule) P (Backend.profileUuid profileId) := by
  refine keeps_bind (keeps_run hP _ rfl) fun result => ?_
  split
  · exact keeps_ret (stable_sequential P) _
  · exact keeps_ret (stable_sequential P) _

theorem keeps_savedSsid (profile : Option Uuid) :
    Keeps (logged dhcpRule) P (Backend.savedSsid profile) := by
  refine keeps_bind (keeps_run hP _ rfl) fun result => ?_
  dsimp only
  split
  · split
    · exact keeps_ret (stable_sequential P) _
    · exact keeps_ret (stable_sequential P) _
  · exact keeps_ret (stable_sequential P) _

theorem keeps_activeConnection : Keeps (logged dhcpRule) P Backend.activeConnection :=
  keeps_bind (keeps_run hP _ rfl) fun _ => keeps_ret (stable_sequential P) _

theorem keeps_deleteProfile (profileId : ProfileName) :
    Keeps (logged dhcpRule) P (Backend.deleteProfile profileId) :=
  keeps_bind (keeps_run hP _ rfl) fun _ => keeps_ret (stable_sequential P) _

theorem keeps_createPendingProfile (accessPoint : AccessPoint) :
    Keeps (logged dhcpRule) P (Backend.createPendingProfile accessPoint) := by
  refine keeps_bind (keeps_run hP _ rfl) fun added => ?_
  split
  · exact keeps_succeeds hP _ rfl
  · exact keeps_ret (stable_sequential P) _

theorem keeps_backUpPrevious (previous : Option Uuid) :
    Keeps (logged dhcpRule) P (Backend.backUpPrevious previous) := by
  cases previous with
  | none => exact keeps_ret (stable_sequential P) _
  | some previous =>
    refine keeps_bind (keeps_succeeds hP _ rfl) fun ok => ?_
    split
    · exact keeps_ret (stable_sequential P) _
    · exact keeps_profileHasIdentity hP _ _

theorem keeps_promotePendingProfile (pending : Uuid) (previous : Option Uuid) :
    Keeps (logged dhcpRule) P (Backend.promotePendingProfile pending previous) := by
  refine keeps_bind (keeps_backUpPrevious hP previous) fun ok => ?_
  split
  · exact keeps_ret (stable_sequential P) _
  refine keeps_bind (keeps_succeeds hP _ rfl) fun ok => ?_
  split
  · exact keeps_ret (stable_sequential P) _
  refine keeps_bind (keeps_profileHasIdentity hP _ _) fun ok => ?_
  split
  · exact keeps_ret (stable_sequential P) _
  cases previous with
  | none => exact keeps_ret (stable_sequential P) _
  | some previous => exact keeps_succeeds hP _ rfl

theorem keeps_rollbackPromotion (pending : Uuid) (previous : Option Uuid) :
    Keeps (logged dhcpRule) P (Backend.rollbackPromotion pending previous) := by
  have hdelete : Keeps (logged dhcpRule) P
      ((Backend.deleteProfileUuid pending).bind fun _ => (Prog.ret () : Backend Unit)) :=
    keeps_bind (keeps_succeeds hP _ rfl) fun _ => keeps_ret (stable_sequential P) _
  refine keeps_bind (keeps_succeeds hP _ rfl) fun _ => ?_
  cases previous with
  | none => exact hdelete
  | some previous => exact keeps_bind (keeps_succeeds hP _ rfl) fun _ => hdelete

theorem keeps_takeSavedName (profile : Uuid) :
    Keeps (logged dhcpRule) P (Backend.takeSavedName profile) := by
  refine keeps_bind (keeps_succeeds hP _ rfl) fun ok => ?_
  split
  · exact keeps_ret (stable_sequential P) _
  refine keeps_bind (keeps_profileHasIdentity hP _ _) fun ok => ?_
  split
  · exact keeps_ret (stable_sequential P) _
  · exact keeps_ret (stable_sequential P) _

theorem keeps_savedProfileForActivation :
    Keeps (logged dhcpRule) P Backend.savedProfileForActivation := by
  refine keeps_bind (keeps_profileUuid hP _) fun ⟨ok, saved⟩ => ?_
  dsimp only
  split
  · exact keeps_ret (stable_sequential P) _
  cases saved with
  | some profile => exact keeps_takeSavedName hP profile
  | none =>
    refine keeps_bind (keeps_profileUuid hP _) fun ⟨ok, backup⟩ => ?_
    dsimp only
    split
    · exact keeps_takeSavedName hP _
    · exact keeps_ret (stable_sequential P) _

theorem keeps_scan [PyUnicode] : Keeps (logged dhcpRule) P Backend.scan := by
  refine keeps_bind (keeps_succeeds hP _ rfl) fun ok => ?_
  dsimp only
  split
  · exact keeps_raise (stable_sequential P) _
  refine keeps_bind (keeps_run hP _ rfl) fun result => ?_
  split
  · exact keeps_raise (stable_sequential P) _
  · exact keeps_ret (stable_sequential P) _

theorem keeps_hasSavedStation : Keeps (logged dhcpRule) P Backend.hasSavedStation := by
  refine keeps_bind (keeps_profileUuid hP _) fun ⟨ok, saved⟩ => ?_
  dsimp only
  split
  · exact keeps_ret (stable_sequential P) _
  · exact keeps_bind (keeps_profileUuid hP _) fun _ => keeps_ret (stable_sequential P) _

theorem keeps_activeStationSsid : Keeps (logged dhcpRule) P Backend.activeStationSsid := by
  refine keeps_bind (keeps_activeConnection hP) fun name => ?_
  split
  · exact keeps_ret (stable_sequential P) _
  · exact keeps_savedSsid hP none

theorem keeps_provisioningReady : Keeps (logged dhcpRule) P Backend.provisioningReady := by
  refine keeps_bind (keeps_activeConnection hP) fun name => ?_
  split
  · exact keeps_ret (stable_sequential P) _
  · exact keeps_bind (keeps_run hP _ rfl) fun _ => keeps_ret (stable_sequential P) _

end

/-! ## The methods that switch DHCP or activate a profile

The remaining four. Each stops the service before it brings up a station. -/

abbrev AnyLog : List RunnerEvent → Prop := fun _ => True

theorem anyLog_concat (log : List RunnerEvent) (e : RunnerEvent)
    (_ : e.1.command.isSwitch = false) (_ : AnyLog log) : AnyLog (log ++ [e]) := trivial

/-- The service stays stopped while nothing switches it. -/
theorem stopped_keep (log : List RunnerEvent) (e : RunnerEvent)
    (he : e.1.command.isSwitch = false) (h : Stopped log) : Stopped (log ++ [e]) :=
  stopped_concat he h

/-- A stop that succeeds leaves DHCP stopped. -/
theorem wp_stopDhcp (log : List RunnerEvent) :
    Backend.stopDhcp.wp (logged dhcpRule) (fun ok log => ok = true → Stopped log)
      (fun _ _ => True) log := by
  rintro _ rfl
  refine ⟨trivial, ?_⟩
  rintro r _ rfl
  cases r with
  | error e => exact fun _ _ => trivial
  | ok result =>
    rintro _ rfl
    intro hok
    refine ⟨⟨.run (.dhcp .stop), .ok result⟩, ?_, rfl, hok⟩
    rw [lastSwitch, List.filter_append]
    exact List.getLast?_concat

/-- A station is brought up while DHCP is stopped, and DHCP stays stopped. -/
theorem keeps_runUp (call : RunnerCall) (profile : Uuid) (hcall : call.command = .upUuid profile) :
    Keeps (logged dhcpRule) Stopped (.op call Prog.ofExcept : Backend CommandResult) := by
  refine keeps_op (stable_sequential Stopped) ?_ ?_
    fun r => keeps_ofExcept (stable_sequential Stopped) r
  · intro log hlog
    show dhcpRule log call
    rw [dhcpRule, hcall]
    exact hlog
  · rintro log r _ hlog rfl
    exact stopped_concat (by rw [hcall]; rfl) hlog

/-- The candidate is brought up while the service is stopped. -/
theorem keeps_activatePending (profile : Uuid) (accessPoint : AccessPoint)
    (password : Option String) :
    Keeps (logged dhcpRule) Stopped (Backend.activatePending profile accessPoint password) := by
  have hret : ∀ result : CommandResult, Keeps (logged dhcpRule) Stopped
      (Prog.ret (result.returncode == 0) : Backend Bool) :=
    fun _ => keeps_ret (stable_sequential Stopped) _
  unfold Backend.activatePending
  split
  · exact keeps_bind (keeps_runUp _ profile rfl) hret
  cases password with
  | none => exact keeps_raise (stable_sequential Stopped) _
  | some secret => exact keeps_bind (keeps_runUp _ profile rfl) hret

theorem keeps_activateAndPromote (selectedSsid : String) (pending : Uuid)
    (previous : Option Uuid) (accessPoint : AccessPoint) (password : Option String) :
    Keeps (logged dhcpRule) Stopped
      (Backend.activateAndPromote selectedSsid pending previous accessPoint password) := by
  refine keeps_bind (keeps_activatePending pending accessPoint password) fun ok => ?_
  split
  · exact keeps_bind (keeps_succeeds stopped_keep _ rfl)
      fun _ => keeps_ret (stable_sequential Stopped) _
  refine keeps_bind (keeps_promotePendingProfile stopped_keep pending previous) fun ok => ?_
  split
  · exact keeps_bind (keeps_rollbackPromotion stopped_keep pending previous)
      fun _ => keeps_ret (stable_sequential Stopped) _
  · exact keeps_ret (stable_sequential Stopped) _

/-- Go on only after a stop of DHCP that succeeded. -/
theorem cleared_stopDhcp {α : Type} {refused : Backend α} {p : Backend α}
    (hrefused : Cleared dhcpRule refused) (hp : Keeps (logged dhcpRule) Stopped p) :
    Cleared dhcpRule (Backend.stopDhcp.bind fun ok => if !ok then refused else p) := by
  intro log _
  refine wp_bind.mpr (wp_mono (wp_stopDhcp log) ?_ (fun _ _ h => h))
  intro ok log hlog
  cases ok with
  | false => exact hrefused log trivial
  | true => exact wp_mono (hp log (hlog rfl)) (fun _ _ _ => trivial) (fun _ _ _ => trivial)

/-- `connect_station` stops the service before the candidate is brought up, or gives up. -/
theorem cleared_replaceProfile (selectedSsid : String) (accessPoint : AccessPoint)
    (password : Option String) :
    Cleared dhcpRule (Backend.replaceProfile selectedSsid accessPoint password) := by
  refine cleared_stopDhcp (keeps_ret (stable_sequential _) _) ?_
  refine keeps_bind (keeps_profileUuid stopped_keep _) fun ⟨ok, previous⟩ => ?_
  dsimp only
  split
  · exact keeps_ret (stable_sequential Stopped) _
  refine keeps_bind (keeps_deleteProfile stopped_keep _) fun _ => ?_
  refine keeps_bind (keeps_createPendingProfile stopped_keep accessPoint) fun ok => ?_
  split
  · exact keeps_bind (keeps_deleteProfile stopped_keep _)
      fun _ => keeps_ret (stable_sequential Stopped) _
  refine keeps_bind (keeps_profileUuid stopped_keep _) fun ⟨ok, pending⟩ => ?_
  split
  · exact keeps_activateAndPromote _ _ _ _ _
  · exact keeps_bind (keeps_deleteProfile stopped_keep _)
      fun _ => keeps_ret (stable_sequential Stopped) _

/-- `connect_station` obeys the rule from any log. -/
theorem cleared_connectStation [PyUnicode] (ssid : String) (password : Option String) :
    Cleared dhcpRule (Backend.connectStation ssid password) := by
  refine keeps_bind (keeps_ofExcept (stable_sequential _) _) fun selectedSsid => ?_
  refine keeps_bind (keeps_scan anyLog_concat) fun networks => ?_
  split
  · exact keeps_ret (stable_sequential _) _
  split
  · exact keeps_ret (stable_sequential _) _
  · exact cleared_replaceProfile _ _ _

theorem cleared_activateSavedStation : Cleared dhcpRule Backend.activateSavedStation := by
  refine keeps_bind (keeps_savedProfileForActivation anyLog_concat) fun profile => ?_
  cases profile with
  | none => exact keeps_ret (stable_sequential _) _
  | some profile =>
    refine keeps_bind (keeps_succeeds anyLog_concat _ rfl) fun ok => ?_
    split
    · exact keeps_ret (stable_sequential _) _
    refine cleared_stopDhcp (keeps_ret (stable_sequential _) _) ?_
    refine keeps_bind (keeps_runUp _ profile rfl) fun result => ?_
    split
    · exact keeps_ret (stable_sequential Stopped) _
    · exact keeps_bind (keeps_savedSsid stopped_keep _)
        fun _ => keeps_ret (stable_sequential Stopped) _

/-- DHCP is started by the command after the one that brought the AP up. -/
theorem cleared_activateProvisioning : Cleared dhcpRule Backend.activateProvisioning := by
  refine keeps_bind (keeps_succeeds anyLog_concat _ rfl) fun ok => ?_
  split
  · exact keeps_ret (stable_sequential _) _
  -- the radio is on, and the profile of the access point may be brought up at any time
  rintro log - _ rfl
  refine ⟨trivial, ?_⟩
  rintro r _ rfl
  cases r with
  | error e => exact fun _ _ => trivial
  | ok result =>
    show (ite _ _ _ : Backend ProvisioningResult).wp _ _ _ _
    split
    · exact fun _ _ => trivial
    next hzero =>
      have hup : BroughtUp ⟨.run .upProvisioning, .ok result⟩ := by
        refine ⟨rfl, ?_⟩
        simpa [RunnerEvent.returnedZero] using hzero
      -- the profile is up, and this is the last entry when the service is started
      rintro _ rfl
      refine ⟨⟨_, List.getLast?_concat, hup⟩, ?_⟩
      rintro r _ rfl
      cases r with
      | error e => exact fun _ _ => trivial
      | ok result =>
        show (ite _ _ _ : Backend ProvisioningResult).wp _ _ _ _
        split
        · exact fun _ _ => trivial
        · exact fun _ _ => trivial

/-- Every method that the worker calls obeys the rule. -/
theorem obeys_dhcpRule [PyUnicode] : Obeys networkManagerBackend dhcpRule where
  hasSavedStation := keeps_hasSavedStation anyLog_concat
  activateSavedStation := cleared_activateSavedStation
  connectStation := cleared_connectStation
  activateProvisioning := cleared_activateProvisioning
  activeStationSsid := keeps_activeStationSsid anyLog_concat
  provisioningReady := keeps_provisioningReady anyLog_concat

/-- A scan issues the commands of a scan only. -/
theorem scansWithin_isScan [PyUnicode] :
    ScansWithin networkManagerBackend fun call => call.command.isScan = true := by
  have hrun : ∀ c : Command, c.isScan = true →
      Cleared (fun _ (call : RunnerCall) => call.command.isScan = true) (Backend.run c) :=
    fun c hc => keeps_op (stable_sequential _) (fun _ _ => hc) (fun _ _ _ _ _ => trivial)
      fun r => keeps_ofExcept (stable_sequential _) r
  refine keeps_bind (keeps_bind (hrun _ rfl) fun _ => keeps_ret (stable_sequential _) _)
    fun ok => ?_
  dsimp only
  split
  · exact keeps_raise (stable_sequential _) _
  refine keeps_bind (hrun _ rfl) fun result => ?_
  split
  · exact keeps_raise (stable_sequential _) _
  · exact keeps_ret (stable_sequential _) _

/-! ## The log of all threads

The commands of the worker are interleaved with those of scans, which the rule does not look at. -/

theorem workerOf_append (calls calls' : List (Thread × RunnerEvent)) :
    workerOf (calls ++ calls') = workerOf calls ++ workerOf calls' :=
  List.filterMap_append

/-- Clients add nothing that is neither a switch nor an activation. -/
theorem filter_workerOf {p : RunnerEvent → Bool} {calls : List (Thread × RunnerEvent)}
    (h : ∀ c ∈ calls, c.1 = .client → p c.2 = false) :
    (calls.map Prod.snd).filter p = (workerOf calls).filter p := by
  induction calls with
  | nil => rfl
  | cons c calls ih =>
    have ih := ih fun c hc => h c (List.mem_cons_of_mem _ hc)
    obtain ⟨thread, e⟩ := c
    cases thread with
    | worker =>
      show (e :: calls.map Prod.snd).filter p = (e :: workerOf calls).filter p
      rw [List.filter_cons, List.filter_cons, ih]
    | client =>
      have he : p e = false := h (.client, e) (List.mem_cons_self ..) rfl
      show (e :: calls.map Prod.snd).filter p = (workerOf calls).filter p
      rw [List.filter_cons_of_neg (by simp [he]), ih]

theorem not_isSwitch_of_isScan {c : Command} (h : c.isScan = true) : c.isSwitch = false := by
  cases c <;> first | rfl | cases h

theorem not_isUp_of_isScan {c : Command} (h : c.isScan = true) : c.isUp = false := by
  cases c <;> first | rfl | cases h

/-- The rule on the worker's own log gives the rule on the log of all threads. -/
theorem permitted_of_clean {calls : List (Thread × RunnerEvent)}
    (hclean : Clean (fun log (e : RunnerEvent) => dhcpRule log e.1) (workerOf calls))
    (hscan : ∀ c ∈ calls, c.1 = .client → c.2.1.command.isScan = true) :
    Clean Permitted calls := by
  rintro before ⟨thread, e⟩ after rfl
  have hbefore : ∀ c ∈ before, c.1 = .client → c.2.1.command.isScan = true :=
    fun c hc => hscan c (by simp [hc])
  -- a scan neither switches nor brings up, so both logs have the same last ones
  have hswitch : lastSwitch (before.map Prod.snd) = lastSwitch (workerOf before) := by
    rw [lastSwitch, filter_workerOf fun c hc h => not_isSwitch_of_isScan (hbefore c hc h),
      lastSwitch]
  have hup : lastUp (before.map Prod.snd) = lastUp (workerOf before) := by
    rw [lastUp, filter_workerOf fun c hc h => not_isUp_of_isScan (hbefore c hc h), lastUp]
  cases thread with
  | client =>
    have hcommand := hscan (.client, e) (by simp) rfl
    unfold Permitted
    cases hc : e.1.command <;> simp_all [Command.isScan]
  | worker =>
    have hrule : dhcpRule (workerOf before) e.1 :=
      hclean (workerOf before) e (workerOf after) (workerOf_append _ _)
    unfold Permitted
    unfold dhcpRule at hrule
    cases hc : e.1.command with
    | upUuid profile =>
      rw [hc] at hrule
      unfold Stopped
      rw [hswitch]
      exact hrule
    | dhcp action =>
      rw [hc] at hrule
      cases action with
      | start =>
        obtain ⟨up, hlast, hbrought⟩ := hrule
        refine ⟨up, hlast, ?_, hbrought⟩
        obtain ⟨init, hinit⟩ := List.getLast?_eq_some_iff.mp hlast
        rw [hup, hinit, lastUp, List.filter_append,
          List.filter_cons_of_pos (by rw [hbrought.1]; rfl)]
        exact List.getLast?_concat
      | _ => trivial
    | _ => trivial

/-- **The appliance never serves DHCP on a network it has joined.** In every run, every activation
of a station is issued while the last start or stop of DHCP in this process was a stop that
returned 0, and every start of DHCP directly after an activation of the provisioning profile that
returned 0, with no other activation in between. -/
theorem permitted_of_run [PyUnicode] {as : List (Action RunnerCall RunnerAnswer)}
    {d : DaemonState RunnerCall RunnerAnswer}
    (run : (daemon networkManagerBackend).Run Discipline.any.ok .init as d) :
    Clean Permitted d.shared.history.calls :=
  permitted_of_clean (clean_of_run obeys_dhcpRule run) (scans_of_run scansWithin_isScan run)

/-- A boot on which every command returns 0 and prints nothing: the AP comes up. -/
def quietBoot : List (Action RunnerCall RunnerAnswer) :=
  [.client (.request .boot), .client .finishRequest, .begin .processNext] ++
    List.replicate 9 (.work fun _ => .ok ⟨0, ""⟩)

/-- In a boot without a saved network the service is started, as the rule allows. -/
theorem permitted_quietBoot : ∃ d : DaemonState RunnerCall RunnerAnswer,
    d.shared.history.calls.any (fun c => c.2.1.command = .dhcp .start) = true ∧
      Clean Permitted d.shared.history.calls := by
  have h : ((daemon (@networkManagerBackend asciiUnicode)).exec Discipline.any.check quietBoot .init).any
      (fun d => d.shared.history.calls.any fun c => c.2.1.command = .dhcp .start) = true := by
    decide
  obtain ⟨d, hd, hstart⟩ := (Option.any_eq_true _ _).mp h
  exact ⟨d, hstart, @permitted_of_run asciiUnicode _ _ (System.run_of_exec hd)⟩

end Rave
