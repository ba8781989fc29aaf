import RaveDeployment.Web.EndToEnd
import RaveDeployment.Web.NetworkPage
import Mathlib.Algebra.GroupWithZero.Nat

/-!
# The Wi-Fi form

The list of networks, the password field and the two buttons of the network page, as `app.js` and
the attributes in `index.html` make them behave. `wifiForm` is the form beside the session of the
page: the user chooses, types, submits and refreshes in any order, and scans and requests are
answered whenever they are. The result is about all of it down to the daemon: what the form can post
is what the API and the backend accept.
-/

namespace Rave

namespace Web

open Py

/-! ## `WIFI_SECURITY_POLICY`

What the form asks for, for each kind of security. -/

/-- An entry of `WIFI_SECURITY_POLICY`. -/
structure SecurityPolicy where
  connectable : Bool
  passwordEnabled : Bool
  clearPassword : Bool
  help : String
  deriving DecidableEq

/-- `WIFI_SECURITY_POLICY`, where no network selected is the key `none`. -/
def WIFI_SECURITY_POLICY : Option WifiSecurity → SecurityPolicy
  | none => ⟨false, false, false, "Select a secured network to enter its password."⟩
  | some .open => ⟨true, false, true, "This network is open; no password is required."⟩
  | some .wpaPersonal =>
    ⟨true, true, false,
      "Enter the Wi-Fi password. RAVE never returns or displays a stored password."⟩
  | some .enterprise =>
    ⟨false, false, true,
      "This network security type is not supported by the provisioning flow."⟩
  | some .unsupported =>
    ⟨false, false, true,
      "This network security type is not supported by the provisioning flow."⟩

/-! ## The elements

What the browser itself enforces of a field is part of the model. -/

/-- The code units of a character in a string of the browser. -/
def utf16Units (c : Char) : Nat :=
  if c.toNat < 0x10000 then 1 else 2

def utf16Length (text : String) : Nat :=
  (text.toList.map utf16Units).sum

/-- `minlength` and `maxlength` of `#wifi-password`. -/
def PASSWORD_MINLENGTH : Nat := 8
/-- `maxlength` of the field. -/
def PASSWORD_MAXLENGTH : Nat := 63

/-- What a user can have typed into a field of one line. -/
def Typed (text : String) : Prop :=
  utf16Length text ≤ PASSWORD_MAXLENGTH ∧ ∀ c ∈ text.toList, c ≠ '\r' ∧ c ≠ '\n'

instance (text : String) : Decidable (Typed text) :=
  @instDecidableAnd _ _ (Nat.decLe _ _) (List.decidableBAll _ text.toList)

/-- The variables and the elements that the handlers of the form read and set. -/
structure Form where
  scannedNetworks : List WifiNetwork
  selectedSsid : Option String
  /-- The radio buttons of `#wifi-network-list`. -/
  wifiList : List WifiNetwork
  passwordValue : String
  passwordDisabled : Bool
  passwordRequired : Bool
  passwordHelp : String
  connectDisabled : Bool
  refreshDisabled : Bool
  deriving DecidableEq

/-- The form as `index.html` has it. -/
def Form.initial : Form :=
  ⟨[], none, [], "", true, false, "Select a secured network to enter its password.", true, false⟩

/-- `scannedNetworks.get(selectedSsid)`, where the last of two networks of one name counts. -/
def Form.selected (f : Form) : Option WifiNetwork :=
  f.selectedSsid.bind fun ssid => f.scannedNetworks.reverse.find? fun n => n.ssid = ssid

def Form.policy (f : Form) : SecurityPolicy :=
  WIFI_SECURITY_POLICY (f.selected.map WifiNetwork.security)

/-- The browser submits: the field is not validated when it is disabled. -/
def Form.Valid (f : Form) : Prop :=
  f.passwordDisabled = true ∨
    (f.passwordRequired = true → f.passwordValue ≠ "") ∧
    (f.passwordValue ≠ "" → PASSWORD_MINLENGTH ≤ utf16Length f.passwordValue)

instance (f : Form) : Decidable f.Valid :=
  inferInstanceAs (Decidable (_ ∨ _))

/-! ## The handlers

Those of `app.js`, on the elements of the form. -/

/-- `updatePasswordRequirement`. -/
def Form.updatePasswordRequirement (scanInProgress : Bool) (f : Form) : Form :=
  { f with
    passwordDisabled := !f.policy.passwordEnabled
    passwordRequired := f.policy.passwordEnabled
    connectDisabled := !f.policy.connectable || scanInProgress
    passwordHelp := f.policy.help
    passwordValue := if f.policy.clearPassword then "" else f.passwordValue }

/-- `scanWifi` up to the request. -/
def Form.scanStarts (f : Form) : Form :=
  { f with selectedSsid := none, refreshDisabled := true, wifiList := [] }
    |>.updatePasswordRequirement true

/-- `scanWifi` from the answer on. -/
def Form.scanEnds (networks : List WifiNetwork) (f : Form) : Form :=
  { f with scannedNetworks := networks, wifiList := networks, refreshDisabled := false }
    |>.updatePasswordRequirement false

def Form.choose (ssid : String) (scanInProgress : Bool) (f : Form) : Form :=
  { f with selectedSsid := some ssid } |>.updatePasswordRequirement scanInProgress

/-- `requestStation` from the answer on. -/
def Form.settle (scanInProgress : Bool) (f : Form) : Form :=
  { f with passwordValue := "" } |>.updatePasswordRequirement scanInProgress

/-- The password that `requestStation` posts. -/
def Form.password (f : Form) (selected : WifiNetwork) : Option String :=
  if selected.security = .open then none else some f.passwordValue

/-! ## The form beside the page

The form shares the scan and the submission with the page. -/

/-- The last two fields are not the page's: they record the networks of the scans that were
answered, and what was posted for which of them. -/
structure WifiCard where
  session : Session
  form : Form
  answered : List WifiNetwork
  posted : List (WifiNetwork × Option String)

/-- A step of the user, of the page or of the server. -/
inductive Deed where
  /-- Anything that the session does, but for the scan and the request of the form. -/
  | page (e : Event)
  | refresh
  | scanned (response : Option ValidWifiScanResponse)
  | choose (network : WifiNetwork)
  | type (text : String)
  | submit

def Event.ofForm : Event → Bool
  | .request .station | .scan | .scanned _ => true
  | _ => false

def Event.settles (s : Session) : Event → Bool
  | .complete id _ => s.requests[id]? = some .station
  | _ => false

/-- The networks of a scan, which are none when it failed. -/
def scannedNetworks : Option ValidWifiScanResponse → List WifiNetwork
  | none => []
  | some response => response.val.networks

def WifiCard.step : Deed → WifiCard → Option WifiCard
  | .page e, c =>
    if e.ofForm then none
    else (c.session.step e).map fun s =>
      { c with
        session := s
        form := if e.settles c.session then c.form.settle s.page.scanInProgress else c.form }
  | .refresh, c =>
    if c.form.refreshDisabled then none
    else (c.session.step .scan).map fun s => { c with session := s, form := c.form.scanStarts }
  | .scanned response, c =>
    (c.session.step (.scanned (response.map fun r => r.val.networks.length))).map fun s =>
      { c with
        session := s
        form := c.form.scanEnds (scannedNetworks response)
        answered := c.answered ++ scannedNetworks response }
  | .choose network, c =>
    if network ∈ c.form.wifiList then
      some { c with form := c.form.choose network.ssid c.session.page.scanInProgress }
    else none
  | .type text, c =>
    if c.form.passwordDisabled = false ∧ Typed text then
      some { c with form := { c.form with passwordValue := text } }
    else none
  | .submit, c =>
    if c.form.connectDisabled = false ∧ c.form.Valid then
      match c.form.selected with
      | none => some c
      | some selected =>
        (c.session.step (.request .station)).map fun s =>
          { c with
            session := s
            form := { c.form with connectDisabled := true }
            posted := c.posted ++ [(selected, c.form.password selected)] }
    else none

def wifiForm : System WifiCard Deed where
  init := ⟨networkPage.init, .initial, [], []⟩
  step := WifiCard.step

/-! ## What the session does to the form

The steps of the page leave the form alone, but for the scan. -/

@[simp] theorem updateTransitionMessage_scanInProgress (now : ℚ) (p : Page) :
    (updateTransitionMessage now p).scanInProgress = p.scanInProgress := by
  unfold updateTransitionMessage
  split
  · rfl
  · split <;> rfl

@[simp] theorem renderNetworkStatus_scanInProgress (now : ℚ) (network : NetworkStatus) (p : Page) :
    (renderNetworkStatus now network p).scanInProgress = p.scanInProgress := by
  unfold renderNetworkStatus
  split
  · rfl
  · split
    · rfl
    · exact updateTransitionMessage_scanInProgress now p

theorem complete_scanInProgress (a : NetworkAction) (ok : Bool) (p : Page) :
    (a.complete ok p).scanInProgress = p.scanInProgress := by
  cases a <;> cases ok <;> rfl

/-- Only a scan changes whether one is in progress. -/
theorem scanInProgress_of_step {s t : Session} {e : Event} (he : e.ofForm = false)
    (h : s.step e = some t) : t.page.scanInProgress = s.page.scanInProgress := by
  -- one case for each event of the page; the form's own two are excluded
  cases e with
  | wait ms =>
    obtain ⟨-, ht⟩ := Option.ite_none_right_eq_some.mp h
    rw [← Option.some.inj ht]
  | request a =>
    obtain ⟨-, ht⟩ := Option.ite_none_right_eq_some.mp h
    rw [← Option.some.inj ht]
    rfl
  | accept id =>
    obtain ⟨-, ht⟩ := Option.ite_none_right_eq_some.mp h
    rw [← Option.some.inj ht]
  | complete id ok =>
    obtain ⟨-, ht⟩ := Option.ite_none_right_eq_some.mp h
    obtain ⟨a, -, rfl⟩ := Option.map_eq_some_iff.mp ht
    exact complete_scanInProgress a ok s.page
  | scan => cases he
  | scanned networks => cases he
  | poll =>
    simp only [Session.step] at h
    split at h
    · obtain ⟨-, ht⟩ := Option.ite_none_left_eq_some.mp h
      rw [← Option.some.inj ht]
    · cases h
  | sample status =>
    simp only [Session.step] at h
    split at h
    · rw [← Option.some.inj h]
    · cases h
  | render =>
    simp only [Session.step] at h
    split at h
    · rw [← Option.some.inj h]
      exact renderNetworkStatus_scanInProgress _ _ _
    · cases h
  | pollEnds =>
    simp only [Session.step] at h
    split at h
    · rw [← Option.some.inj h]
    · cases h
  | pollFails =>
    simp only [Session.step] at h
    split at h
    · cases h
    · rw [← Option.some.inj h]
      exact updateTransitionMessage_scanInProgress _ _

/-- The elements show the policy of the network that is selected. -/
structure Form.Shown (f : Form) : Prop where
  disabled : f.passwordDisabled = !f.policy.passwordEnabled
  required : f.passwordRequired = f.policy.passwordEnabled
  help : f.passwordHelp = f.policy.help
  cleared : f.policy.clearPassword = true → f.passwordValue = ""
  connectable : f.connectDisabled = false → f.policy.connectable = true

/-- After `updatePasswordRequirement` the elements show the policy. -/
theorem shown_update (scanInProgress : Bool) (f : Form) :
    (f.updatePasswordRequirement scanInProgress).Shown where
  disabled := rfl
  required := rfl
  help := rfl
  cleared := fun h => if_pos h
  connectable := by
    intro h
    have h : (!f.policy.connectable || scanInProgress) = false := h
    show f.policy.connectable = true
    simp only [Bool.or_eq_false_iff, Bool.not_eq_false'] at h
    exact h.1

theorem typed_empty : Typed "" := by
  decide

/-- What is left in the field could have been typed. -/
theorem typed_update {f : Form} (scanInProgress : Bool) (h : Typed f.passwordValue) :
    Typed (f.updatePasswordRequirement scanInProgress).passwordValue := by
  unfold Form.updatePasswordRequirement
  dsimp only
  split
  · exact typed_empty
  · exact h

/-- A network that can be connected to is selected, and takes a password or takes none. -/
theorem selected_of_connectable {f : Form} (h : f.policy.connectable = true) :
    ∃ n, f.selected = some n ∧
      (n.security = .open ∧ f.policy.passwordEnabled = false ∨
        n.security = .wpaPersonal ∧ f.policy.passwordEnabled = true) := by
  unfold Form.policy at h ⊢
  cases hselected : f.selected with
  | none =>
    rw [hselected] at h
    cases h
  | some n =>
    refine ⟨n, rfl, ?_⟩
    rw [hselected, Option.map_some] at h
    rw [Option.map_some]
    cases hsecurity : n.security with
    | «open» => exact .inl ⟨rfl, rfl⟩
    | wpaPersonal => exact .inr ⟨rfl, rfl⟩
    | enterprise =>
      rw [hsecurity] at h
      cases h
    | unsupported =>
      rw [hsecurity] at h
      cases h

/-- The selected network is one of the scan. -/
theorem mem_of_selected {f : Form} {n : WifiNetwork} (h : f.selected = some n) :
    n ∈ f.scannedNetworks := by
  obtain ⟨ssid, -, hfind⟩ := Option.bind_eq_some_iff.mp h
  exact List.mem_reverse.mp (List.mem_of_find?_eq_some hfind)

/-! ## What is kept

What the form shows is the policy of the network that is selected, and that network is one of the
scan. -/

def Submitted (n : WifiNetwork) (password : Option String) : Prop :=
  n.security = .open ∧ password = none ∨
    n.security = .wpaPersonal ∧ ∃ text, password = some text ∧
      PASSWORD_MINLENGTH ≤ utf16Length text ∧ Typed text

/-- The form, the page and what was posted agree. -/
structure WifiCard.Kept (c : WifiCard) : Prop where
  shown : c.form.Shown
  typed : Typed c.form.passwordValue
  refresh : c.form.refreshDisabled = c.session.page.scanInProgress
  scanning : c.session.page.scanInProgress = true →
    c.form.connectDisabled = true ∧ c.form.wifiList = [] ∧ c.form.selectedSsid = none
  known : ∀ n ∈ c.form.scannedNetworks, n ∈ c.answered
  valid : ∀ n ∈ c.answered, n.errors = []
  posted : ∀ p ∈ c.posted, p.1 ∈ c.answered ∧ Submitted p.1 p.2

theorem kept_init : wifiForm.init.Kept where
  shown := ⟨rfl, rfl, rfl, fun _ => rfl, fun h => by cases h⟩
  typed := typed_empty
  refresh := rfl
  scanning := fun h => by cases h
  known := fun n hn => absurd hn List.not_mem_nil
  valid := fun n hn => absurd hn List.not_mem_nil
  posted := fun p hp => absurd hp List.not_mem_nil

/-- What is submitted is for the network that is selected and as its policy has it. -/
theorem submitted_of_valid {f : Form} {selected : WifiNetwork} (h : f.Shown)
    (htyped : Typed f.passwordValue) (hconnect : f.connectDisabled = false) (hvalid : f.Valid)
    (hselected : f.selected = some selected) : Submitted selected (f.password selected) := by
  obtain ⟨n, hn, hpolicy⟩ := selected_of_connectable (h.connectable hconnect)
  obtain rfl : selected = n := Option.some.inj (hselected.symm.trans hn)
  rcases hpolicy with ⟨hopen, -⟩ | ⟨hwpa, henabled⟩
  · exact .inl ⟨hopen, if_pos hopen⟩
  · right
    have hdisabled : f.passwordDisabled = false := by
      rw [h.disabled, henabled]
      rfl
    have hrequired : f.passwordRequired = true := by
      rw [h.required, henabled]
    have hpassword : f.password selected = some f.passwordValue := by
      apply if_neg
      rw [hwpa]
      decide
    rcases hvalid with hdisabled' | ⟨hnonempty, hlength⟩
    · rw [hdisabled] at hdisabled'
      cases hdisabled'
    · exact ⟨hwpa, _, hpassword, hlength (hnonempty hrequired), htyped⟩

/-- A step of the page. -/
theorem kept_page {c : WifiCard} {e : Event} {s : Session} (h : c.Kept) (he : e.ofForm = false)
    (hs : c.session.step e = some s) :
    WifiCard.Kept { c with
      session := s
      form := if e.settles c.session then c.form.settle s.page.scanInProgress else c.form } := by
  have hscan := scanInProgress_of_step he hs
  by_cases hsettles : e.settles c.session = true
  · simp only [if_pos hsettles]
    refine ⟨shown_update _ _, typed_update _ typed_empty, h.refresh.trans hscan.symm, ?_, h.known,
      h.valid, h.posted⟩
    intro hprogress
    have hprogress : s.page.scanInProgress = true := hprogress
    refine ⟨?_, (h.scanning (hscan.symm.trans hprogress)).2⟩
    show (_ || s.page.scanInProgress) = true
    rw [hprogress, Bool.or_true]
  · simp only [if_neg hsettles]
    exact ⟨h.shown, h.typed, h.refresh.trans hscan.symm, fun hprogress =>
      h.scanning (hscan.symm.trans hprogress), h.known, h.valid, h.posted⟩

theorem kept_refresh {c : WifiCard} {s : Session} (h : c.Kept) (hs : c.session.step .scan = some s) :
    WifiCard.Kept { c with session := s, form := c.form.scanStarts } := by
  obtain ⟨-, ht⟩ := Option.ite_none_left_eq_some.mp hs
  obtain rfl := Option.some.inj ht
  exact ⟨shown_update _ _, typed_update _ h.typed, rfl, fun _ => ⟨rfl, rfl, rfl⟩, h.known, h.valid,
    h.posted⟩

/-- The networks of a scan have passed their model. -/
theorem valid_scannedNetworks (response : Option ValidWifiScanResponse) :
    ∀ n ∈ scannedNetworks response, n.errors = [] := by
  intro n hn
  cases response with
  | none => exact absurd hn List.not_mem_nil
  | some response =>
    have herrors : response.val.errors = [] := response.property
    exact List.flatMap_eq_nil_iff.mp (List.append_eq_nil_iff.mp herrors).2 n hn

theorem kept_scanned {c : WifiCard} {response : Option ValidWifiScanResponse} {s : Session}
    (h : c.Kept)
    (hs : c.session.step (.scanned (response.map fun r => r.val.networks.length)) = some s) :
    WifiCard.Kept { c with
      session := s
      form := c.form.scanEnds (scannedNetworks response)
      answered := c.answered ++ scannedNetworks response } := by
  obtain ⟨-, ht⟩ := Option.ite_none_right_eq_some.mp hs
  obtain rfl := Option.some.inj ht
  refine ⟨shown_update _ _, typed_update _ h.typed, rfl, ?_, ?_, ?_, ?_⟩
  · intro hprogress
    exact absurd hprogress Bool.false_ne_true
  · intro n hn
    exact List.mem_append_right _ hn
  · intro n hn
    rcases List.mem_append.mp hn with hold | hnew
    · exact h.valid n hold
    · exact valid_scannedNetworks response n hnew
  · intro p hp
    exact ⟨List.mem_append_left _ (h.posted p hp).1, (h.posted p hp).2⟩

theorem kept_choose {c : WifiCard} {n : WifiNetwork} (h : c.Kept) (hn : n ∈ c.form.wifiList) :
    WifiCard.Kept { c with form := c.form.choose n.ssid c.session.page.scanInProgress } := by
  refine ⟨shown_update _ _, typed_update _ h.typed, h.refresh, ?_, h.known, h.valid, h.posted⟩
  -- there is nothing to choose during a scan
  intro hprogress
  rw [(h.scanning hprogress).2.1] at hn
  exact absurd hn List.not_mem_nil

theorem kept_type {c : WifiCard} {text : String} (h : c.Kept)
    (henabled : c.form.passwordDisabled = false) (htext : Typed text) :
    WifiCard.Kept { c with form := { c.form with passwordValue := text } } := by
  refine ⟨⟨h.shown.disabled, h.shown.required, h.shown.help, ?_, h.shown.connectable⟩, htext,
    h.refresh, h.scanning, h.known, h.valid, h.posted⟩
  -- a policy that clears the field disables it
  intro hclear
  have hclear : c.form.policy.clearPassword = true := hclear
  have henables : c.form.policy.passwordEnabled = true := by
    have hdisabled := h.shown.disabled
    rw [henabled] at hdisabled
    simpa using hdisabled
  unfold Form.policy at hclear henables
  cases hsecurity : c.form.selected.map WifiNetwork.security with
  | none =>
    rw [hsecurity] at hclear
    cases hclear
  | some security =>
    rw [hsecurity] at hclear henables
    cases security with
    | wpaPersonal => cases hclear
    | «open» => cases henables
    | enterprise => cases henables
    | unsupported => cases henables

theorem kept_submit {c : WifiCard} {selected : WifiNetwork} {s : Session} (h : c.Kept)
    (hconnect : c.form.connectDisabled = false) (hvalid : c.form.Valid)
    (hselected : c.form.selected = some selected)
    (hs : c.session.step (.request .station) = some s) :
    WifiCard.Kept { c with
      session := s
      form := { c.form with connectDisabled := true }
      posted := c.posted ++ [(selected, c.form.password selected)] } := by
  obtain ⟨-, ht⟩ := Option.ite_none_right_eq_some.mp hs
  obtain rfl := Option.some.inj ht
  refine ⟨⟨h.shown.disabled, h.shown.required, h.shown.help, h.shown.cleared, fun hc => by cases hc⟩,
    h.typed, h.refresh, fun hprogress => ⟨rfl, (h.scanning hprogress).2⟩, h.known, h.valid, ?_⟩
  intro p hp
  rcases List.mem_append.mp hp with hold | hnew
  · exact h.posted p hold
  · rw [List.mem_singleton.mp hnew]
    exact ⟨h.known _ (mem_of_selected hselected),
      submitted_of_valid h.shown h.typed hconnect hvalid hselected⟩

theorem kept_step {c d : WifiCard} {a : Deed} (h : c.Kept) (hs : c.step a = some d) : d.Kept := by
  cases a with
  -- a deed that the form ignores leaves the card as it is; each other one has its lemma
  | page e =>
    obtain ⟨he, ht⟩ := Option.ite_none_left_eq_some.mp hs
    obtain ⟨s, hsession, rfl⟩ := Option.map_eq_some_iff.mp ht
    exact kept_page h (Bool.eq_false_iff.mpr he) hsession
  | refresh =>
    obtain ⟨-, ht⟩ := Option.ite_none_left_eq_some.mp hs
    obtain ⟨s, hsession, rfl⟩ := Option.map_eq_some_iff.mp ht
    exact kept_refresh h hsession
  | scanned response =>
    obtain ⟨s, hsession, rfl⟩ := Option.map_eq_some_iff.mp hs
    exact kept_scanned h hsession
  | choose n =>
    obtain ⟨hn, ht⟩ := Option.ite_none_right_eq_some.mp hs
    rw [← Option.some.inj ht]
    exact kept_choose h hn
  | type text =>
    obtain ⟨⟨henabled, htext⟩, ht⟩ := Option.ite_none_right_eq_some.mp hs
    rw [← Option.some.inj ht]
    exact kept_type h henabled htext
  | submit =>
    obtain ⟨⟨hconnect, hvalid⟩, ht⟩ := Option.ite_none_right_eq_some.mp hs
    split at ht
    · rw [← Option.some.inj ht]
      exact h
    · next selected hselected =>
      obtain ⟨s, hsession, rfl⟩ := Option.map_eq_some_iff.mp ht
      exact kept_submit h hconnect hvalid hselected hsession

theorem kept_of_run {ds : List Deed} {c : WifiCard}
    (run : wifiForm.Run (fun _ _ => True) wifiForm.init ds c) : c.Kept :=
  run.invariant kept_init fun _ _ _ h _ hs => kept_step h hs

/-! ## The session of the form

A run of both is a run of the page. -/

/-- What the form does to the page, the network page does. -/
theorem session_step {c d : WifiCard} {a : Deed} (hs : c.step a = some d) :
    d.session = c.session ∨ ∃ e, networkPage.step e c.session = some d.session := by
  -- a deed of the form is at most one event of the page
  cases a with
  | page e =>
    obtain ⟨-, ht⟩ := Option.ite_none_left_eq_some.mp hs
    obtain ⟨s, hsession, rfl⟩ := Option.map_eq_some_iff.mp ht
    exact .inr ⟨e, hsession⟩
  | refresh =>
    obtain ⟨-, ht⟩ := Option.ite_none_left_eq_some.mp hs
    obtain ⟨s, hsession, rfl⟩ := Option.map_eq_some_iff.mp ht
    exact .inr ⟨.scan, hsession⟩
  | scanned response =>
    obtain ⟨s, hsession, rfl⟩ := Option.map_eq_some_iff.mp hs
    exact .inr ⟨.scanned _, hsession⟩
  | choose n =>
    obtain ⟨-, ht⟩ := Option.ite_none_right_eq_some.mp hs
    rw [← Option.some.inj ht]
    exact .inl rfl
  | type text =>
    obtain ⟨-, ht⟩ := Option.ite_none_right_eq_some.mp hs
    rw [← Option.some.inj ht]
    exact .inl rfl
  | submit =>
    obtain ⟨-, ht⟩ := Option.ite_none_right_eq_some.mp hs
    split at ht
    · rw [← Option.some.inj ht]
      exact .inl rfl
    · obtain ⟨s, hsession, rfl⟩ := Option.map_eq_some_iff.mp ht
      exact .inr ⟨.request .station, hsession⟩

/-- A run of the form is a run of its session. -/
theorem session_run {ds : List Deed} {c : WifiCard}
    (run : wifiForm.Run (fun _ _ => True) wifiForm.init ds c) :
    ∃ es, networkPage.Run (fun _ _ => True) networkPage.init es c.session := by
  induction run with
  | refl => exact ⟨[], .refl⟩
  | step _ _ hs ih =>
    obtain ⟨es, run⟩ := ih
    rcases session_step hs with hsame | ⟨e, he⟩
    · rw [hsame]
      exact ⟨es, run⟩
    · exact ⟨es ++ [e], run.step trivial he⟩

/-! ## What is posted is accepted

By the route, unless the password is too long in bytes. -/

/-- A character has no more UTF-16 units than bytes. -/
theorem utf16Units_le (c : Char) : utf16Units c ≤ c.utf8Size := by
  have hnat : c.val.toNat = c.toNat := rfl
  unfold utf16Units Char.utf8Size
  simp only [UInt32.le_iff_toNat_le, hnat, UInt32.toNat_ofNatLT]
  split_ifs <;> omega

theorem utf16Length_le (text : String) : utf16Length text ≤ text.utf8ByteSize := by
  have hchars : ∀ cs : List Char, (cs.map utf16Units).sum ≤ (encodeUtf8 cs).length := by
    intro cs
    induction cs with
    | nil => exact Nat.le_refl 0
    | cons c cs ih =>
      have hcons : encodeUtf8 (c :: cs) = encodeUtf8 [c] ++ encodeUtf8 cs :=
        encodeUtf8_append [c] cs
      have hone := length_encodeUtf8_singleton c
      have hunits := utf16Units_le c
      rw [hcons, List.length_append, hone, List.map_cons, List.sum_cons]
      omega
  have hs := hchars text.toList
  rwa [length_encodeUtf8_toList] at hs

/-- The body of `POST /api/v1/network/connect`. -/
def connectBody (selected : WifiNetwork) (password : Option String) : Json :=
  .obj [("ssid", .str selected.ssid), ("password", password.elim .null fun text => .str text)]

/-- The body that is posted posts the network and the password. -/
theorem posts_connectBody (selected : WifiNetwork) (password : Option String) :
    Posts (.json (connectBody selected password)) selected.ssid password := by
  refine ⟨_, rfl, ?_, rfl, ?_⟩
  · simp
  · cases password with
    | none => exact .inr ⟨rfl, rfl⟩
    | some text => exact .inl rfl

/-- The password fits into the credential of the daemon, which has no NUL in it. -/
def Fits (password : Option String) : Prop :=
  ∀ text ∈ password, text.utf8ByteSize ≤ PASSWORD_MAX_BYTES ∧ '\x00' ∉ text.toList

/-- A password that was typed is accepted unless it is too long in bytes. -/
theorem validatePassword_of_typed {text : String} (hmin : PASSWORD_MINLENGTH ≤ utf16Length text)
    (htyped : Typed text) :
    validatePassword text = .ok text ↔
      text.utf8ByteSize ≤ PASSWORD_MAX_BYTES ∧ '\x00' ∉ text.toList := by
  have hleast : PASSWORD_MIN_BYTES ≤ text.utf8ByteSize := Nat.le_trans hmin (utf16Length_le text)
  -- the field takes no line ends, so the null character is the one control that can be there
  have hcontrol : (text.toList.any fun c => c = '\x00' ∨ c = '\r' ∨ c = '\n') = true ↔
      '\x00' ∈ text.toList := by
    rw [List.any_eq_true]
    constructor
    · rintro ⟨c, hc, hcontrol⟩
      rcases of_decide_eq_true hcontrol with rfl | hreturn | hnewline
      · exact hc
      · exact absurd hreturn (htyped.2 c hc).1
      · exact absurd hnewline (htyped.2 c hc).2
    · intro hnul
      exact ⟨_, hnul, by decide⟩
  -- the least length is in order, and the greatest one decides
  by_cases hmost : text.utf8ByteSize ≤ PASSWORD_MAX_BYTES
  · simp only [validatePassword, hleast, hmost, and_self, not_true_eq_false, if_false, true_and]
    by_cases hnul : '\x00' ∈ text.toList
    · rw [if_pos (hcontrol.mpr hnul)]
      refine ⟨fun h => ?_, fun h => absurd hnul h⟩
      cases h
    · rw [if_neg (mt hcontrol.mp hnul)]
      exact ⟨fun _ => hnul, fun _ => rfl⟩
  · simp only [validatePassword, hmost, and_false, not_false_eq_true, if_true, false_and, iff_false]
    intro h
    cases h

/-- The SSID of a network that passed is accepted. -/
theorem ssid_of_errors {n : WifiNetwork} (h : n.errors = []) : validateSsid n.ssid = .ok n.ssid := by
  have hssid := (List.append_eq_nil_iff.mp h).1
  split at hssid
  · next hok =>
    cases hvalid : validateSsid n.ssid with
    | ok ssid => rw [(validateSsid_eq_ok hvalid).1]
    | error e =>
      rw [hvalid] at hok
      exact absurd hok.2.2 Bool.false_ne_true
  · cases hssid

/-- The API takes what the form posts exactly where the password fits. -/
theorem ofJson_connectBody {n : WifiNetwork} {password : Option String} (hn : n.errors = [])
    (h : Submitted n password) :
    (∃ request, NetworkConnectRequest.ofJson (connectBody n password) = .ok request ∧
      request.ssid = n.ssid ∧ request.password = password) ↔ Fits password := by
  have hposts := posts_connectBody n password
  have hiff : Fits password ↔ ∀ text ∈ password, validatePassword text = .ok text := by
    rcases h with ⟨-, rfl⟩ | ⟨-, text, rfl, hmin, htyped⟩
    · exact ⟨fun _ text htext => absurd htext (Option.not_mem_none text),
        fun _ text htext => absurd htext (Option.not_mem_none text)⟩
    · simp only [Fits, Option.mem_some_iff, forall_eq', validatePassword_of_typed hmin htyped]
  rw [hiff]
  constructor
  · rintro ⟨request, -, -, rfl⟩
    exact request.password_valid
  · intro hpassword
    exact ⟨⟨n.ssid, password, ssid_of_errors hn, hpassword⟩, ofJson_eq_ok.mpr hposts, rfl, rfl⟩

/-- The backend finds the credential fit for the network exactly where the password fits. -/
theorem credentialError_submitted {n : WifiNetwork} {password : Option String}
    (h : Submitted n password) :
    Backend.credentialError n.security password = none ↔ Fits password := by
  rcases h with ⟨hopen, rfl⟩ | ⟨hwpa, text, rfl, hmin, htyped⟩
  · rw [hopen]
    exact ⟨fun _ text htext => absurd htext (Option.not_mem_none text), fun _ => rfl⟩
  · rw [hwpa]
    simp only [Fits, Option.mem_some_iff, forall_eq', ← validatePassword_of_typed hmin htyped]
    cases hvalid : validatePassword text with
    | ok password =>
      rw [(validatePassword_eq_ok hvalid).1]
      simp only [Backend.credentialError, hvalid]
    | error e =>
      simp only [Backend.credentialError, hvalid, reduceCtorEq]

/-- **The form posts only what can be a credential.** In every run of the form, with the scans and
the requests answered in any order and whatever the user chooses and types: the session is one of the
network page, the elements show the policy of the network that is selected, and a station can be
requested only between scans and for a network of an answered scan that is open or has WPA-Personal.
Every body that was posted is for such a network, with no password for an open one. The API takes it,
and the backend finds it fit for the network, exactly where the password has at most 63 bytes and no
NUL: the field counts code units, so that this is not the form's to see. -/
theorem posts_of_run {ds : List Deed} {c : WifiCard}
    (run : wifiForm.Run (fun _ _ => True) wifiForm.init ds c) :
    (∃ es, networkPage.Run (fun _ _ => True) networkPage.init es c.session) ∧
    c.form.Shown ∧
    (c.form.connectDisabled = false → c.session.page.scanInProgress = false ∧
      ∃ n ∈ c.answered, c.form.selected = some n ∧
        (n.security = .open ∨ n.security = .wpaPersonal)) ∧
    ∀ n password, (n, password) ∈ c.posted → n ∈ c.answered ∧ Submitted n password ∧
      ((∃ request, NetworkConnectRequest.ofJson (connectBody n password) = .ok request ∧
        request.ssid = n.ssid ∧ request.password = password) ↔ Fits password) ∧
      (Backend.credentialError n.security password = none ↔ Fits password) := by
  -- all of it is read off the invariant
  have hkept := kept_of_run run
  refine ⟨session_run run, hkept.shown, ?_, ?_⟩
  · intro hconnect
    obtain ⟨n, hn, hpolicy⟩ := selected_of_connectable (hkept.shown.connectable hconnect)
    refine ⟨?_, n, hkept.known n (mem_of_selected hn), hn, ?_⟩
    -- during a scan the button is disabled
    · by_contra hprogress
      have hdisabled := (hkept.scanning (by simpa using hprogress)).1
      rw [hconnect] at hdisabled
      cases hdisabled
    · exact hpolicy.imp And.left And.left
  · intro n password hposted
    obtain ⟨hanswered, hsubmitted⟩ := hkept.posted _ hposted
    exact ⟨hanswered, hsubmitted, ofJson_connectBody (hkept.valid n hanswered) hsubmitted,
      credentialError_submitted hsubmitted⟩

def homeNetwork : WifiNetwork := ⟨"home", 70, .wpaPersonal, false⟩

def homeScan : ValidWifiScanResponse :=
  ⟨⟨"v1", [homeNetwork]⟩, by decide⟩

/-- A scan finds one network, and the user joins it. -/
def joinHome : List Deed :=
  [.refresh, .scanned (some homeScan), .choose homeNetwork, .type "correct horse", .submit]

theorem posts_of_run_joinHome : ∃ c : WifiCard,
    wifiForm.Run (fun _ _ => True) wifiForm.init joinHome c ∧
    c.posted = [(homeNetwork, some "correct horse")] ∧
    ∃ request, NetworkConnectRequest.ofJson (connectBody homeNetwork (some "correct horse")) =
      .ok request ∧ request.ssid = "home" ∧ request.password = some "correct horse" := by
  have h : ((wifiForm.exec (fun _ _ => true) joinHome wifiForm.init).map WifiCard.posted) =
      some [(homeNetwork, some "correct horse")] := by
    decide
  obtain ⟨c, hc, hposted⟩ := Option.map_eq_some_iff.mp h
  have run := (System.run_of_exec hc).mono fun _ _ _ => trivial
  refine ⟨c, run, hposted, ?_⟩
  have hmem : (homeNetwork, some "correct horse") ∈ c.posted := by
    rw [hposted]
    exact List.mem_singleton.mpr rfl
  have hfits : Fits (some "correct horse") := by
    intro text htext
    obtain rfl := Option.mem_some_iff.mp htext
    decide
  exact ((posts_of_run run).2.2.2 _ _ hmem).2.2.1.mpr hfits

end Web

end Rave
