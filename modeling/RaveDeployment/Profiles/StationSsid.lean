import RaveDeployment.Network.DhcpOwnership
import RaveDeployment.Network.Methods
import RaveDeployment.Profiles.Lifetimes

/-!
# The SSID of a connected station

`connect_station` reports the SSID it was asked for; `active_station_ssid` and
`activate_saved_station` read it off what `nmcli` prints. `Linked` is a later call while the
profile stays the active connection, with every command done, and `sameSsid_iff` says for which
SSIDs the two agree.
-/

namespace Rave

open Py Prog

/-! ## What is read back

`nmcli` escapes the SSID, the backend strips the line and splits it. An SSID with blanks at an end,
or with a character that is escaped, is read back as another one. -/

/-- What `_saved_ssid` makes of the printed SSID. -/
def readBackSsid (ssid : String) : Option String :=
  match validateSsid (strip (String.ofList (escapeField ssid.toList ++ ['\n']))) with
  | .ok ssid => some ssid
  | .error _ => none

def Unescaped (l : List Char) : Prop :=
  ':' ∉ l ∧ '\\' ∉ l

instance (l : List Char) : Decidable (Unescaped l) :=
  inferInstanceAs (Decidable (':' ∉ l ∧ '\\' ∉ l))

theorem escapeField_append (a b : List Char) :
    escapeField (a ++ b) = escapeField a ++ escapeField b := by
  simp [escapeField]

/-- A blank is not escaped. -/
theorem escapeField_cons_of_isSpace {c : Char} (h : isSpace c = true) (l : List Char) :
    escapeField (c :: l) = c :: escapeField l := by
  have hplain : ¬(c = ':' ∨ c = '\\') := by
    intro hc
    rcases hc with rfl | rfl
    · exact absurd h (by decide)
    · exact absurd h (by decide)
  simp [escapeField, hplain]

/-- Without backslashes and colons nothing is. -/
theorem escapeField_of_unescaped {l : List Char} (h : Unescaped l) : escapeField l = l := by
  obtain ⟨hcolon, hslash⟩ := h
  induction l with
  | nil => rfl
  | cons c l ih =>
    rw [List.mem_cons, not_or] at hcolon hslash
    have hplain : ¬(c = ':' ∨ c = '\\') := not_or.mpr ⟨Ne.symm hcolon.1, Ne.symm hslash.1⟩
    have hcons : escapeField (c :: l) = c :: escapeField l := by simp [escapeField, hplain]
    rw [hcons, ih hcolon.2 hslash.2]

/-- Escaping makes a text longer where there is something to escape. -/
theorem unescaped_of_length {l : List Char} (h : (escapeField l).length ≤ l.length) :
    Unescaped l := by
  -- escaping never shortens
  have hlong : ∀ l : List Char, l.length ≤ (escapeField l).length := by
    intro l
    induction l with
    | nil => exact Nat.le_refl _
    | cons c l ih =>
      rw [escapeField, List.flatMap_cons, List.length_append, List.length_cons, ← escapeField]
      split
      · rw [List.length_cons, List.length_singleton]
        omega
      · rw [List.length_singleton]
        omega
  induction l with
  | nil => exact ⟨by simp, by simp⟩
  | cons c l ih =>
    rw [escapeField, List.flatMap_cons, List.length_append, List.length_cons, ← escapeField] at h
    have hrest := hlong l
    -- an escape would make the text longer
    split at h
    · rw [List.length_cons, List.length_singleton] at h
      omega
    · next hplain =>
      rw [List.length_singleton] at h
      obtain ⟨hcolon, hslash⟩ := ih (by omega)
      rw [not_or] at hplain
      exact ⟨by simp [hcolon, Ne.symm hplain.1], by simp [hslash, Ne.symm hplain.2]⟩

/-- The text that is escaped is no white space. -/
theorem escapeField_isSpace_ends {c : Char} (h : isSpace c = false) :
    ∃ first last, escapeField [c] = first ++ [last] ∧ isSpace last = false ∧
      ((escapeField [c]).head?.map isSpace) = some false := by
  by_cases hc : c = ':' ∨ c = '\\'
  · have hescaped : escapeField [c] = ['\\', c] := by simp [escapeField, hc]
    refine ⟨['\\'], c, hescaped, h, ?_⟩
    rw [hescaped]
    have hslash : isSpace '\\' = false := by decide
    exact congrArg some hslash
  · have hplain : escapeField [c] = [c] := by simp [escapeField, hc]
    refine ⟨[], c, hplain, h, ?_⟩
    rw [hplain]
    simp [h]

/-- Blanks at the beginning are stripped before or after escaping. -/
theorem lstrip_escapeField (l : List Char) : lstrip (escapeField l) = escapeField (lstrip l) := by
  induction l with
  | nil => rfl
  | cons c l ih =>
    by_cases hspace : isSpace c = true
    · rw [escapeField_cons_of_isSpace hspace, lstrip, lstrip, List.dropWhile_cons_of_pos hspace,
        List.dropWhile_cons_of_pos hspace]
      exact ih
    -- the first character that is no blank stays one when it is escaped
    · have hspace : isSpace c = false := by simpa using hspace
      obtain ⟨-, -, -, -, hhead⟩ := escapeField_isSpace_ends hspace
      rw [lstrip_cons_of_not_isSpace hspace]
      have hcons : escapeField (c :: l) = escapeField [c] ++ escapeField l :=
        escapeField_append [c] l
      rw [hcons]
      cases hfirst : escapeField [c] with
      | nil =>
        rw [hfirst] at hhead
        simp at hhead
      | cons d rest =>
        rw [hfirst] at hhead
        exact lstrip_cons_of_not_isSpace (by simpa using hhead) _

theorem rstrip_escapeField (l : List Char) : rstrip (escapeField l) = escapeField (rstrip l) := by
  induction l using List.reverseRecOn with
  | nil => rfl
  | append_singleton l c ih =>
    rw [escapeField_append]
    by_cases hspace : isSpace c = true
    · have hone : escapeField [c] = [c] := escapeField_cons_of_isSpace hspace []
      rw [hone, rstrip_append_space _ hspace, rstrip_append_space _ hspace, ih]
    · have hspace : isSpace c = false := by simpa using hspace
      obtain ⟨first, last, hone, hlast, -⟩ := escapeField_isSpace_ends hspace
      have hnil : rstrip [] = [] := rfl
      rw [rstrip_append_cons l hspace, hnil, escapeField_append, hone, ← List.append_assoc,
        rstrip_append_cons _ hlast, hnil]

/-- **An SSID is read back as it is exactly where `nmcli` has nothing to escape in it and
`str.strip` nothing to drop.** -/
theorem readBackSsid_eq_iff {ssid : String} (hvalid : validateSsid ssid = .ok ssid) :
    readBackSsid ssid = some ssid ↔ Unescaped ssid.toList ∧ strip ssid = ssid := by
  have hprinted : (strip (String.ofList (escapeField ssid.toList ++ ['\n']))).toList
      = escapeField (stripChars isSpace ssid.toList) := by
    rw [strip, String.toList_ofList, String.toList_ofList, stripChars_append_space _ (by decide),
      stripChars_isSpace, stripChars_isSpace, lstrip_escapeField, rstrip_escapeField]
  have hstrip : strip ssid = ssid ↔ stripChars isSpace ssid.toList = ssid.toList := by
    rw [strip, ← String.toList_inj, String.toList_ofList]
  rw [hstrip]
  constructor
  · intro h
    unfold readBackSsid at h
    split at h
    · next read hread =>
      have hsame : strip (String.ofList (escapeField ssid.toList ++ ['\n'])) = ssid :=
        (validateSsid_eq_ok hread).1.symm.trans (Option.some.inj h)
      rw [hsame] at hprinted
      -- what is read back has no white space around it, and neither has the SSID then
      have hchars : stripChars isSpace (escapeField ssid.toList ++ ['\n']) = ssid.toList := by
        rw [← String.toList_inj, strip, String.toList_ofList, String.toList_ofList] at hsame
        exact hsame
      have houter : stripChars isSpace ssid.toList = ssid.toList := by
        have hidem := stripChars_idem (escapeField ssid.toList ++ ['\n'])
        rw [hchars] at hidem
        exact hidem
      rw [houter] at hprinted
      exact ⟨unescaped_of_length (by rw [← hprinted]), houter⟩
    · exact absurd h (by simp)
  · intro h
    obtain ⟨hplain, houter⟩ := h
    have hsame : strip (String.ofList (escapeField ssid.toList ++ ['\n'])) = ssid := by
      rw [← String.toList_inj, hprinted, houter, escapeField_of_unescaped hplain]
    rw [readBackSsid, hsame, hvalid]

/-! ## Calls while the link stands

The methods of the backend when the saved profile is up and every command is done. -/

/-- The runner over the profiles while every command is done and the connection that carries the
saved name is the active one. -/
def linked : Env RunnerCall RunnerAnswer ProfileStore :=
  .sequential (fun _ _ => True) fun call s r s' => ∃ choice : Choice,
    (call.command = .showDevice → choice.output = SAVED_PROFILE.text ++ "\n") ∧
      r = .ok (call.command.answer choice s) ∧ s' = call.command.effect choice.created s

/-- The worker alone, over the fields of the controller and the profiles. -/
def workerLinked : Env (WorkerOp RunnerCall) (WorkerAns RunnerAnswer)
    (NetworkController × ProfileStore) :=
  .sequential (fun _ _ => True) fun o s r s' =>
    match o with
    | .locked body => r = (body s.1).1 ∧ s' = ((body s.1).2, s.2)
    | .backend b => linked.exec b s.2 r s'.2 ∧ s'.1 = s.1
    | _ => s' = s

/-- The saved profile of `before` is the one of `s`, with the same SSID. -/
structure StaysSaved (before s : ProfileStore) : Prop where
  named : ∀ v, Holds s.get SAVED_PROFILE v ↔ Holds before.get SAVED_PROFILE v
  ssid : ∀ v q, before.get v = some q → q.id = SAVED_PROFILE →
    ∃ q', s.get v = some q' ∧ q'.ssid = q.ssid

/-- The later calls report the SSID, and a reconciliation changes nothing. -/
structure SameSsid [PyUnicode] (ssid : String) (s : ProfileStore) : Prop where
  active : ∀ out s', Backend.activeStationSsid.Runs linked s out s' → out = .ok (some ssid)
  activated : ∀ out s', Backend.activateSavedStation.Runs linked s out s' →
    out = .ok (true, some ssid, none)
  reconciled : ∀ self out self' s', self.mode = .stationConnected → self.stationSsid = some ssid →
    (Worker.reconcile networkManagerBackend).Runs workerLinked (self, s) out (self', s') →
      out = .ok () ∧ self' = self

section

variable {α : Type} {s : ProfileStore} {p : Uuid} {q : Profile} {Q : α → ProfileStore → Prop}

/-- A command is done, and the device shows the saved profile. -/
theorem wp_linked_run {c : Command} {Q : CommandResult → ProfileStore → Prop}
    {R : PyErr → ProfileStore → Prop}
    (h : ∀ choice : Choice, (c = .showDevice → choice.output = SAVED_PROFILE.text ++ "\n") →
      Q (c.answer choice s) (c.effect choice.created s)) :
    (Backend.run c).wp linked Q R s := by
  intro t ht
  obtain rfl : s = t := ht
  refine ⟨trivial, ?_⟩
  intro r t hexec
  obtain ⟨choice, houtput, hr, ht⟩ := hexec
  rw [hr, ht]
  intro t ht
  obtain rfl : c.effect choice.created s = t := ht
  exact h choice houtput

theorem wp_linked_ret {R : PyErr → ProfileStore → Prop} {a : α} (h : Q a s) :
    (Prog.ret a : Backend α).wp linked Q R s := by
  intro t ht
  obtain rfl : s = t := ht
  exact h

/-- A command that is done with return code 0. -/
theorem wp_linked_succeeds {c : Command} {Q : Bool → ProfileStore → Prop}
    {R : PyErr → ProfileStore → Prop} (hanswer : ∀ choice, (c.answer choice s).returncode = 0)
    (heffect : ∀ created, c.effect created s = s) (h : Q true s) :
    (Backend.succeeds c).wp linked Q R s := by
  apply wp_bind.mpr
  apply wp_linked_run
  intro choice _
  rw [heffect]
  apply wp_linked_ret
  rw [hanswer]
  exact h

/-- Every method has a run. -/
theorem exists_linked_run (m : Backend α) (s : ProfileStore) :
    ∃ out s', m.Runs linked s out s' := by
  induction m generalizing s with
  | ret a => exact ⟨.ok a, s, .ret rfl⟩
  | raise e => exact ⟨.error e, s, .raise rfl⟩
  | op call k ih =>
    let choice : Choice := ⟨.done, .repeated 0, ⟨1, by decide⟩, SAVED_PROFILE.text ++ "\n"⟩
    obtain ⟨out, s', hrest⟩ := ih (.ok (call.command.answer choice s))
      (call.command.effect choice.created s)
    exact ⟨out, s', .op rfl ⟨choice, fun _ => rfl, rfl, rfl⟩ hrest⟩

/-- `_saved_ssid` reads the SSID back. -/
theorem wp_linked_savedSsid {selector : Option Uuid} {Q : Option String → ProfileStore → Prop}
    {R : PyErr → ProfileStore → Prop}
    (hprinted : ∀ choice, (Command.getSsid selector).answer choice s = ⟨0, q.printedSsid⟩)
    (h : Q (readBackSsid q.ssid) s) : (Backend.savedSsid selector).wp linked Q R s := by
  apply wp_bind.mpr
  apply wp_linked_run
  intro choice _
  rw [hprinted]
  have heffect : (Command.getSsid selector).effect choice.created s = s := rfl
  rw [heffect]
  unfold readBackSsid at h
  simp only [Profile.printedSsid, if_true]
  split
  · next hread =>
    rw [hread] at h
    exact wp_linked_ret h
  · next hread =>
    rw [hread] at h
    exact wp_linked_ret h

theorem wp_linked_activeStationSsid {R : PyErr → ProfileStore → Prop}
    (hp : s.get p = some q) (halone : ∀ v, Holds s.get SAVED_PROFILE v ↔ v = p) :
    Backend.activeStationSsid.wp linked (fun r s' => r = readBackSsid q.ssid ∧ s' = s) R s := by
  apply wp_bind.mpr
  apply wp_bind.mpr
  apply wp_linked_run
  intro choice houtput
  have hanswer : Command.showDevice.answer choice s = ⟨0, choice.output⟩ := rfl
  have heffect : Command.showDevice.effect choice.created s = s := rfl
  have hname : strip (SAVED_PROFILE.text ++ "\n") = SAVED_PROFILE.text := by decide
  rw [hanswer, heffect, houtput rfl, if_pos rfl, hname]
  apply wp_linked_ret
  rw [if_neg (by simp)]
  refine wp_linked_savedSsid (q := q) ?_ ⟨rfl, rfl⟩
  intro choice
  have hnamed : s.named SAVED_PROFILE = [p] := ProfileStore.named_eq_singleton.mpr halone
  simp [Command.answer, hnamed, hp, onProfile]

/-- The saved profile is found. -/
theorem wp_linked_profileUuid {R : PyErr → ProfileStore → Prop}
    {Q : Bool × Option Uuid → ProfileStore → Prop}
    (halone : ∀ v, Holds s.get SAVED_PROFILE v ↔ v = p) (h : Q (true, some p) s) :
    (Backend.profileUuid SAVED_PROFILE).wp linked Q R s := by
  apply wp_bind.mpr
  apply wp_linked_run
  intro choice _
  have hanswer : Command.listProfiles.answer choice s = ⟨0, s.listing⟩ := rfl
  have heffect : Command.listProfiles.effect choice.created s = s := rfl
  rw [hanswer, heffect, if_neg (by simp)]
  apply wp_linked_ret
  rw [ProfileStore.profileMatches_listing, ProfileStore.named_eq_singleton.mpr halone]
  exact h

/-- The saved profile has its name. -/
theorem wp_linked_profileHasIdentity {R : PyErr → ProfileStore → Prop}
    {Q : Bool → ProfileStore → Prop} (hp : s.get p = some (q.rename SAVED_PROFILE))
    (h : Q true s) : (Backend.profileHasIdentity p SAVED_PROFILE).wp linked Q R s := by
  -- both properties are read alike
  have hproperty : ∀ (property : ProfileProperty) (text : String) {Q : Option String →
      ProfileStore → Prop}, (∀ choice, (Command.getProperty p property).answer choice s = ⟨0, text⟩) →
      Q (some (strip text)) s → (Backend.profileProperty p property).wp linked Q R s := by
    intro property text Q hanswer h
    apply wp_bind.mpr
    apply wp_linked_run
    intro choice _
    have heffect : (Command.getProperty p property).effect choice.created s = s := rfl
    rw [hanswer, heffect, if_pos rfl]
    exact wp_linked_ret h
  apply wp_bind.mpr
  apply hproperty .connectionId SAVED_PROFILE.text
  · intro choice
    simp [Command.answer, hp, onProfile, Profile.rename]
  rw [if_pos (by rw [strip_savedProfile])]
  apply wp_bind.mpr
  apply hproperty .connectionAutoconnect "no"
  · intro choice
    simp [Command.answer, hp, onProfile, Profile.rename]
  apply wp_linked_ret
  have hno : strip "no" = "no" := by decide
  rw [hno]
  exact h

/-- A profile takes the saved name. -/
theorem wp_linked_takeSavedName {R : PyErr → ProfileStore → Prop}
    {Q : Option Uuid → ProfileStore → Prop} (hp : s.get p = some q)
    (h : Q (some p) (s.modify p fun q => q.rename SAVED_PROFILE)) :
    (Backend.takeSavedName p).wp linked Q R s := by
  have hrenamed : (s.modify p fun q => q.rename SAVED_PROFILE).get p
      = some (q.rename SAVED_PROFILE) := by
    rw [ProfileStore.get_modify, Function.update_self, hp, Option.map_some]
  apply wp_bind.mpr
  apply wp_bind.mpr
  apply wp_linked_run
  intro choice _
  have hanswer : (Command.setIdentity p SAVED_PROFILE).answer choice s = ⟨0, ""⟩ := by
    simp [Command.answer, hp, onProfile]
  rw [hanswer]
  apply wp_linked_ret
  rw [if_neg (by simp)]
  apply wp_bind.mpr
  apply wp_linked_profileHasIdentity hrenamed
  rw [if_neg (by simp)]
  exact wp_linked_ret h

/-- `activate_saved_station` reports the SSID that is read back. -/
theorem wp_linked_activateSavedStation {R : PyErr → ProfileStore → Prop}
    (hp : s.get p = some q) (halone : ∀ v, Holds s.get SAVED_PROFILE v ↔ v = p) :
    Backend.activateSavedStation.wp linked
      (fun r _ => r = (true, readBackSsid q.ssid, none)) R s := by
  apply wp_bind.mpr
  apply wp_bind.mpr
  apply wp_linked_profileUuid halone
  show Prog.wp linked (Backend.takeSavedName p) _ _ s
  apply wp_linked_takeSavedName hp
  have hrenamed : (s.modify p fun q => q.rename SAVED_PROFILE).get p
      = some (q.rename SAVED_PROFILE) := by
    rw [ProfileStore.get_modify, Function.update_self, hp, Option.map_some]
  -- of the store after the rename only the profile matters
  generalize s.modify p (fun q => q.rename SAVED_PROFILE) = s' at hrenamed
  dsimp only
  apply wp_bind.mpr
  apply wp_linked_succeeds (fun _ => rfl) (fun _ => rfl)
  rw [if_neg (by simp)]
  apply wp_bind.mpr
  apply wp_linked_succeeds (fun _ => rfl) (fun _ => rfl)
  rw [if_neg (by simp)]
  apply wp_bind.mpr
  apply wp_linked_run
  intro choice _
  have hanswer : (Command.upUuid p).answer choice s' = ⟨0, ""⟩ := by
    simp [Command.answer, hrenamed, onProfile]
  have heffect : (Command.upUuid p).effect choice.created s' = s' := rfl
  rw [hanswer, heffect, if_neg (by simp)]
  apply wp_bind.mpr
  refine wp_linked_savedSsid (q := q.rename SAVED_PROFILE) ?_ (wp_linked_ret rfl)
  intro choice
  simp [Command.answer, hrenamed, onProfile]

/-! ## A reconciliation

The worker's periodic check in the same surroundings. It writes the SSID that is read back. -/

section

variable {self self' : NetworkController} {Q : α → NetworkController × ProfileStore → Prop}
  {R : PyErr → NetworkController × ProfileStore → Prop}

/-- A method within the worker. -/
theorem wp_workerLinked_ofBackend {m : Backend α}
    (h : m.wp linked (fun a s' => Q a (self, s')) (fun e s' => R e (self, s')) s) :
    (Worker.ofBackend m).wp workerLinked Q R (self, s) := by
  -- on the program; the worker's own data is not touched by a command
  induction m generalizing s with
  | ret a =>
    intro st ht
    obtain rfl : (self, s) = st := ht
    exact h s rfl
  | raise e =>
    intro st ht
    obtain rfl : (self, s) = st := ht
    exact h s rfl
  | op b k ih =>
    intro st ht
    obtain rfl : (self, s) = st := ht
    refine ⟨trivial, ?_⟩
    intro r st hexec
    obtain ⟨self', s'⟩ := st
    obtain ⟨hexec, hself⟩ := hexec
    obtain rfl : self' = self := hself
    exact ih r ((h s rfl).2 r s' hexec)

theorem wp_workerLinked_ret {a : α} {st : NetworkController × ProfileStore} (h : Q a st) :
    (Prog.ret a : Worker RunnerCall RunnerAnswer α).wp workerLinked Q R st := by
  intro st' ht
  obtain rfl : st = st' := ht
  exact h

/-- A block under `_lock`. -/
theorem wp_workerLinked_locked {body : Locked α} {a : α} (hbody : body self = (.ok a, self'))
    (h : Q a (self', s)) : (Worker.locked body).wp workerLinked Q R (self, s) := by
  intro st ht
  obtain rfl : (self, s) = st := ht
  refine ⟨trivial, ?_⟩
  intro r st hexec
  obtain ⟨hr, hst⟩ := hexec
  rw [hbody] at hr hst
  rw [hr, hst]
  exact wp_workerLinked_ret h

/-- A program under the operation lock. -/
theorem wp_workerLinked_withOperation {m : Worker RunnerCall RunnerAnswer α}
    {st : NetworkController × ProfileStore} (h : m.wp workerLinked Q R st) :
    (Worker.withOperation m).wp workerLinked Q R st := by
  -- taking and giving back `_operation_lock` changes neither the controller nor the profiles
  have hkeeps : ∀ {β : Type} {o : WorkerOp RunnerCall} {k : WorkerAns RunnerAnswer o →
      Worker RunnerCall RunnerAnswer β} {Q : β → NetworkController × ProfileStore → Prop}
      {R : PyErr → NetworkController × ProfileStore → Prop} {st : NetworkController × ProfileStore},
      (∀ r st', workerLinked.exec o st r st' → st' = st) → (∀ r, (k r).wp workerLinked Q R st) →
      (Prog.op o k).wp workerLinked Q R st := by
    intro β o k Q R st hexec h st' ht
    obtain rfl : st = st' := ht
    refine ⟨trivial, ?_⟩
    intro r st' hr
    rw [hexec r st' hr]
    exact h r
  apply hkeeps
  · exact fun _ _ hexec => hexec
  intro _
  apply wp_finallyDo.mpr
  apply wp_mono h
  · intro a st' ha
    apply hkeeps
    · exact fun _ _ hexec => hexec
    intro _
    exact wp_workerLinked_ret (wp_workerLinked_ret ha)
  · intro e st' he
    apply hkeeps
    · exact fun _ _ hexec => hexec
    intro _
    apply wp_workerLinked_ret
    intro st'' ht
    obtain rfl : st' = st'' := ht
    exact he

section

variable [PyUnicode] {ssid : String} (hp : s.get p = some q)
  (halone : ∀ v, Holds s.get SAVED_PROFILE v ↔ v = p) (hread : readBackSsid q.ssid = some ssid)
  (hmode : self.mode = .stationConnected) (hssid : self.stationSsid = some ssid)

include hp halone hread hmode hssid

/-- `_reconcile_station` leaves the controller as it is, once the SSID has been read back. -/
theorem wp_workerLinked_reconcileStation :
    (Worker.reconcileStation networkManagerBackend).wp workerLinked (fun _ st => st.1 = self)
      (fun _ _ => False) (self, s) := by
  apply wp_bind.mpr
  apply wp_handle.mpr
  apply wp_workerLinked_ofBackend
  apply wp_mono (wp_linked_activeStationSsid hp halone)
  · intro r t hr
    have hr : r = readBackSsid q.ssid ∧ t = s := hr
    rw [hr.1, hr.2]
    apply wp_workerLinked_ret
    apply wp_bind.mpr
    -- the SSID read back is the one that the state has
    have hchecked : Locked.checkStation (readBackSsid q.ssid) self = (.ok false, self) := by
      unfold Locked.checkStation
      rw [if_neg (by simp [hmode]), hread]
      show (_, { self with stationSsid := some ssid }) = _
      rw [← hssid]
    apply wp_workerLinked_locked hchecked
    rw [if_neg (by simp)]
    exact wp_workerLinked_ret rfl
  · exact fun _ _ h => h

/-- A reconciliation that reads the SSID back changes nothing. -/
theorem wp_workerLinked_reconcile :
    (Worker.reconcile networkManagerBackend).wp workerLinked (fun _ st => st.1 = self)
      (fun _ _ => False) (self, s) := by
  apply wp_bind.mpr
  have hbody : Locked.snapshot self = (.ok self.snapshot, self) := rfl
  apply wp_workerLinked_locked hbody
  have hsnapshot : self.snapshot.mode = .stationConnected := hmode
  dsimp only
  rw [hsnapshot]
  apply wp_workerLinked_withOperation
  exact wp_workerLinked_reconcileStation hp halone hread hmode hssid

end

end

end

/-! ## The SSID that was connected

From the call that connects to the later checks: the profile stays what it is, and so does what is
read back. -/

section

variable [PyUnicode] {ssid : String} {password : Option String} {s₀ s : ProfileStore} {w : World}
  {out : Except PyErr StationResult}

omit [PyUnicode] in
/-- Renaming a profile keeps its SSID. -/
theorem contentAfter_ssid {u : Uuid} {first second : ProfileName} {l : List CommandEvent}
    {a b : Profile} (h : contentAfter u first second l (some a) = some b) : b.ssid = a.ssid := by
  unfold contentAfter at h
  split at h
  · cases h
  · split at h
    · rw [← Option.some.inj h]
      rfl
    · split at h
      · rw [← Option.some.inj h]
        rfl
      · rw [← Option.some.inj h]

/-- A successful call saves the SSID it was asked for. -/
theorem ssid_of_connected
    (run : (Backend.connectStation ssid password).Runs nmcli ⟨s₀, []⟩ out w)
    (hout : succeeded out = true) :
    validateSsid ssid = .ok ssid ∧ ∃ p q, (∀ v, Holds w.store.get SAVED_PROFILE v ↔ v = p) ∧
      w.store.get p = some q ∧ q.ssid = ssid := by
  have hwithin : Prog.Within (fun _ => True) (Backend.connectStation ssid password)
      (StationTexts (fun s => validateSsid ssid = .ok s) ReasonAccepted) :=
    within_connectStation (fun _ => trivial) (fun _ _ _ => trivial) ssid
  have hstable : Stable nmcli fun _ => True := fun _ _ _ _ => trivial
  -- the SSID of a result has passed the validator that the request passed
  have hreported : ∀ r, out = .ok r → ∀ x, r.2.1 = some x → validateSsid ssid = .ok x := by
    intro r hr
    rw [hr] at run
    exact (hwithin.runs hstable (fun _ _ _ _ _ _ _ => trivial) run trivial).2.1
  obtain ⟨l, hconn, -⟩ := connected_of_runs run
  generalize w.store.get = g' at hconn
  cases hconn with
  | untouched hfailed =>
    cases out with
    | ok r =>
      rw [succeeded, hfailed r rfl] at hout
      cases hout
    | error e => cases hout
  | aborted hfailed =>
    rw [succeeded, hfailed] at hout
    cases hout
  | rolledBack hfailed =>
    rw [succeeded, hfailed] at hout
    cases hout
  | @promoted previous p saved g₁ l l' old' new' up promotion =>
    have hsaved := hreported _ rfl saved rfl
    have hsame : saved = ssid := (validateSsid_eq_ok hsaved).1
    rw [hsame] at hsaved up promotion
    refine ⟨hsaved, p, ?_⟩
    have hold : ∀ u ∈ previous, old' = contentAfter u PREVIOUS_PROFILE SAVED_PROFILE l' (g₁ u) := by
      intro u hu
      cases hu
      exact promotion.old_eq (up.ne u rfl)
    -- the saved profile is the candidate, and renaming it keeps its SSID
    have hattempt := up.attempt (.promoted up.commands promotion.log) (promotion.new_eq up.ne) hold
    have hreplaced := hattempt.succeeds
    obtain ⟨q, hq, -⟩ := (hreplaced.saved p).mpr rfl
    refine ⟨q, hreplaced.saved, hq, ?_⟩
    rw [cells_new, promotion.new_eq up.ne] at hq
    exact contentAfter_ssid hq

/-- **The later calls report the SSID that was connected exactly where `nmcli` prints it as it is
and `str.strip` leaves it alone.** -/
theorem sameSsid_iff
    (run : (Backend.connectStation ssid password).Runs nmcli ⟨s₀, []⟩ out w)
    (hout : succeeded out = true) (stays : StaysSaved w.store s) :
    SameSsid ssid s ↔ Unescaped ssid.toList ∧ strip ssid = ssid := by
  obtain ⟨hvalid, p, q, hnamed, hq, hssid⟩ := ssid_of_connected run hout
  have halone : ∀ v, Holds s.get SAVED_PROFILE v ↔ v = p :=
    fun v => (stays.named v).trans (hnamed v)
  obtain ⟨b, hb, hid⟩ := (hnamed p).mpr rfl
  rw [hq] at hb
  rw [← Option.some.inj hb] at hid
  obtain ⟨q', hq', hssid'⟩ := stays.ssid p q hq hid
  -- what `nmcli` prints of the profile now is what it prints of the SSID connected
  have hback : readBackSsid q'.ssid = readBackSsid ssid := by rw [hssid', hssid]
  rw [← readBackSsid_eq_iff hvalid, ← hback]
  constructor
  · intro hsame
    -- some run of the first of the calls is enough here
    obtain ⟨out', s', hrun⟩ := exists_linked_run Backend.activeStationSsid s
    have hactive := hsame.active out' s' hrun
    have hread := wp_runs (wp_linked_activeStationSsid hq' halone (R := fun _ _ => True)) hrun
    exact (hread.1 _ hactive).1.symm
  · intro hread
    -- the three calls that report it: the read, the activation at start and the reconciliation
    constructor
    · intro out' s' hrun
      have hpost := wp_runs (wp_linked_activeStationSsid hq' halone (R := fun _ _ => False)) hrun
      cases out' with
      | ok r => rw [(hpost.1 r rfl).1, hread]
      | error e => exact (hpost.2 e rfl).elim
    · intro out' s' hrun
      have hpost := wp_runs (wp_linked_activateSavedStation hq' halone (R := fun _ _ => False)) hrun
      cases out' with
      | ok r => rw [hpost.1 r rfl, hread]
      | error e => exact (hpost.2 e rfl).elim
    · intro self out' self' s' hmode hstation hrun
      have hpost := wp_runs (wp_workerLinked_reconcile hq' halone hread hmode hstation) hrun
      cases out' with
      | ok r => exact ⟨rfl, hpost.1 r rfl⟩
      | error e => exact (hpost.2 e rfl).elim

end

theorem StaysSaved.refl (s : ProfileStore) : StaysSaved s s where
  named _ := Iff.rfl
  ssid _ q hq _ := ⟨q, hq, rfl⟩

theorem sameSsid_cafe :
    @SameSsid asciiUnicode "cafe" (joinCafe (allDone 1) noStation).2.store := by
  have hout : succeeded (joinCafe (allDone 1) noStation).1 = true := by decide +kernel
  have hcafe : Unescaped "cafe".toList ∧ strip "cafe" = "cafe" := by
    decide
  exact (@sameSsid_iff asciiUnicode _ _ _ _ _ _ (Backend.runs_replay (allDone 1) _ _) hout
    (.refl _)).mpr hcafe

/-- The open network of this name is in range, and every command is done. -/
def labJoined : Except PyErr StationResult × World :=
  Backend.replay (.withOutcomes "lab\\:net:50::" (.repeated 1) fun _ => .done)
    (@Backend.connectStation asciiUnicode "lab:net" none) ⟨noStation, []⟩

/-- **The SSID of a working link is read back with a backslash in it.** -/
theorem not_sameSsid : ¬∀ (_ : PyUnicode) (ssid : String) (password : Option String)
    (s₀ s : ProfileStore) (out : Except PyErr StationResult) (w : World),
    (Backend.connectStation ssid password).Runs nmcli ⟨s₀, []⟩ out w → succeeded out = true →
      StaysSaved w.store s → SameSsid ssid s := by
  intro hall
  have hrun : (@Backend.connectStation asciiUnicode "lab:net" none).Runs nmcli ⟨noStation, []⟩
      labJoined.1 labJoined.2 := Backend.runs_replay _ _ _
  have hout : succeeded labJoined.1 = true := by decide +kernel
  have hsame := hall asciiUnicode _ _ _ _ _ _ hrun hout (.refl _)
  obtain ⟨hplain, -⟩ := (@sameSsid_iff asciiUnicode _ _ _ _ _ _ hrun hout (.refl _)).mp hsame
  have hcolon : ':' ∈ "lab:net".toList := by decide
  exact hplain.1 hcolon

end Rave
