import RaveDeployment.Profiles.Promotion

/-!
# What `connect_station` does to the profiles

`wp_connectStation` lists the ways a call can end, for any profiles, any request and any outcome of
every command (`Connected`):

* `untouched`: it gave up before its first change;
* `aborted`: it gave up before the promotion. Only candidates have come or gone (`OnlyPending`), and
  unless two commands failed nothing is left that was not there before (`Within`);
* `promoted` and `rolledBack`: it brought a candidate of its own up, and `Promotion` and `Rollback`
  tell the rest.
-/

namespace Rave

open Prog

/-! ## Changes to candidates

Before the promotion a call touches only profiles under the pending name. -/

def PendingOrNone (p : Option Profile) : Prop :=
  ∀ q ∈ p, q.id = PENDING_PROFILE

def OnlyPending (g g' : Profiles) : Prop :=
  ∀ v, g' v = g v ∨ PendingOrNone (g v) ∧ PendingOrNone (g' v)

/-- Every profile of `g'` is one of `g`, unchanged. -/
def Within (g' g : Profiles) : Prop :=
  ∀ v q, g' v = some q → g v = some q

variable {g g' g'' : Profiles} {name : ProfileName} {u v : Uuid}

theorem Within.refl (g : Profiles) : Within g g :=
  fun _ _ h => h

theorem within_eraseNamed (h : Within g' g) (name : ProfileName) :
    Within (Profiles.eraseNamed g' name) g := by
  intro v q hq
  exact h v q (Option.filter_eq_some_iff.mp hq).1

theorem OnlyPending.refl (g : Profiles) : OnlyPending g g :=
  fun _ => .inl rfl

/-- Changes to candidates, one after the other. -/
theorem OnlyPending.trans (h : OnlyPending g g') (h' : OnlyPending g' g'') :
    OnlyPending g g'' := by
  intro v
  rcases h v with hv | ⟨hv, hv'⟩
  · rcases h' v with hw | ⟨hw, hw'⟩
    · exact .inl (hw.trans hv)
    · exact .inr ⟨hv ▸ hw, hw'⟩
  · rcases h' v with hw | ⟨-, hw'⟩
    · exact .inr ⟨hv, hw ▸ hv'⟩
    · exact .inr ⟨hv, hw'⟩

/-- One of two such changes. -/
theorem OnlyPending.pick (h : OnlyPending g g') (h' : OnlyPending g g'') (o : Outcome) :
    OnlyPending g (o.pick g' g'') := by
  cases o
  · exact h'
  · exact h
  · exact h'

/-- Other profiles stay as they are. -/
theorem OnlyPending.keeps (h : OnlyPending g g') {q : Profile} (hq : g v = some q)
    (hid : q.id ≠ PENDING_PROFILE) : g' v = some q := by
  rcases h v with hv | ⟨hv, -⟩
  · rw [hv, hq]
  · exact absurd (hv q hq) hid

/-- The other names are carried as before. -/
theorem OnlyPending.holds (h : OnlyPending g g') (hname : name ≠ PENDING_PROFILE) :
    Holds g' name v ↔ Holds g name v := by
  rcases h v with hv | ⟨hv, hv'⟩
  · rw [Holds, hv, Holds]
  · constructor
    · rintro ⟨q, hq, hid⟩
      exact absurd (hid.symm.trans (hv' q hq)) hname
    · rintro ⟨q, hq, hid⟩
      exact absurd (hid.symm.trans (hv q hq)) hname

theorem onlyPending_eraseNamed (g : Profiles) :
    OnlyPending g (Profiles.eraseNamed g PENDING_PROFILE) := by
  intro v
  unfold Profiles.eraseNamed
  cases hv : g v with
  | none => exact .inl rfl
  | some q =>
    by_cases hid : q.id = PENDING_PROFILE
    · refine .inr ⟨?_, ?_⟩
      · rintro q' hq'
        cases hq'
        exact hid
      · simp [PendingOrNone, hid]
    · exact .inl (by simp [hid])

/-- Putting a candidate where there was one, or nothing. -/
theorem onlyPending_update {p : Option Profile} (hu : PendingOrNone (g u)) (hp : PendingOrNone p) :
    OnlyPending g (Function.update g u p) := by
  intro v
  by_cases hv : v = u
  · subst hv
    exact .inr ⟨hu, by rwa [Function.update_self]⟩
  · exact .inl (Function.update_of_ne hv _ _)

theorem pendingOrNone_none : PendingOrNone none := by
  simp [PendingOrNone]

theorem pendingOrNone_some {q : Profile} (h : q.id = PENDING_PROFILE) :
    PendingOrNone (some q) := by
  rintro q' hq'
  cases hq'
  exact h

/-- The candidate `_create_pending_profile` adds. -/
def candidate (ssid : String) : Profile where
  id := PENDING_PROFILE
  autoconnect := false
  ssid := ssid

/-! ## The ways a call can end

It gives up before a candidate is up, or it attempts a promotion. -/

/-- The commands before an activation: none of them works on a profile by its UUID. -/
def Preliminary (l : List CommandEvent) : Prop :=
  ∀ e ∈ l, (∀ v name, e.command ≠ .setIdentity v name) ∧ (∀ v, e.command ≠ .deleteUuid v) ∧
    ∀ v, e.command ≠ .upUuid v

/-- No profile is given a name, and by UUID only a candidate is deleted. -/
def Harmless (g : Profiles) (l : List CommandEvent) : Prop :=
  ∀ e ∈ l, (∀ v name, e.command ≠ .setIdentity v name) ∧
    ∀ v, e.command = .deleteUuid v → PendingOrNone (g v)

/-- Two logs before an activation. -/
theorem Preliminary.append {l l' : List CommandEvent} (h : Preliminary l)
    (h' : Preliminary l') : Preliminary (l ++ l') := by
  intro e he
  rcases List.mem_append.mp he with he | he
  · exact h e he
  · exact h' e he

theorem preliminary_of_readsOnly {l : List CommandEvent} (h : ReadsOnly l) : Preliminary l := by
  intro e he
  have hread := h e he
  refine ⟨fun v name hc => ?_, fun v hc => ?_, fun v hc => ?_⟩ <;>
  · rw [hc] at hread
    cases hread

theorem Preliminary.harmless {l : List CommandEvent} (h : Preliminary l) (g : Profiles) :
    Harmless g l :=
  fun e he => ⟨(h e he).1, fun v hv => absurd hv ((h e he).2.1 v)⟩

/-- It names and deletes no profile by its UUID. -/
theorem Preliminary.not_took {l : List CommandEvent} (h : Preliminary l) {v : Uuid} :
    (∀ name, ¬Took l (.setIdentity v name)) ∧ ¬Took l (.deleteUuid v) := by
  refine ⟨?_, ?_⟩
  · rintro name ⟨e, he, hc, -⟩
    exact (h e he).1 v name hc
  · rintro ⟨e, he, hc, -⟩
    exact (h e he).2.1 v hc

/-- What holds when the candidate `p` is brought up: the profiles are those of `g₁`, the commands
before are `l`, and `previous` is what carried the saved name at first. -/
structure BroughtUpCandidate (g : Profiles) (previous : Option Uuid) (p : Uuid) (ssid : String)
    (g₁ : Profiles) (l : List CommandEvent) : Prop where
  previous : ∀ v, Holds g SAVED_PROFILE v ↔ previous = some v
  absent : PendingOrNone (g p)
  new : g₁ p = some (candidate ssid)
  others : OnlyPending g g₁
  created : ∀ v q, v ≠ p → g₁ v = some q → g v = some q
  /-- No other candidate is left. -/
  alone : ∀ v, Holds g₁ PENDING_PROFILE v → v = p
  commands : Preliminary l

/-- The ways a `connect_station` can end: its result, its commands, the profiles it leaves. -/
inductive Connected (g : Profiles) : Except PyErr StationResult → List CommandEvent → Profiles →
    Prop where
  | untouched {out : Except PyErr StationResult} {l : List CommandEvent}
      (hout : ∀ r, out = .ok r → r.1 = false) (hreads : ReadsOnly l) : Connected g out l g
  | aborted {r : StationResult} {l : List CommandEvent} {g' : Profiles} (hr : r.1 = false)
      (hcommands : Harmless g l) (hothers : OnlyPending g g')
      (hcleaned : faults l ≤ 1 → Within g' g) : Connected g (.ok r) l g'
  | promoted {previous : Option Uuid} {p : Uuid} {ssid : String} {g₁ : Profiles}
      {l l' : List CommandEvent} {old' new' : Option Profile}
      (up : BroughtUpCandidate g previous p ssid g₁ l)
      (promotion : Promotion previous p l' true (previous.bind g₁) (some (candidate ssid)) old' new') :
      Connected g (.ok (true, some ssid, none)) (l ++ ⟨.upUuid p, .done⟩ :: l')
        (cells g₁ previous p old' new')
  | rolledBack {previous : Option Uuid} {p : Uuid} {ssid : String} {g₁ : Profiles}
      {l l' l'' : List CommandEvent} {old' new' old'' new'' : Option Profile} {r : StationResult}
      (hr : r.1 = false) (up : BroughtUpCandidate g previous p ssid g₁ l)
      (promotion : Promotion previous p l' false (previous.bind g₁) (some (candidate ssid)) old' new')
      (rollback : Rollback p previous l'' old' new' old'' new'') :
      Connected g (.ok r) (l ++ ⟨.upUuid p, .done⟩ :: (l' ++ l'')) (cells g₁ previous p old'' new'')

/-! ## The methods before the promotion

The scan, the creation of a candidate and its activation. -/

section

variable {R : PyErr → World → Prop} {w : World}

theorem effect_of_read {c : Command} (h : c.isWrite = false) (created : Uuid) (s : ProfileStore) :
    c.effect created s = s := by
  cases c <;> first | rfl | cases h

/-- A command that changes nothing. -/
theorem wp_run_read {c : Command} (hc : c.isWrite = false) {Q : CommandResult → World → Prop}
    (h : ∀ r w' o, Extends w [⟨c, o⟩] w.store.get w' → (r.returncode = 0 → o = .done) → Q r w') :
    (Backend.run c).wp nmcli Q R w := by
  refine wp_run fun choice => h _ _ choice.outcome ?_ ?_
  · simpa [effect_of_read hc] using execute_extends c choice w
  · exact fun hzero => ((execute_returncode _ _ _).mp hzero).1

/-- `scan` reads. -/
theorem wp_scan [PyUnicode] {Q : List AccessPoint → World → Prop} {R : PyErr → World → Prop}
    (hQ : ∀ networks w' l, ReadsOnly l → Extends w l w.store.get w' → Q networks w')
    (hR : ∀ e w' l, ReadsOnly l → Extends w l w.store.get w' → R e w') :
    Backend.scan.wp nmcli Q R w := by
  -- whatever is raised, the store is as before
  have hraise : ∀ (e : PyErr) (w' : World) (l : List CommandEvent), ReadsOnly l →
      Extends w l w.store.get w' →
      (Prog.raise e : Backend (List AccessPoint)).wp nmcli Q R w' := by
    rintro e w' l hreads hext _ rfl
    exact hR e w' l hreads hext
  refine wp_bind.mpr (wp_succeeds_read (fun _ _ => rfl) (fun _ _ => rfl) fun ok w₁ o₁ hext₁ _ => ?_)
  have hreads₁ : ReadsOnly [⟨.radioWifiOn, o₁⟩] := readsOnly_singleton rfl
  cases ok with
  | false => exact hraise _ w₁ _ hreads₁ hext₁
  | true =>
    refine wp_bind.mpr (wp_run_read rfl fun r w₂ o₂ hext₂ _ => ?_)
    rw [hext₁.get] at hext₂
    have hreads : ReadsOnly [⟨.radioWifiOn, o₁⟩, ⟨.wifiList, o₂⟩] :=
      hreads₁.append (readsOnly_singleton rfl)
    split
    · exact hraise _ w₂ _ hreads (hext₁.trans hext₂)
    · exact wp_ret (hQ _ _ _ hreads (hext₁.trans hext₂))

/-- What `_create_pending_profile` may do. -/
inductive Created (g : Profiles) (ssid : String) : Bool → List CommandEvent → Profiles → Prop where
  | nothing {l : List CommandEvent} (hcommands : Preliminary l) : Created g ssid false l g
  | added {p : Uuid} {l : List CommandEvent} {ok : Bool} (hcommands : Preliminary l)
      (habsent : g p = none) (hfault : ok = false → 1 ≤ faults l) :
      Created g ssid ok l (Function.update g p (some (candidate ssid)))

/-- A single command before an activation. -/
theorem preliminary_singleton {e : CommandEvent} (hset : ∀ v name, e.command ≠ .setIdentity v name)
    (hdelete : ∀ v, e.command ≠ .deleteUuid v) (hup : ∀ v, e.command ≠ .upUuid v) :
    Preliminary [e] := by
  intro e' he'
  rw [List.mem_singleton.mp he']
  exact ⟨hset, hdelete, hup⟩

/-- `_create_pending_profile` adds a candidate or none. -/
theorem wp_createPendingProfile {accessPoint : AccessPoint} {Q : Bool → World → Prop}
    (h : ∀ ok w' l g', Created w.store.get accessPoint.ssid ok l g' → Extends w l g' w' → Q ok w') :
    (Backend.createPendingProfile accessPoint).wp nmcli Q R w := by
  refine wp_bind.mpr (wp_run fun choice => ?_)
  have hext := execute_extends (.addPending accessPoint.ssid) choice w
  have hcode := execute_returncode (.addPending accessPoint.ssid) choice w
  have hadd : Preliminary [⟨.addPending accessPoint.ssid, choice.outcome⟩] :=
    preliminary_singleton (by simp) (by simp) (by simp)
  -- the answer and the store after it, of which only the two facts above are used
  generalize (execute (.addPending accessPoint.ssid) choice w).1 = added at hcode ⊢
  generalize (execute (.addPending accessPoint.ssid) choice w).2 = w₁ at hext ⊢
  by_cases hfresh : w.store.get choice.created = none
  · -- the profile is created unless the command failed without effect
    have heffect : ((Command.addPending accessPoint.ssid).effect choice.created w.store).get =
        Function.update w.store.get choice.created (some (candidate accessPoint.ssid)) := by
      simp [Command.effect, hfresh, candidate]
    rw [heffect] at hext
    have hzero : added.returncode = 0 ↔ choice.outcome = .done := by
      simpa [Command.answer, hfresh] using hcode
    -- the key management is set by a second command, whose failure leaves the profile there
    split
    · next keyManagement hcode' hkey =>
      obtain hdone : choice.outcome = .done := hzero.mp (by simpa using hcode')
      rw [hdone] at hext hadd
      refine wp_succeeds_read (fun _ _ => rfl) (fun _ _ => rfl) fun ok w₂ o hext₂ hok => ?_
      rw [hext.get] at hext₂
      refine h ok w₂ _ _ (.added (hadd.append
        (preliminary_singleton (by simp) (by simp) (by simp))) hfresh ?_) (hext.trans hext₂)
      intro hfalse
      have ho : o ≠ .done := fun hd => by simp [hok.mpr hd] at hfalse
      simp [ho]
    · next ok _ hok =>
      refine wp_ret ?_
      -- nothing is set on an open network: what the command did is what was created
      cases ho : choice.outcome with
      | done =>
        rw [ho] at hext hadd
        refine h _ w₁ _ _ (.added hadd hfresh ?_) hext
        simp [hzero, ho]
      | failed =>
        rw [ho] at hext hadd
        have : (added.returncode == 0) = false := by simp [hzero, ho]
        rw [this]
        exact h _ w₁ _ _ (.nothing hadd) hext
      | failedAfter =>
        rw [ho] at hext hadd
        refine h _ w₁ _ _ (.added hadd hfresh ?_) hext
        simp
  · -- the UUID is taken, which `nmcli` refuses
    obtain ⟨q, hq⟩ := Option.ne_none_iff_exists'.mp hfresh
    have heffect : ((Command.addPending accessPoint.ssid).effect choice.created w.store).get =
        w.store.get := by
      simp [Command.effect, hq]
    have hne : (added.returncode == 0) = false := by
      simpa [Command.answer, hq] using hcode
    rw [heffect, Outcome.pick_self] at hext
    rw [hne]
    exact wp_ret (h _ w₁ _ _ (.nothing hadd) hext)

/-- An activation succeeds when its command is done, the profile being there. -/
theorem wp_activatePending {p : Uuid} {accessPoint : AccessPoint} {password : Option String}
    {b : Profile} {Q : Bool → World → Prop} (hp : w.store.get p = some b)
    (hcred : Backend.credentialError accessPoint.security password = none)
    (h : ∀ ok w' o, Extends w [⟨.upUuid p, o⟩] w.store.get w' → (ok = true ↔ o = .done) → Q ok w') :
    (Backend.activatePending p accessPoint password).wp nmcli Q R w := by
  have hup : ∀ choice : Choice, Q ((execute (.upUuid p) choice w).1.returncode == 0)
      (execute (.upUuid p) choice w).2 := by
    intro choice
    have hext := execute_extends (.upUuid p) choice w
    simp only [Command.effect, Outcome.pick_self] at hext
    refine h _ _ choice.outcome hext ?_
    rw [beq_iff_eq, execute_returncode]
    simp [Command.answer, hp, onProfile]
  unfold Backend.activatePending
  split
  · exact wp_bind.mpr (wp_run fun choice => wp_ret (hup choice))
  · next hsecurity =>
    cases password with
    | some secret => exact wp_bind.mpr (wp_runWithSecret fun choice => wp_ret (hup choice))
    | none =>
      -- the credential check lets no other network through without a password
      cases hs : accessPoint.security <;> simp_all [Backend.credentialError]

/-! ## `connect_station`

All ways put together. -/

variable {g : Profiles}

/-- The rest of a call once its candidate is there and alone. -/
theorem wp_activateAndPromote {previous : Option Uuid} {p : Uuid} {accessPoint : AccessPoint}
    {password : Option String} {l : List CommandEvent} {g₁ : Profiles} {w₀ : World}
    {Q : StationResult → World → Prop} (hext : Extends w₀ l g₁ w)
    (hprevious : ∀ v, Holds g SAVED_PROFILE v ↔ previous = some v) (habsent : PendingOrNone (g p))
    (hnew : g₁ p = some (candidate accessPoint.ssid)) (hothers : OnlyPending g g₁)
    (hcreated : ∀ v q, v ≠ p → g₁ v = some q → g v = some q)
    (halone : ∀ v, Holds g₁ PENDING_PROFILE v → v = p) (hcommands : Preliminary l)
    (hcred : Backend.credentialError accessPoint.security password = none)
    (h : ∀ r w' l g', Connected g (.ok r) l g' → Extends w₀ l g' w' → Q r w') :
    (Backend.activateAndPromote accessPoint.ssid p previous accessPoint password).wp
      nmcli Q R w := by
  have hp : w.store.get p = some (candidate accessPoint.ssid) := by rw [hext.get, hnew]
  refine wp_bind.mpr (wp_activatePending hp hcred fun ok w₁ o hext₁ hok => ?_)
  rw [hext.get] at hext₁
  cases ok with
  | false =>
    -- the candidate did not come up: it is deleted again, and nothing else has changed
    have ho : o ≠ .done := fun hd => by simp [hd] at hok
    refine wp_bind.mpr (wp_deleteProfileUuid fun ok w₂ o₂ hext₂ _ => wp_ret ?_)
    rw [hext₁.get] at hext₂
    refine h _ w₂ _ _ (.aborted rfl ?_ ?_ ?_) ((hext.trans hext₁).trans hext₂)
    · intro e he
      simp only [List.mem_append, List.mem_singleton] at he
      rcases he with (he | rfl) | rfl
      · exact hcommands.harmless g e he
      · exact ⟨by simp, by simp⟩
      · refine ⟨by simp, fun v hv => ?_⟩
        cases hv
        exact habsent
    · refine hothers.trans
        ((OnlyPending.refl g₁).pick (onlyPending_update ?_ pendingOrNone_none) o₂)
      rw [hnew]
      exact pendingOrNone_some rfl
    · intro hfaults v q hq
      have ho₂ : o₂ = .done := by
        by_contra hne
        simp only [faults_append, faults_cons, faults_nil, if_neg ho, if_neg hne] at hfaults
        omega
      rw [ho₂, Outcome.pick_done, Profiles.erase] at hq
      by_cases hvp : v = p
      · rw [hvp, Function.update_self] at hq
        cases hq
      · rw [Function.update_of_ne hvp] at hq
        exact hcreated v q hvp hq
  | true =>
    obtain rfl : o = .done := hok.mp rfl
    have hup : BroughtUpCandidate g previous p accessPoint.ssid g₁ l :=
      ⟨hprevious, habsent, hnew, hothers, hcreated, halone, hcommands⟩
    -- the station before is another profile than the candidate, so the two can be told apart
    have hne : ∀ u ∈ previous, u ≠ p ∧ (previous.bind g₁).isSome = true := by
      rintro u rfl
      obtain ⟨q, hq, hid⟩ := (hprevious u).mpr rfl
      refine ⟨?_, ?_⟩
      · rintro rfl
        exact absurd (hid.symm.trans (habsent q hq)) (by decide)
      · rw [Option.bind_some, hothers.keeps hq (by rw [hid]; decide), Option.isSome_some]
    have hcells : w₁.store.get = cells g₁ previous p (previous.bind g₁)
        (some (candidate accessPoint.ssid)) := by
      rw [hext₁.get, cells_self _ hnew]
      rintro u rfl
      rfl
    refine wp_bind.mpr (wp_promotePendingProfile hcells hne
      fun ok w₂ l₂ old' new' hpromotion hext₂ => ?_)
    have hext₂' := hext.trans (hext₁.trans hext₂)
    cases ok with
    | true => exact wp_ret (h _ w₂ _ _ (.promoted hup hpromotion) hext₂')
    | false =>
      -- what the promotion has done is undone from the two profiles it concerns
      refine wp_bind.mpr (wp_rollbackPromotion hext₂.get (fun u hu => (hne u hu).1)
        fun w₃ l₃ old'' new'' hrollback hext₃ => wp_ret ?_)
      exact h _ w₃ _ _ (.rolledBack rfl hup hpromotion hrollback)
        (hext.trans (hext₁.trans (hext₂.trans hext₃)))

/-- Giving up before the promotion: the candidates are deleted by name. -/
theorem wp_abort {l : List CommandEvent} {g₁ : Profiles} {w₀ : World} {r : StationResult}
    {Q : StationResult → World → Prop} (hext : Extends w₀ l g₁ w) (hr : r.1 = false)
    (hcommands : Preliminary l) (hothers : OnlyPending g g₁)
    (hcreated : ∀ v q, g₁ v = some q → g v = some q ∨ 1 ≤ faults l ∧ q.id = PENDING_PROFILE)
    (h : ∀ r w' l g', Connected g (.ok r) l g' → Extends w₀ l g' w' → Q r w') :
    ((Backend.deleteProfile PENDING_PROFILE).bind fun _ => (Prog.ret r : Backend StationResult)).wp
      nmcli Q R w := by
  refine wp_bind.mpr (wp_deleteProfile fun w₁ o hext₁ => wp_ret ?_)
  rw [hext.get] at hext₁
  refine h _ w₁ _ _ (.aborted hr ?_ ?_ ?_) (hext.trans hext₁)
  · exact (hcommands.append (preliminary_singleton (by simp) (by simp) (by simp))).harmless g
  · exact hothers.trans ((OnlyPending.refl g₁).pick (onlyPending_eraseNamed g₁) o)
  -- without a fault the deletion took effect, and no candidate is left
  · intro hfaults v q hq
    have hq₁ : g₁ v = some q := by
      cases o with
      | failed => exact hq
      | _ => exact (Option.filter_eq_some_iff.mp hq).1
    rcases hcreated v q hq₁ with hold | ⟨hone, hid⟩
    · exact hold
    · have ho : o = .done := by
        by_contra hne
        simp only [faults_append, faults_cons, faults_nil, if_neg hne] at hfaults
        omega
      rw [ho, Outcome.pick_done] at hq
      simpa [hid] using (Option.filter_eq_some_iff.mp hq).2

/-- The rest of `connect_station` gives up or attempts a promotion. -/
theorem wp_replaceProfile {accessPoint : AccessPoint} {password : Option String}
    {l : List CommandEvent} {w₀ : World} {Q : StationResult → World → Prop}
    (hext : Extends w₀ l g w) (hreads : ReadsOnly l)
    (hcred : Backend.credentialError accessPoint.security password = none)
    (h : ∀ r w' l g', Connected g (.ok r) l g' → Extends w₀ l g' w' → Q r w') :
    (Backend.replaceProfile accessPoint.ssid accessPoint password).wp nmcli Q R w := by
  refine wp_bind.mpr (wp_succeeds_read (fun _ _ => rfl) (fun _ _ => rfl) fun ok w₁ o₁ hext₁ _ => ?_)
  rw [hext.get] at hext₁
  have hext₁' := hext.trans hext₁
  have hreads₁ : ReadsOnly (l ++ [⟨.dhcp .stop, o₁⟩]) := hreads.append (readsOnly_singleton rfl)
  cases ok with
  | false => exact wp_ret (h _ w₁ _ _ (.untouched (by rintro _ ⟨⟩; rfl) hreads₁) hext₁')
  | true =>
  refine wp_bind.mpr (wp_profileUuid fun r w₂ o₂ hext₂ hlookup => ?_)
  rw [hext₁.get] at hext₂ hlookup
  have hext₂' := hext₁'.trans hext₂
  have hreads₂ : ReadsOnly (l ++ [⟨.dhcp .stop, o₁⟩] ++ [⟨.listProfiles, o₂⟩]) :=
    hreads₁.append (readsOnly_singleton rfl)
  generalize l ++ [⟨.dhcp .stop, o₁⟩] ++ [⟨.listProfiles, o₂⟩] = l₂ at hext₂' hreads₂
  obtain ⟨ok, previous⟩ := r
  cases ok with
  | false => exact wp_ret (h _ w₂ _ _ (.untouched (by rintro _ ⟨⟩; rfl) hreads₂) hext₂')
  | true =>
  have hprevious : ∀ v, Holds g SAVED_PROFILE v ↔ previous = some v := by
    cases hlookup with
    | found _ hu =>
      intro v
      rw [hu, Option.some_inj, eq_comm]
    | absent _ hnone => simp [hnone]
  refine wp_bind.mpr (wp_deleteProfile fun w₃ o₃ hext₃ => ?_)
  rw [hext₂.get] at hext₃
  have hext₃' := hext₂'.trans hext₃
  have hcommands₃ : Preliminary (l₂ ++ [⟨.deleteId PENDING_PROFILE, o₃⟩]) :=
    (preliminary_of_readsOnly hreads₂).append (preliminary_singleton (by simp) (by simp) (by simp))
  have hothers₃ : OnlyPending g (o₃.pick g (Profiles.eraseNamed g PENDING_PROFILE)) :=
    (OnlyPending.refl g).pick (onlyPending_eraseNamed g) o₃
  have hcreated₃ : Within (o₃.pick g (Profiles.eraseNamed g PENDING_PROFILE)) g := by
    cases o₃ with
    | failed => exact .refl g
    | _ => exact within_eraseNamed (.refl g) _
  -- a candidate is left over only where the deletion failed
  have hstale : o₃ ≠ .failed → ∀ v,
      ¬Holds (o₃.pick g (Profiles.eraseNamed g PENDING_PROFILE)) PENDING_PROFILE v := by
    rintro ho v ⟨q, hq, hid⟩
    cases o₃ with
    | failed => exact ho rfl
    | _ =>
      obtain ⟨-, hkeep⟩ := Option.filter_eq_some_iff.mp hq
      simp [hid] at hkeep
  generalize o₃.pick g (Profiles.eraseNamed g PENDING_PROFILE) = g₃ at *
  refine wp_bind.mpr (wp_createPendingProfile fun ok w₄ l₄ g₄ hcreate hext₄ => ?_)
  rw [hext₃.get] at hcreate
  have hext₄' := hext₃'.trans hext₄
  cases hcreate with
  | nothing hcommands₄ =>
    exact wp_abort hext₄' rfl (hcommands₃.append hcommands₄) hothers₃
      (fun v q hq => .inl (hcreated₃ v q hq)) h
  | @added p _ _ hcommands₄ habsent hfault =>
    have hcommands := hcommands₃.append hcommands₄
    have hothers : OnlyPending g (Function.update g₃ p (some (candidate accessPoint.ssid))) := by
      refine hothers₃.trans (onlyPending_update ?_ (pendingOrNone_some rfl))
      rw [habsent]
      exact pendingOrNone_none
    have hcreated : ∀ v q, v ≠ p →
        Function.update g₃ p (some (candidate accessPoint.ssid)) v = some q → g v = some q := by
      intro v q hvp hq
      rw [Function.update_of_ne hvp] at hq
      exact hcreated₃ v q hq
    -- what is left to show where the call gives up with its candidate in place
    have hleft : ∀ l', 1 ≤ faults l' → ∀ v q,
        Function.update g₃ p (some (candidate accessPoint.ssid)) v = some q →
          g v = some q ∨ 1 ≤ faults l' ∧ q.id = PENDING_PROFILE := by
      intro l' hl' v q hq
      by_cases hvp : v = p
      · rw [hvp, Function.update_self] at hq
        exact .inr ⟨hl', by rw [← Option.some.inj hq]; rfl⟩
      · exact .inl (hcreated v q hvp hq)
    cases ok with
    | false =>
      refine wp_abort hext₄' rfl hcommands hothers (hleft _ ?_) h
      have := hfault rfl
      rw [faults_append]
      omega
    | true =>
      refine wp_bind.mpr (wp_profileUuid fun r w₅ o₅ hext₅ hlookup₅ => ?_)
      rw [hext₄.get] at hext₅ hlookup₅
      have hext₅' := hext₄'.trans hext₅
      have hcommands₅ := hcommands.append
        (preliminary_of_readsOnly (readsOnly_singleton (e := ⟨.listProfiles, o₅⟩) rfl))
      have hholds : Holds (Function.update g₃ p (some (candidate accessPoint.ssid)))
          PENDING_PROFILE p := ⟨candidate accessPoint.ssid, Function.update_self _ _ _, rfl⟩
      cases hlookup₅ with
      | found _ hu =>
        obtain rfl := (hu p).mp hholds
        have hgp : PendingOrNone (g p) := by
          rcases hothers₃ p with hp | ⟨hp, -⟩
          · rw [← hp, habsent]
            exact pendingOrNone_none
          · exact hp
        exact wp_activateAndPromote hext₅' hprevious hgp (Function.update_self _ _ _) hothers
          hcreated (fun v hv => (hu v).mp hv) hcommands₅ hcred h
      | absent _ hnone => exact absurd hholds (hnone p)
      | refused htwo =>
        refine wp_abort hext₅' rfl hcommands₅ hothers (hleft _ ?_) h
        by_cases hdone : o₅ = .done
        · obtain ⟨u, v, huv, hu, hv⟩ := htwo hdone
          -- one of the two is a candidate that was there before
          have hother : ∃ v, v ≠ p ∧ Holds g₃ PENDING_PROFILE v := by
            have hold : ∀ v, v ≠ p → Holds (Function.update g₃ p
                (some (candidate accessPoint.ssid))) PENDING_PROFILE v →
                Holds g₃ PENDING_PROFILE v := by
              rintro v hvp ⟨q, hq, hid⟩
              exact ⟨q, by rwa [Function.update_of_ne hvp] at hq, hid⟩
            by_cases hup : u = p
            · have hvp : v ≠ p := fun hvp => huv (hup.trans hvp.symm)
              exact ⟨v, hvp, hold v hvp hv⟩
            · exact ⟨u, hup, hold u hup hu⟩
          obtain ⟨v, -, hv⟩ := hother
          have ho₃ : o₃ = .failed := by
            by_contra hne
            exact hstale hne v hv
          simp only [faults_append, faults_cons, ho₃]
          simp
          omega
        · simp only [faults_append, faults_cons, if_neg hdone]
          omega

/-- **`connect_station`**, for any profiles, any request and any outcome of every command. -/
theorem wp_connectStation [PyUnicode] (ssid : String) (password : Option String) (w : World) :
    (Backend.connectStation ssid password).wp nmcli
      (fun r w' => ∃ l g', Connected w.store.get (.ok r) l g' ∧ Extends w l g' w')
      (fun e w' => ∃ l g', Connected w.store.get (.error e) l g' ∧ Extends w l g' w') w := by
  -- the ways to give up before anything is written
  have hquit : ∀ (r : StationResult) (w' : World) (l : List CommandEvent), r.1 = false →
      ReadsOnly l → Extends w l w.store.get w' →
      (Prog.ret r : Backend StationResult).wp nmcli
        (fun r w' => ∃ l g', Connected w.store.get (.ok r) l g' ∧ Extends w l g' w')
        (fun e w' => ∃ l g', Connected w.store.get (.error e) l g' ∧ Extends w l g' w') w' :=
    fun r w' l hr hreads hext => wp_ret ⟨l, _, .untouched (by rintro _ ⟨⟩; exact hr) hreads, hext⟩
  refine wp_bind.mpr ?_
  cases validateSsid ssid with
  | error e =>
    rintro _ rfl
    exact ⟨[], _, .untouched (by rintro _ ⟨⟩) readsOnly_nil, .refl w⟩
  | ok selectedSsid =>
    rintro _ rfl
    refine wp_bind.mpr (wp_scan (fun networks w₁ l hreads hext => ?_) fun e w₁ l hreads hext => ?_)
    · cases hfind : networks.find? fun item => item.ssid = selectedSsid with
      | none => exact hquit _ w₁ l rfl hreads hext
      | some accessPoint =>
        have hssid : accessPoint.ssid = selectedSsid := by simpa using List.find?_some hfind
        cases hcred : Backend.credentialError accessPoint.security password with
        | some error =>
          simp only [hcred]
          exact hquit _ w₁ l rfl hreads hext
        | none =>
          simp only [hcred]
          rw [← hssid]
          exact wp_replaceProfile hext hreads hcred fun r w' l' g' hconn hext' =>
            ⟨l', g', hconn, hext'⟩
    · exact ⟨l, _, .untouched (by rintro _ ⟨⟩) hreads, hext⟩

/-- A complete call is one of the ways a call can end. -/
theorem connected_of_runs [PyUnicode] {ssid : String} {password : Option String} {w w' : World}
    {out : Except PyErr StationResult}
    (run : (Backend.connectStation ssid password).Runs nmcli w out w') :
    ∃ l, Connected w.store.get out l w'.store.get ∧ w'.log = w.log ++ l := by
  obtain ⟨hok, herr⟩ := wp_runs (wp_connectStation ssid password w) run
  have hconn : ∃ l g', Connected w.store.get out l g' ∧ Extends w l g' w' := by
    cases out with
    | ok r => exact hok r rfl
    | error e => exact herr e rfl
  obtain ⟨l, g', hconn, hext⟩ := hconn
  exact ⟨l, hext.get ▸ hconn, hext.log⟩

end

end Rave
