import RaveDeployment.Profiles.Connect
import RaveDeployment.Profiles.Replay

/-!
# What a boot does to the profiles

`boot` asks `has_saved_station` and, where it says so, calls `activate_saved_station`. `BootChoice`
is the profile both of them settle on: the one that carries the saved name, or else the one that
carries the backup name, and in either case the only one. `wp_boot` says that a boot renames this
profile and brings it up, and does both when every command is done.
-/

namespace Rave

open Prog

/-- `has_saved_station`, and when it is true, `activate_saved_station`. -/
def Backend.boot : Backend (Option StationResult) := do
  if ← hasSavedStation then
    return some (← activateSavedStation)
  else
    return none

/-- The profile a boot brings up. -/
inductive BootChoice (g : Profiles) (v : Uuid) : Prop where
  | saved (h : ∀ x, Holds g SAVED_PROFILE x ↔ x = v)
  | previous (hnone : ∀ x, ¬Holds g SAVED_PROFILE x) (h : ∀ x, Holds g PREVIOUS_PROFILE x ↔ x = v)

/-- No profile is written to but `v`, which gets the saved name and is brought up. -/
def WritesOnly (v : Uuid) (l : List CommandEvent) : Prop :=
  ∀ e ∈ l, e.command.isWrite = true →
    e.command = .setIdentity v SAVED_PROFILE ∨ e.command = .upUuid v

/-- The ways a boot can end: its result, its commands, the profiles it leaves. -/
inductive Booted (g : Profiles) : Option StationResult → List CommandEvent → Profiles → Prop where
  | untouched {out : Option StationResult} {l : List CommandEvent} (hreads : ReadsOnly l)
      (hquiet : faults l = 0 → ∀ v, ¬BootChoice g v) : Booted g out l g
  | renamed {out : Option StationResult} {l : List CommandEvent} {v : Uuid} {o : Outcome}
      (hv : BootChoice g v) (hwrites : WritesOnly v l)
      (hdone : faults l = 0 →
        o = .done ∧ (∃ ssid, out = some (true, ssid, none)) ∧ ⟨.upUuid v, .done⟩ ∈ l) :
      Booted g out l (o.pick g (Profiles.rename g v SAVED_PROFILE))

section

variable {g : Profiles} {v w : Uuid}

/-- The choice of a boot carries one of the two names. -/
theorem BootChoice.holds (h : BootChoice g v) :
    ∃ q, g v = some q ∧ (q.id = SAVED_PROFILE ∨ q.id = PREVIOUS_PROFILE) := by
  cases h with
  | saved h =>
    obtain ⟨q, hq, hid⟩ := (h v).mpr rfl
    exact ⟨q, hq, .inl hid⟩
  | previous _ h =>
    obtain ⟨q, hq, hid⟩ := (h v).mpr rfl
    exact ⟨q, hq, .inr hid⟩

/-- After the renaming the profile alone carries the saved name. -/
theorem BootChoice.holds_rename (h : BootChoice g v) (x : Uuid) :
    Holds (Profiles.rename g v SAVED_PROFILE) SAVED_PROFILE x ↔ x = v := by
  obtain ⟨q, hq, -⟩ := h.holds
  unfold Profiles.rename
  by_cases hx : x = v
  · subst hx
    simp [Holds, hq, Profile.rename]
  · rw [Holds, Function.update_of_ne hx]
    have hnot : ¬Holds g SAVED_PROFILE x := by
      cases h with
      | saved h => exact fun hold => hx ((h x).mp hold)
      | previous hnone _ => exact hnone x
    simp only [hx, iff_false]
    exact hnot

/-- Two lookups that answer determine the choice. -/
theorem not_bootChoice_of_two {name : ProfileName} (hname : name = SAVED_PROFILE ∨
    name = PREVIOUS_PROFILE ∧ ∀ x, ¬Holds g SAVED_PROFILE x) (hvw : v ≠ w) (hv : Holds g name v)
    (hw : Holds g name w) (x : Uuid) : ¬BootChoice g x := by
  rintro (h | ⟨hnone, h⟩)
  · rcases hname with rfl | ⟨-, hnone⟩
    · exact hvw (((h v).mp hv).trans ((h w).mp hw).symm)
    · exact hnone x ((h x).mpr rfl)
  · rcases hname with rfl | ⟨rfl, -⟩
    · exact hnone v hv
    · exact hvw (((h v).mp hv).trans ((h w).mp hw).symm)

theorem not_bootChoice_of_none (hsaved : ∀ x, ¬Holds g SAVED_PROFILE x)
    (hprev : ∀ x, ¬Holds g PREVIOUS_PROFILE x) (x : Uuid) : ¬BootChoice g x := by
  rintro (h | ⟨-, h⟩)
  · exact hsaved x ((h x).mpr rfl)
  · exact hprev x ((h x).mpr rfl)

/-- Two logs that write to one profile. -/
theorem WritesOnly.append {l l' : List CommandEvent} (h : WritesOnly v l) (h' : WritesOnly v l') :
    WritesOnly v (l ++ l') := by
  intro e he
  rcases List.mem_append.mp he with he | he
  · exact h e he
  · exact h' e he

theorem ReadsOnly.writesOnly {l : List CommandEvent} (h : ReadsOnly l) : WritesOnly v l := by
  intro e he hwrite
  rw [h e he] at hwrite
  cases hwrite

end

/-- The profile to bring up has been found and takes the saved name. -/
structure Chosen (g : Profiles) (r : Option Uuid) (l : List CommandEvent) (v : Uuid) (o : Outcome) :
    Prop where
  choice : BootChoice g v
  writes : WritesOnly v l
  result : r = some v ∧ o = .done ∨ r = none ∧ faults l ≠ 0

/-- The look-ups before the choice. -/
theorem Chosen.prepend {g : Profiles} {r : Option Uuid} {l₀ l : List CommandEvent} {v : Uuid}
    {o : Outcome} (hreads : ReadsOnly l₀) (h : Chosen g r l v o) : Chosen g r (l₀ ++ l) v o where
  choice := h.choice
  writes := hreads.writesOnly.append h.writes
  result := by
    refine h.result.imp_right fun ⟨hr, hfault⟩ => ⟨hr, ?_⟩
    rw [faults_append]
    omega

section

variable {R : PyErr → World → Prop} {w : World} {g : Profiles}

/-- `has_saved_station` answers whether there is a profile to bring up, unless a command fails. -/
theorem wp_hasSavedStation {Q : Bool → World → Prop}
    (h : ∀ found w' l, ReadsOnly l → Extends w l w.store.get w' →
      (faults l = 0 → found = false → ∀ v, ¬BootChoice w.store.get v) → Q found w') :
    Backend.hasSavedStation.wp nmcli Q R w := by
  refine wp_bind.mpr (wp_profileUuid fun r w₁ o₁ hext₁ hlookup => ?_)
  have hreads₁ : ReadsOnly [⟨.listProfiles, o₁⟩] := readsOnly_singleton rfl
  cases hlookup with
  | found => exact wp_ret (h _ w₁ _ hreads₁ hext₁ (by simp))
  | refused htwo =>
    refine wp_ret (h _ w₁ _ hreads₁ hext₁ fun hzero _ => ?_)
    obtain ⟨u, v, huv, hu, hv⟩ := htwo (by simpa using hzero)
    exact not_bootChoice_of_two (.inl rfl) huv hu hv
  -- no profile has the saved name, so the backup is looked for
  | absent ho hnone =>
    refine wp_bind.mpr (wp_profileUuid fun r w₂ o₂ hext₂ hlookup₂ => wp_ret ?_)
    rw [hext₁.get] at hext₂ hlookup₂
    have hreads₂ := hreads₁.append (readsOnly_singleton (e := ⟨.listProfiles, o₂⟩) rfl)
    refine h _ w₂ _ hreads₂ (hext₁.trans hext₂) fun hzero hfound => ?_
    have ho₂ : o₂ = .done := by
      by_contra hne
      simp [hne] at hzero
    cases hlookup₂ with
    | found => cases hfound
    | absent _ hback => exact not_bootChoice_of_none hnone hback
    | refused htwo =>
      obtain ⟨u, v, huv, hu, hv⟩ := htwo ho₂
      exact not_bootChoice_of_two (.inr ⟨rfl, hnone⟩) huv hu hv

/-- The profile takes the saved name, and is found to have it unless a command fails. -/
theorem wp_takeSavedName {v : Uuid} {Q : Option Uuid → World → Prop}
    (hv : BootChoice w.store.get v)
    (h : ∀ r w' l o, Chosen w.store.get r l v o →
      Extends w l (o.pick w.store.get (Profiles.rename w.store.get v SAVED_PROFILE)) w' → Q r w') :
    (Backend.takeSavedName v).wp nmcli Q R w := by
  obtain ⟨q, hq, -⟩ := hv.holds
  refine wp_bind.mpr (wp_setProfileIdentity fun ok w₁ o hext hok => ?_)
  -- the one command that changes something, on the profile that was chosen
  have hwrites : WritesOnly v [⟨.setIdentity v SAVED_PROFILE, o⟩] := by
    intro e he _
    rw [List.mem_singleton.mp he]
    exact .inl rfl
  cases ok with
  | false =>
    -- the renaming was not reported as done
    have hfail : o ≠ .done := fun hd => by simp [hd, hq] at hok
    exact wp_ret (h _ w₁ _ o ⟨hv, hwrites, .inr ⟨rfl, by simp [hfail]⟩⟩ hext)
  | true =>
    obtain ⟨rfl, -⟩ := hok.mp rfl
    have hget : w₁.store.get v = some (q.rename SAVED_PROFILE) := by
      rw [hext.get, Outcome.pick_done, Profiles.rename, Function.update_self, hq, Option.map_some]
    -- renamed: what is left is to read the name back
    refine wp_bind.mpr (wp_profileHasIdentity (p := q.rename SAVED_PROFILE) hget
      strip_savedProfile rfl fun ok w₂ reads hreads hext₂ hok₂ => ?_)
    rw [hext.get] at hext₂
    have hwrites₂ := hwrites.append (hreads.writesOnly (v := v))
    cases ok with
    | false =>
      have hfault : faults reads ≠ 0 := fun hzero => by simp [hzero] at hok₂
      exact wp_ret (h _ w₂ _ .done ⟨hv, hwrites₂, .inr ⟨rfl, by simpa using hfault⟩⟩
        (hext.trans hext₂))
    | true =>
      exact wp_ret (h _ w₂ _ .done ⟨hv, hwrites₂, .inl ⟨rfl, rfl⟩⟩ (hext.trans hext₂))

/-- Commands that only look up, before `l`. -/
theorem Booted.prepend {out : Option StationResult} {l₀ l : List CommandEvent} {g' : Profiles}
    (hreads : ReadsOnly l₀) (h : Booted g out l g') : Booted g out (l₀ ++ l) g' := by
  have hzero : faults (l₀ ++ l) = 0 → faults l = 0 := by
    rw [faults_append]
    omega
  cases h with
  | untouched hreads' hquiet =>
    exact .untouched (hreads.append hreads') fun h => hquiet (hzero h)
  | renamed hv hwrites hdone =>
    refine .renamed hv (hreads.writesOnly.append hwrites) fun h => ?_
    obtain ⟨ho, hout, hmem⟩ := hdone (hzero h)
    exact ⟨ho, hout, List.mem_append_right _ hmem⟩

/-- `_saved_profile_for_activation` finds the choice and gives it the saved name, or finds none. -/
theorem wp_savedProfileForActivation {Q : Option Uuid → World → Prop}
    (hnone : ∀ w' l, ReadsOnly l → Extends w l w.store.get w' →
      (faults l = 0 → ∀ v, ¬BootChoice w.store.get v) → Q none w')
    (hchosen : ∀ r w' l v o, Chosen w.store.get r l v o →
      Extends w l (o.pick w.store.get (Profiles.rename w.store.get v SAVED_PROFILE)) w' → Q r w') :
    Backend.savedProfileForActivation.wp nmcli Q R w := by
  -- once a profile is found, however it was found, its name is taken
  have htake : ∀ {w₁ : World} {l : List CommandEvent} {v : Uuid}, ReadsOnly l →
      Extends w l w.store.get w₁ → BootChoice w.store.get v →
      (Backend.takeSavedName v).wp nmcli Q R w₁ := by
    intro w₁ l v hreads hext hv
    refine wp_takeSavedName (hext.get ▸ hv) fun r w₂ l₂ o hchoice hext₂ => ?_
    rw [hext.get] at hchoice hext₂
    exact hchosen r w₂ _ v o (hchoice.prepend hreads) (hext.trans hext₂)
  refine wp_bind.mpr (wp_profileUuid fun r w₁ o₁ hext₁ hlookup => ?_)
  have hreads₁ : ReadsOnly [⟨.listProfiles, o₁⟩] := readsOnly_singleton rfl
  cases hlookup with
  | found _ hu => exact htake hreads₁ hext₁ (.saved hu)
  | refused htwo =>
    refine wp_ret (hnone w₁ _ hreads₁ hext₁ fun hzero => ?_)
    obtain ⟨u, v, huv, hu, hv⟩ := htwo (by simpa using hzero)
    exact not_bootChoice_of_two (.inl rfl) huv hu hv
  | absent ho habsent =>
    -- the name is free, so the backup is looked for
    refine wp_bind.mpr (wp_profileUuid fun r w₂ o₂ hext₂ hlookup₂ => ?_)
    rw [hext₁.get] at hext₂ hlookup₂
    have hreads₂ := hreads₁.append (readsOnly_singleton (e := ⟨.listProfiles, o₂⟩) rfl)
    have hext₂' := hext₁.trans hext₂
    cases hlookup₂ with
    | found _ hu => exact htake hreads₂ hext₂' (.previous habsent hu)
    | absent _ hback =>
      exact wp_ret (hnone w₂ _ hreads₂ hext₂' fun _ => not_bootChoice_of_none habsent hback)
    | refused htwo =>
      refine wp_ret (hnone w₂ _ hreads₂ hext₂' fun hzero => ?_)
      have ho₂ : o₂ = .done := by
        by_contra hne
        simp [hne] at hzero
      obtain ⟨u, v, huv, hu, hv⟩ := htwo ho₂
      exact not_bootChoice_of_two (.inr ⟨rfl, habsent⟩) huv hu hv

/-- `_saved_ssid` reads. -/
theorem wp_savedSsid {v : Uuid} {Q : Option String → World → Prop}
    (h : ∀ r w' o, Extends w [⟨.getSsid (some v), o⟩] w.store.get w' → Q r w') :
    (Backend.savedSsid (some v)).wp nmcli Q R w := by
  refine wp_bind.mpr (wp_run_read rfl fun r w' o hext _ => ?_)
  dsimp only
  split
  · split
    · exact wp_ret (h _ w' o hext)
    · exact wp_ret (h _ w' o hext)
  · exact wp_ret (h _ w' o hext)

/-- Giving up after a failed command. -/
theorem Booted.failed {r : StationResult} {l : List CommandEvent} {v : Uuid} {o : Outcome}
    (hv : BootChoice g v) (hwrites : WritesOnly v l) (hfault : faults l ≠ 0) :
    Booted g (some r) l (o.pick g (Profiles.rename g v SAVED_PROFILE)) :=
  .renamed hv hwrites fun hzero => absurd hzero hfault

/-- `activate_saved_station` ends in one of the ways of `Booted`. -/
theorem wp_activateSavedStation {Q : StationResult → World → Prop}
    (h : ∀ r w' l g', Booted w.store.get (some r) l g' → Extends w l g' w' → Q r w') :
    Backend.activateSavedStation.wp nmcli Q R w := by
  refine wp_bind.mpr (wp_savedProfileForActivation (fun w₁ l hreads hext hquiet => ?_)
    fun r w₁ l v o hchosen hext => ?_)
  · exact wp_ret (h _ w₁ l _ (.untouched hreads hquiet) hext)
  · have hv := hchosen.choice
    rcases hchosen.result with ⟨rfl, rfl⟩ | ⟨rfl, hfault⟩
    · refine wp_bind.mpr (wp_succeeds_read (fun _ _ => rfl) (fun _ _ => rfl)
        fun ok w₂ o₂ hext₂ hok₂ => ?_)
      rw [hext.get] at hext₂
      have hext₂' := hext.trans hext₂
      have hwrites₂ := hchosen.writes.append
        (readsOnly_singleton (e := ⟨.radioWifiOn, o₂⟩) rfl).writesOnly
      cases ok with
      | false =>
        have ho₂ : o₂ ≠ .done := fun hd => by simp [hd] at hok₂
        exact wp_ret (h _ w₂ _ _ (.failed (o := .done) hv hwrites₂ (by simp [ho₂])) hext₂')
      | true =>
      refine wp_bind.mpr (wp_succeeds_read (fun _ _ => rfl) (fun _ _ => rfl)
        fun ok w₃ o₃ hext₃ hok₃ => ?_)
      rw [hext₂'.get] at hext₃
      have hext₃' := hext₂'.trans hext₃
      have hwrites₃ := hwrites₂.append
        (readsOnly_singleton (e := ⟨.dhcp .stop, o₃⟩) rfl).writesOnly
      cases ok with
      | false =>
        have ho₃ : o₃ ≠ .done := fun hd => by simp [hd] at hok₃
        exact wp_ret (h _ w₃ _ _ (.failed (o := .done) hv hwrites₃ (by simp [ho₃])) hext₃')
      | true =>
      -- the profile is there, so bringing it up fails only with its command
      obtain ⟨q, hq, -⟩ := hv.holds
      have hq₃ : w₃.store.get v = some (q.rename SAVED_PROFILE) := by
        rw [hext₃'.get, Outcome.pick_done, Profiles.rename, Function.update_self, hq,
          Option.map_some]
      refine wp_bind.mpr (wp_run fun choice => ?_)
      have hext₄ := execute_extends (.upUuid v) choice w₃
      have hcode := execute_returncode (.upUuid v) choice w₃
      simp only [Command.effect, Outcome.pick_self] at hext₄
      rw [hext₃'.get] at hext₄
      have hext₄' := hext₃'.trans hext₄
      have hup : WritesOnly v [⟨.upUuid v, choice.outcome⟩] := by
        intro e he _
        rw [List.mem_singleton.mp he]
        exact .inr rfl
      have hwrites₄ := hwrites₃.append hup
      split
      · next hne =>
        have hfail : choice.outcome ≠ .done := fun hd =>
          hne (hcode.mpr ⟨hd, by simp [Command.answer, hq₃, onProfile]⟩)
        exact wp_ret (h _ _ _ _ (.failed (o := .done) hv hwrites₄ (by simp [hfail])) hext₄')
      · next hzero =>
        have hdone : choice.outcome = .done := (hcode.mp (not_not.mp hzero)).1
        refine wp_bind.mpr (wp_savedSsid fun ssid w₅ o₅ hext₅ => wp_ret ?_)
        rw [hext₄'.get] at hext₅
        have hwrites₅ := hwrites₄.append
          (readsOnly_singleton (e := ⟨.getSsid (some v), o₅⟩) rfl).writesOnly
        refine h _ w₅ _ _ (.renamed hv hwrites₅ fun _ => ⟨rfl, ⟨ssid, rfl⟩, ?_⟩)
          (hext₄'.trans hext₅)
        simp [hdone]
    · exact wp_ret (h _ w₁ l _ (.failed hv hchosen.writes hfault) hext)

/-- **A boot**, for any profiles and any outcome of every command. -/
theorem wp_boot (w : World) :
    Backend.boot.wp nmcli
      (fun out w' => ∃ l g', Booted w.store.get out l g' ∧ Extends w l g' w') (fun _ _ => False)
      w := by
  refine wp_bind.mpr (wp_hasSavedStation fun found w₁ l₁ hreads hext₁ hquiet => ?_)
  cases found with
  | false => exact wp_ret ⟨l₁, _, .untouched hreads fun hzero => hquiet hzero rfl, hext₁⟩
  | true =>
    refine wp_bind.mpr (wp_activateSavedStation fun r w₂ l₂ g' hbooted hext₂ => wp_ret ?_)
    rw [hext₁.get] at hbooted
    exact ⟨_, g', hbooted.prepend hreads, hext₁.trans hext₂⟩

/-- A complete boot is one of the ways a boot can end. -/
theorem booted_of_runs {w' : World} {out : Except PyErr (Option StationResult)}
    (run : Backend.boot.Runs nmcli w out w') :
    ∃ r l, out = .ok r ∧ Booted w.store.get r l w'.store.get ∧ w'.log = w.log ++ l := by
  obtain ⟨hok, herr⟩ := wp_runs (wp_boot w) run
  cases out with
  | ok r =>
    obtain ⟨l, g', hbooted, hext⟩ := hok r rfl
    exact ⟨r, l, rfl, hext.get ▸ hbooted, hext.log⟩
  | error e => exact absurd (herr e rfl) not_false

end

/-! ## A boot whose commands are all done

It brings up its choice, if there is one, and saves it under its name. -/

/-- The boot brought up `v` and saved it. -/
structure BootedInto (v : Uuid) (out : Option StationResult) (l : List CommandEvent)
    (g' : Profiles) : Prop where
  result : ∃ ssid, out = some (true, ssid, none)
  activated : ∀ x, ⟨.upUuid x, .done⟩ ∈ l ↔ x = v
  saved : ∀ x, Holds g' SAVED_PROFILE x ↔ x = v
  autoconnect : ∃ q, g' v = some q ∧ q.autoconnect = false

section

variable {g g' : Profiles} {v w : Uuid}

/-- There is one choice at most. -/
theorem BootChoice.unique (h : BootChoice g v) (h' : BootChoice g w) : v = w := by
  cases h with
  | saved h =>
    have hv : Holds g SAVED_PROFILE v := (h v).mpr rfl
    cases h' with
    | saved h' => exact (h' v).mp hv
    | previous hnone _ => exact absurd hv (hnone v)
  | previous hnone h =>
    have hv : Holds g PREVIOUS_PROFILE v := (h v).mpr rfl
    cases h' with
    | saved h' => exact absurd ((h' w).mpr rfl) (hnone w)
    | previous _ h' => exact (h' v).mp hv

/-- Where every command was done, the boot brought up its choice. -/
theorem Booted.into {out : Option StationResult} {l : List CommandEvent}
    (h : Booted g out l g') (hzero : faults l = 0) (hv : BootChoice g v) :
    BootedInto v out l g' := by
  cases h with
  | untouched _ hquiet => exact absurd hv (hquiet hzero v)
  | renamed hv' hwrites hdone =>
    obtain rfl := hv'.unique hv
    obtain ⟨rfl, hout, hmem⟩ := hdone hzero
    obtain ⟨q, hq, -⟩ := hv.holds
    constructor
    · exact hout
    · intro x
      constructor
      · intro hx
        -- the one command that changes the store is the renaming
        rcases hwrites _ hx rfl with hc | hc
        · cases hc
        · cases hc
          rfl
      · rintro rfl
        exact hmem
    · exact hv.holds_rename
    · refine ⟨q.rename SAVED_PROFILE, ?_, rfl⟩
      rw [Outcome.pick_done, Profiles.rename, Function.update_self, hq, Option.map_some]

end

/-- There is a boot whose commands are all done. -/
theorem exists_boot (s : ProfileStore) : ∃ out w, Backend.boot.Runs nmcli ⟨s, []⟩ out w ∧
    faults w.log = 0 := by
  obtain ⟨l, hlog, houtcomes⟩ := Backend.replay_log (.always .done) Backend.boot ⟨s, []⟩
  refine ⟨_, _, Backend.runs_replay (.always .done) Backend.boot ⟨s, []⟩, ?_⟩
  rw [hlog, List.nil_append]
  exact faults_eq_zero.mpr houtcomes

/-- **A boot whose commands are all done** brings up the profile there is to bring up. -/
theorem bootedInto_of_runs {s : ProfileStore} {v : Uuid} {w : World}
    {out : Except PyErr (Option StationResult)} (hv : BootChoice s.get v)
    (run : Backend.boot.Runs nmcli ⟨s, []⟩ out w) (hzero : faults w.log = 0) :
    ∃ r, out = .ok r ∧ BootedInto v r w.log w.store.get := by
  obtain ⟨r, l, rfl, hbooted, hlog⟩ := booted_of_runs run
  rw [List.nil_append] at hlog
  rw [hlog] at hzero ⊢
  exact ⟨r, rfl, hbooted.into hzero hv⟩

end Rave
