import RaveDeployment.Profiles.Ambiguous
import RaveDeployment.Profiles.SingleFault
import RaveDeployment.Profiles.Boot

/-!
# Whole device lifetimes

A `Lifetime` is a sequence of `connect_station` calls and boots, each complete or killed, whose
commands may fail without effect. The boot can tell the saved profile apart as long as each of the
two names is carried once (`Unambiguous`). Two kinds of call break this:

* `TwoBackups`: a backup is left from an earlier call, and this call backs the saved profile up
  without restoring or deleting it;
* `TwoStations`: the candidate keeps the saved name although the previous profile has got it back.

`lifetime_unambiguous` says that these are the only two, and `two_backups` is a lifetime with the
first one.
-/

namespace Rave

open Prog

/-- Each name the boot looks for is carried at most once. -/
structure Unambiguous (g : Profiles) : Prop where
  saved : ∀ u v, Holds g SAVED_PROFILE u → Holds g SAVED_PROFILE v → u = v
  previous : ∀ u v, Holds g PREVIOUS_PROFILE u → Holds g PREVIOUS_PROFILE v → u = v

/-- The saved profile is backed up for good, beside an older backup. -/
def TwoBackups (g : Profiles) (l : List CommandEvent) : Prop :=
  ∃ u v, Holds g SAVED_PROFILE u ∧ Holds g PREVIOUS_PROFILE v ∧
    Took l (.setIdentity u PREVIOUS_PROFILE) ∧ ¬Took l (.setIdentity u SAVED_PROFILE) ∧
    ¬Took l (.deleteUuid u)

/-- The candidate keeps the saved name, which the previous profile gets back. -/
def TwoStations (g : Profiles) (l : List CommandEvent) : Prop :=
  ∃ u p, Holds g SAVED_PROFILE u ∧ p ≠ u ∧ Took l (.setIdentity p SAVED_PROFILE) ∧
    ¬Took l (.setIdentity p PENDING_PROFILE) ∧ ¬Took l (.deleteUuid p) ∧
    Took l (.setIdentity u SAVED_PROFILE)

def Clear (g : Profiles) (l : List CommandEvent) : Prop :=
  ¬TwoBackups g l ∧ ¬TwoStations g l

/-! ## One call

When a single call keeps the names unambiguous. The two ways in which it does not are read off its
log. -/

section

variable {g g' : Profiles} {previous : Option Uuid} {p u v : Uuid} {ok : Bool}
  {l l' : List CommandEvent}

/-- A profile carries one name. -/
theorem Holds.name_eq {name name' : ProfileName} (h : Holds g name u) (h' : Holds g name' u) :
    name = name' := by
  obtain ⟨q, hq, hid⟩ := h
  obtain ⟨q', hq', hid'⟩ := h'
  cases hq.symm.trans hq'
  exact hid.symm.trans hid'

/-- Where no command is reported failed after it took effect, a profile that was deleted has not
been restored. -/
theorem AttemptLog.not_restored (h : AttemptLog previous p ok l) (hne : ∀ u ∈ previous, u ≠ p)
    (hplain : ∀ e ∈ l, e.outcome ≠ .failedAfter) (hu : previous = some u)
    (hdel : Took l (.deleteUuid u)) : ¬Took l (.setIdentity u SAVED_PROFILE) := by
  obtain ⟨⟨c, o⟩, hmem, rfl, hne'⟩ := hdel
  cases o with
  | failed => exact absurd rfl hne'
  | failedAfter => exact absurd rfl (hplain _ hmem)
  | done =>
    obtain rfl := h.ok_of_deleted hne hu hmem
    cases h with
    | promoted hpre hl =>
      rw [took_setIdentity_iff hpre]
      exact (hl.not_undone hne).2.2 u hu

/-- An attempt keeps the names unambiguous exactly when it is neither. -/
theorem Attempt.unambiguous_iff (h : Attempt g previous p ok l g') (hg : Unambiguous g)
    (hplain : ∀ e ∈ l, e.outcome ≠ .failedAfter) : Unambiguous g' ↔ Clear g l := by
  constructor
  · intro hg'
    constructor
    · rintro ⟨u, v, hu, hv, hbacked, hrestored, hkept⟩
      have hprev : previous = some u := (h.saved u).mp hu
      have hu' := h.holds_previous.mpr (.inr ⟨hprev, hkept, hbacked, hrestored⟩)
      have hv' := h.holds_previous.mpr (.inl hv)
      obtain rfl := hg'.previous u v hu' hv'
      exact previous_ne_saved (hv.name_eq hu)
    · rintro ⟨u, v, hu, hvu, hnamed, hstays, hkept, hrestored⟩
      have hprev : previous = some u := (h.saved u).mp hu
      have hvp : v = p := by
        rcases h.log.named hnamed with ⟨hv, -⟩ | ⟨hv, -⟩
        · exact hv
        · exact absurd (Option.some.inj (hv.symm.trans hprev)) hvu
      subst hvp
      have hdel : ¬Took l (.deleteUuid u) := fun htook =>
        h.log.not_restored h.ne hplain hprev htook hrestored
      have hv' := h.holds_saved.mpr (.inl ⟨rfl, hnamed, hstays, hkept⟩)
      have hu' := h.holds_saved.mpr (.inr ⟨hprev, hdel, fun _ => hrestored⟩)
      exact hvu (hg'.saved v u hv' hu')
  · rintro ⟨hbackups, hstations⟩
    -- the candidate and the previous profile cannot both be the saved one
    have hone : ∀ u, previous = some u → Took l (.setIdentity p SAVED_PROFILE) →
        ¬Took l (.setIdentity p PENDING_PROFILE) → ¬Took l (.deleteUuid p) →
        ¬(Took l (.setIdentity u PREVIOUS_PROFILE) → Took l (.setIdentity u SAVED_PROFILE)) := by
      intro u hprev hnamed hstays hkept hback
      have hrestored := hback (h.log.backedUp h.ne hnamed u hprev)
      exact hstations
        ⟨u, p, (h.saved u).mpr hprev, (h.ne u hprev).symm, hnamed, hstays, hkept, hrestored⟩
    constructor
    · intro x y hx hy
      rcases h.holds_saved.mp hx with ⟨rfl, hnamed, hstays, hkept⟩ | ⟨hx, -, hback⟩
      · rcases h.holds_saved.mp hy with ⟨hy, -⟩ | ⟨hy, -, hback⟩
        · exact hy.symm
        · exact absurd hback (hone y hy hnamed hstays hkept)
      · rcases h.holds_saved.mp hy with ⟨rfl, hnamed, hstays, hkept⟩ | ⟨hy, -⟩
        · exact absurd hback (hone x hx hnamed hstays hkept)
        · exact Option.some.inj (hx.symm.trans hy)
    · intro x y hx hy
      rcases h.holds_previous.mp hx with hx | ⟨hx, hkept, hbacked, hrestored⟩
      · rcases h.holds_previous.mp hy with hy | ⟨hy, hkept, hbacked, hrestored⟩
        · exact hg.previous x y hx hy
        · exact absurd ⟨y, x, (h.saved y).mpr hy, hx, hbacked, hrestored, hkept⟩ hbackups
      · rcases h.holds_previous.mp hy with hy | ⟨hy, -⟩
        · exact absurd ⟨x, y, (h.saved x).mpr hx, hy, hbacked, hrestored, hkept⟩ hbackups
        · exact Option.some.inj (hx.symm.trans hy)

/-- A call that gives up keeps them unambiguous. -/
theorem GaveUp.unambiguous {out : Except PyErr StationResult} (h : GaveUp g out l g')
    (hg : Unambiguous g) : Unambiguous g' ∧ Clear g l := by
  have hnot : ∀ v name, ¬Took l (.setIdentity v name) := by
    rintro v name ⟨e, he, hc, -⟩
    exact (h.commands e he).1 v name hc
  refine ⟨⟨fun x y hx hy => ?_, fun x y hx hy => ?_⟩, ?_, ?_⟩
  · exact hg.saved x y ((h.others.holds pending_ne_saved.symm).mp hx)
      ((h.others.holds pending_ne_saved.symm).mp hy)
  · exact hg.previous x y ((h.others.holds pending_ne_previous.symm).mp hx)
      ((h.others.holds pending_ne_previous.symm).mp hy)
  · rintro ⟨u, v, -, -, hbacked, -⟩
    exact hnot _ _ hbacked
  · rintro ⟨u, v, -, -, hnamed, -⟩
    exact hnot _ _ hnamed

theorem Booted.unambiguous {out : Option StationResult} (h : Booted g out l g')
    (hg : Unambiguous g) : Unambiguous g' ∧ Clear g l := by
  cases h with
  | untouched hreads =>
    refine ⟨hg, ?_, ?_⟩
    · rintro ⟨u, v, -, -, hbacked, -⟩
      exact hreads.not_setIdentity _ _ hbacked
    · rintro ⟨u, v, -, -, hnamed, -⟩
      exact hreads.not_setIdentity _ _ hnamed
  | @renamed x o hx hwrites =>
    -- a boot writes one name at most, the saved one, to one profile
    have hnamed : ∀ v name, Took l (.setIdentity v name) → v = x ∧ name = SAVED_PROFILE := by
      rintro v name ⟨e, he, hc, -⟩
      rcases hwrites e he (by rw [hc]; rfl) with hc' | hc'
      · cases hc.symm.trans hc'
        exact ⟨rfl, rfl⟩
      · cases hc.symm.trans hc'
    refine ⟨?_, ?_, ?_⟩
    · have hrenamed : Unambiguous (Profiles.rename g x SAVED_PROFILE) := by
        constructor
        · intro u v hu hv
          rw [hx.holds_rename] at hu hv
          rw [hu, hv]
        · -- a backup is one from before the boot
          have hback : ∀ v, Holds (Profiles.rename g x SAVED_PROFILE) PREVIOUS_PROFILE v →
              Holds g PREVIOUS_PROFILE v := by
            intro v hv
            by_cases hvx : v = x
            · have hsaved := (hx.holds_rename v).mpr hvx
              exact absurd (hv.name_eq hsaved) previous_ne_saved
            · obtain ⟨q, hq, hid⟩ := hv
              rw [Profiles.rename, Function.update_of_ne hvx] at hq
              exact ⟨q, hq, hid⟩
          exact fun u v hu hv => hg.previous u v (hback u hu) (hback v hv)
      cases o with
      | done => exact hrenamed
      | failed => exact hg
      | failedAfter => exact hrenamed
    · rintro ⟨u, v, -, -, hbacked, -⟩
      exact previous_ne_saved (hnamed _ _ hbacked).2
    · rintro ⟨u, v, -, hvu, hv, -, -, hu⟩
      exact hvu ((hnamed _ _ hv).1.trans (hnamed _ _ hu).1.symm)

/-- Without an ambiguous result a call never loses the saved network. -/
theorem Attempt.stationKept (h : Attempt g previous p ok l g')
    (hplain : ∀ e ∈ l, e.outcome ≠ .failedAfter) (hg : StationKept g) : StationKept g' := by
  cases hprev : previous with
  | none =>
    obtain ⟨v, hv | hv⟩ := hg
    · have hsome := (h.saved v).mp hv
      rw [hprev] at hsome
      cases hsome
    · exact ⟨v, .inr (h.holds_previous.mpr (.inl hv))⟩
  | some u =>
    rw [h.kept_iff hprev]
    exact fun hmisled => hplain _ hmisled.1 rfl

/-- A call that gives up keeps a station profile. -/
theorem GaveUp.stationKept {out : Except PyErr StationResult} (h : GaveUp g out l g')
    (hg : StationKept g) : StationKept g' := by
  obtain ⟨v, hv⟩ := hg
  refine ⟨v, hv.imp ?_ ?_⟩
  · exact (h.others.holds pending_ne_saved.symm).mpr
  · exact (h.others.holds pending_ne_previous.symm).mpr

theorem Booted.stationKept {out : Option StationResult} (h : Booted g out l g')
    (hg : StationKept g) : StationKept g' := by
  cases h with
  | untouched => exact hg
  | @renamed x o hx =>
    have hrenamed : StationKept (Profiles.rename g x SAVED_PROFILE) :=
      ⟨x, .inl ((hx.holds_rename x).mpr rfl)⟩
    cases o with
    | done => exact hrenamed
    | failed => exact hg
    | failedAfter => exact hrenamed

/-- Commands that failed make no difference. -/
theorem clear_append_iff {g : Profiles} {l' : List CommandEvent}
    (hfailed : ∀ e ∈ l', e.outcome = .failed) : Clear g (l ++ l') ↔ Clear g l := by
  have hnone : ∀ c, ¬Took l' c := fun c => not_took_of_failed hfailed
  simp only [Clear, TwoBackups, TwoStations, took_append, hnone, or_false]

/-- A boot knows which profile to bring up. -/
theorem Unambiguous.exists_bootChoice (hg : Unambiguous g) (hkept : StationKept g) :
    ∃ v, BootChoice g v := by
  by_cases hsaved : ∃ v, Holds g SAVED_PROFILE v
  · obtain ⟨v, hv⟩ := hsaved
    refine ⟨v, .saved fun x => ⟨fun hx => hg.saved x v hx hv, ?_⟩⟩
    rintro rfl
    exact hv
  · obtain ⟨v, hv | hv⟩ := hkept
    · exact absurd ⟨v, hv⟩ hsaved
    · refine ⟨v, .previous (not_exists.mp hsaved) fun x => ⟨fun hx => hg.previous x v hx hv, ?_⟩⟩
      rintro rfl
      exact hv

end

/-! ## Lifetimes

Call after call, from a device without a station. -/

section

variable [PyUnicode]

/-- One call, complete or killed, from `s` to `s'`: its commands, and whether it was a
`connect_station` that returned success. -/
inductive Called (s : ProfileStore) : List CommandEvent → Bool → ProfileStore → Prop where
  | connect {ssid : String} {password : Option String} {out : Except PyErr StationResult}
      {w : World} (run : (Backend.connectStation ssid password).Runs nmcli ⟨s, []⟩ out w) :
      Called s w.log (succeeded out) w.store
  | connectKilled {ssid : String} {password : Option String} {rest : Backend StationResult}
      {w : World} (stopped : (Backend.connectStation ssid password).Reaches nmcli ⟨s, []⟩ rest w) :
      Called s w.log false w.store
  | boot {out : Except PyErr (Option StationResult)} {w : World}
      (run : Backend.boot.Runs nmcli ⟨s, []⟩ out w) : Called s w.log false w.store
  | bootKilled {rest : Backend (Option StationResult)} {w : World}
      (stopped : Backend.boot.Reaches nmcli ⟨s, []⟩ rest w) : Called s w.log false w.store

/-- A call of a lifetime, with the profiles it found. -/
structure CallRecord where
  before : ProfileStore
  log : List CommandEvent
  connected : Bool

/-- A sequence of calls on a new device, none of whose commands is reported failed after it took
effect, and the profiles it leaves. -/
inductive Lifetime : List CallRecord → ProfileStore → Prop where
  | fresh {s : ProfileStore} (h : ∀ v, ¬Holds s.get SAVED_PROFILE v ∧
      ¬Holds s.get PREVIOUS_PROFILE v ∧ ¬Holds s.get PENDING_PROFILE v) : Lifetime [] s
  | call {cs : List CallRecord} {s s' : ProfileStore} {l : List CommandEvent} {connected : Bool}
      (life : Lifetime cs s) (called : Called s l connected s')
      (plain : ∀ e ∈ l, e.outcome ≠ .failedAfter) : Lifetime (cs ++ [⟨s, l, connected⟩]) s'

variable {s s' : ProfileStore} {l : List CommandEvent} {connected : Bool} {cs : List CallRecord}

/-- A killed call is a complete one whose last commands failed. -/
theorem Called.ended (h : Called s l connected s') : ∃ l', (∀ e ∈ l', e.outcome = .failed) ∧
    ((∃ out, Connected s.get out (l ++ l') s'.get ∧ (connected = true → succeeded out = true)) ∨
      (∃ out, Booted s.get out (l ++ l') s'.get) ∧ connected = false) := by
  cases h with
  | @connect _ _ out w run =>
    obtain ⟨l₁, hconn, hlog⟩ := connected_of_runs run
    rw [List.nil_append] at hlog
    subst hlog
    exact ⟨[], by simp, .inl ⟨out, by rwa [List.append_nil], id⟩⟩
  -- a call that was killed is completed by commands that all fail, which leave the store alone
  | connectKilled stopped =>
    obtain ⟨out, w', l', run, hlog, hfailed, hstore⟩ := Backend.exists_completion stopped
    obtain ⟨l₁, hconn, hlog'⟩ := connected_of_runs run
    rw [List.nil_append, hlog] at hlog'
    subst hlog'
    rw [hstore] at hconn
    exact ⟨l', hfailed, .inl ⟨out, hconn, by simp⟩⟩
  | boot run =>
    obtain ⟨r, l₁, -, hbooted, hlog⟩ := booted_of_runs run
    rw [List.nil_append] at hlog
    subst hlog
    exact ⟨[], by simp, .inr ⟨⟨r, by rwa [List.append_nil]⟩, rfl⟩⟩
  | bootKilled stopped =>
    obtain ⟨out, w', l', run, hlog, hfailed, hstore⟩ := Backend.exists_completion stopped
    obtain ⟨r, l₁, -, hbooted, hlog'⟩ := booted_of_runs run
    rw [List.nil_append, hlog] at hlog'
    subst hlog'
    rw [hstore] at hbooted
    exact ⟨l', hfailed, .inr ⟨⟨r, hbooted⟩, rfl⟩⟩

/-- **One call**: it keeps the names unambiguous exactly where it is clear, and never loses a
station. -/
theorem Called.step (h : Called s l connected s') (plain : ∀ e ∈ l, e.outcome ≠ .failedAfter)
    (hs : Unambiguous s.get) : (Unambiguous s'.get ↔ Clear s.get l) ∧
      (StationKept s.get ∨ connected = true → StationKept s'.get) := by
  -- a call that was cut off is one whose remaining commands all fail
  obtain ⟨l', hfailed, hended⟩ := h.ended
  have hplain : ∀ e ∈ l ++ l', e.outcome ≠ .failedAfter := by
    intro e he
    rcases List.mem_append.mp he with he | he
    · exact plain e he
    · rw [hfailed e he]
      decide
  rw [← clear_append_iff hfailed]
  -- a connection that gave up, one that was attempted, or a start at boot
  rcases hended with ⟨out, hconn, hout⟩ | ⟨⟨out, hbooted⟩, rfl⟩
  · rcases hconn.attempt with hgave | ⟨previous, p, ok, ⟨r, rfl, hr⟩, hattempt⟩
    · obtain ⟨hs', hclear⟩ := hgave.unambiguous hs
      refine ⟨iff_of_true hs' hclear, ?_⟩
      rintro (hkept | hconnected)
      · exact hgave.stationKept hkept
      · -- a call that gave up has not returned success
        have htrue := hout hconnected
        cases out with
        | ok r => rw [succeeded, hgave.failed r rfl] at htrue; cases htrue
        | error e => cases htrue
    · refine ⟨hattempt.unambiguous_iff hs hplain, ?_⟩
      rintro (hkept | hconnected)
      · exact hattempt.stationKept hplain hkept
      · have htrue := hout hconnected
        rw [succeeded, hr] at htrue
        subst htrue
        exact ⟨p, .inl ((hattempt.succeeds.saved p).mpr rfl)⟩
  · obtain ⟨hs', hclear⟩ := hbooted.unambiguous hs
    refine ⟨iff_of_true hs' hclear, ?_⟩
    rintro (hkept | hconnected)
    · exact hbooted.stationKept hkept
    · cases hconnected

/-- The names are unambiguous in every state between two calls. -/
def AlwaysUnambiguous (cs : List CallRecord) (s : ProfileStore) : Prop :=
  (∀ c ∈ cs, Unambiguous c.before.get) ∧ Unambiguous s.get

/-- The names are always unambiguous exactly when every call is clear. -/
theorem Lifetime.alwaysUnambiguous_iff (life : Lifetime cs s) :
    AlwaysUnambiguous cs s ↔ ∀ c ∈ cs, Clear c.before.get c.log := by
  induction life with
  | @fresh s h =>
    refine iff_of_true ⟨by simp, ?_, ?_⟩ (by simp)
    · exact fun u _ hu => absurd hu (h u).1
    · exact fun u _ hu => absurd hu (h u).2.1
  | @call cs s s' l connected life called plain ih =>
    have hstates : AlwaysUnambiguous (cs ++ [⟨s, l, connected⟩]) s' ↔
        AlwaysUnambiguous cs s ∧ Unambiguous s'.get := by
      simp [AlwaysUnambiguous, or_imp, forall_and]
    rw [hstates]
    have hcalls : (∀ c ∈ cs ++ [⟨s, l, connected⟩], Clear c.before.get c.log) ↔
        (∀ c ∈ cs, Clear c.before.get c.log) ∧ Clear s.get l := by
      simp [or_imp, forall_and]
    rw [hcalls, ih]
    refine and_congr_right fun hclear => ?_
    exact (called.step plain (ih.mpr hclear).2).1

/-- Once a station has been connected, one is kept. -/
theorem Lifetime.stationKept (life : Lifetime cs s)
    (hclear : ∀ c ∈ cs, Clear c.before.get c.log) (hconnected : ∃ c ∈ cs, c.connected = true) :
    StationKept s.get := by
  induction life with
  | fresh => simp at hconnected
  | @call cs s s' l connected life called plain ih =>
    have hbefore : ∀ c ∈ cs, Clear c.before.get c.log := fun c hc =>
      hclear c (List.mem_append_left _ hc)
    have hs := (life.alwaysUnambiguous_iff.mpr hbefore).2
    refine (called.step plain hs).2 ?_
    obtain ⟨c, hc, htrue⟩ := hconnected
    rcases List.mem_append.mp hc with hc | hc
    · exact .inl (ih hbefore ⟨c, hc, htrue⟩)
    · rw [List.mem_singleton.mp hc] at htrue
      exact .inr htrue

end

/-! ## A lifetime with two backups

A replacement in which both the deletion and the rollback fail leaves a backup; the next such
replacement leaves a second one. -/

/-- Connect to the open network again and again, under one policy after the other. -/
def joinAgain : List Policy → ProfileStore → List CallRecord × ProfileStore
  | [], s => ([], s)
  | policy :: policies, s =>
    let joined := joinCafe policy s
    let later := joinAgain policies joined.2.store
    (⟨s, joined.2.log, succeeded joined.1⟩ :: later.1, later.2)

/-- One call, and then the others from what it has left. -/
theorem joinAgain_cons {policy : Policy} {policies : List Policy} {s t : ProfileStore}
    (h : (joinCafe policy s).2.store = t) :
    (joinAgain (policy :: policies) s).2 = (joinAgain policies t).2 := by
  rw [joinAgain, h]

/-- Further calls lengthen a lifetime. -/
theorem Lifetime.joinAgain {policies : List Policy} {s : ProfileStore} {cs : List CallRecord}
    (life : @Lifetime asciiUnicode cs s)
    (hplain : ∀ policy ∈ policies, ∀ c, (policy c).outcome ≠ .failedAfter) :
    @Lifetime asciiUnicode (cs ++ (joinAgain policies s).1) (joinAgain policies s).2 := by
  induction policies generalizing cs s with
  | nil => simpa [Rave.joinAgain] using life
  | cons policy policies ih =>
    have hcalled : @Called asciiUnicode s (joinCafe policy s).2.log (succeeded (joinCafe policy s).1)
        (joinCafe policy s).2.store :=
      @Called.connect asciiUnicode _ _ _ _ _ (Backend.runs_replay policy _ _)
    -- the outcomes in the log are those that the policy gave
    have hlog : ∀ e ∈ (joinCafe policy s).2.log, e.outcome ≠ .failedAfter := by
      obtain ⟨l, hlog, houtcomes⟩ := Backend.replay_log policy
        (@Backend.connectStation asciiUnicode "cafe" none) ⟨s, []⟩
      rw [joinCafe, hlog]
      intro e he
      rw [houtcomes e he]
      exact hplain policy (by simp) e.command
    have hlater := ih (@Lifetime.call asciiUnicode _ _ _ _ _ life hcalled hlog)
      fun policy hpolicy => hplain policy (by simp [hpolicy])
    simpa [Rave.joinAgain] using hlater

def noStation : ProfileStore where
  entries := []
  nodup := by simp

theorem lifetime_joinAgain (policies : List Policy)
    (hplain : ∀ policy ∈ policies, ∀ c, (policy c).outcome ≠ .failedAfter) :
    @Lifetime asciiUnicode (joinAgain policies noStation).1 (joinAgain policies noStation).2 := by
  have hfresh : @Lifetime asciiUnicode [] noStation :=
    @Lifetime.fresh asciiUnicode _ (by simp [noStation, Holds, ProfileStore.get])
  exact hfresh.joinAgain hplain

/-- The open network is in range, and every command is done. -/
def allDone (created : Fin 16) : Policy :=
  .withOutcomes "cafe:50::" (.repeated created) fun _ => .done

/-- The saved profile can neither be deleted nor get its name back. -/
def savedStuck (saved created : Fin 16) : Policy :=
  .withOutcomes "cafe:50::" (.repeated created) fun c =>
    if c = .deleteUuid (.repeated saved) ∨ c = .setIdentity (.repeated saved) SAVED_PROFILE then
      .failed
    else .done

theorem allDone_plain (created : Fin 16) (c : Command) :
    (allDone created c).outcome ≠ .failedAfter := by
  simp [allDone, Policy.withOutcomes]

theorem savedStuck_plain (saved created : Fin 16) (c : Command) :
    (savedStuck saved created c).outcome ≠ .failedAfter := by
  rw [savedStuck, Policy.withOutcomes]
  dsimp only
  split <;> decide

/-- A store is its entries. -/
theorem eq_of_entries {s t : ProfileStore} (h : s.entries = t.entries) : s = t := by
  cases s
  cases t
  cases h
  rfl

def joinedOnce : ProfileStore where
  entries := [(.repeated 1, ⟨SAVED_PROFILE, false, "cafe"⟩)]
  nodup := by simp

/-- What a first call leaves, and that it succeeds. -/
theorem joinCafe_noStation : (joinCafe (allDone 1) noStation).2.store = joinedOnce ∧
    succeeded (joinCafe (allDone 1) noStation).1 = true := by
  have h : (joinCafe (allDone 1) noStation).2.store.entries = joinedOnce.entries ∧
      succeeded (joinCafe (allDone 1) noStation).1 = true := by
    decide +kernel
  exact ⟨eq_of_entries h.1, h.2⟩

/-- Whether the names are unambiguous can be looked up. -/
theorem unambiguous_of_named {s : ProfileStore} {v : Uuid} (hsaved : s.named SAVED_PROFILE = [v])
    (hprevious : s.named PREVIOUS_PROFILE = []) : Unambiguous s.get := by
  have hv := ProfileStore.named_eq_singleton.mp hsaved
  have hnone := ProfileStore.named_eq_nil.mp hprevious
  constructor
  · intro x y hx hy
    rw [(hv x).mp hx, (hv y).mp hy]
  · intro x y hx _
    exact absurd hx (hnone x)

/-- The boot of a device on which one call has succeeded. -/
def bootOnce : Except PyErr (Option StationResult) × World :=
  Backend.replay (allDone 2) Backend.boot ⟨joinedOnce, []⟩

/-- Two replacements of which neither the last deletion nor the rollback's renaming succeeds. -/
def replacedTwice : List Policy :=
  [allDone 1, savedStuck 1 2, allDone 3, savedStuck 3 4]

/-- What the second call leaves: the first profile, as a backup. -/
def leftBackup : ProfileStore where
  entries := [(.repeated 1, ⟨PREVIOUS_PROFILE, false, "cafe"⟩)]
  nodup := by simp

theorem joinCafe_joinedOnce : (joinCafe (savedStuck 1 2) joinedOnce).2.store = leftBackup :=
  eq_of_entries (by decide +kernel)

def rejoined : ProfileStore where
  entries := [(.repeated 1, ⟨PREVIOUS_PROFILE, false, "cafe"⟩),
    (.repeated 3, ⟨SAVED_PROFILE, false, "cafe"⟩)]
  nodup := by decide

/-- What the third call leaves, and that it succeeds. -/
theorem joinCafe_leftBackup : (joinCafe (allDone 3) leftBackup).2.store = rejoined ∧
    succeeded (joinCafe (allDone 3) leftBackup).1 = true := by
  have h : (joinCafe (allDone 3) leftBackup).2.store.entries = rejoined.entries ∧
      succeeded (joinCafe (allDone 3) leftBackup).1 = true := by
    decide +kernel
  exact ⟨eq_of_entries h.1, h.2⟩

/-- Two profiles carry the name of the backup. -/
theorem named_replacedTwice : (joinAgain replacedTwice noStation).2.named PREVIOUS_PROFILE =
    [.repeated 1, .repeated 3] := by
  have hfirst : (joinAgain replacedTwice noStation).2 =
      (joinAgain [savedStuck 1 2, allDone 3, savedStuck 3 4] joinedOnce).2 :=
    joinAgain_cons joinCafe_noStation.1
  have hsecond : (joinAgain [savedStuck 1 2, allDone 3, savedStuck 3 4] joinedOnce).2 =
      (joinAgain [allDone 3, savedStuck 3 4] leftBackup).2 :=
    joinAgain_cons joinCafe_joinedOnce
  have hthird : (joinAgain [allDone 3, savedStuck 3 4] leftBackup).2 =
      (joinAgain [savedStuck 3 4] rejoined).2 :=
    joinAgain_cons joinCafe_leftBackup.1
  have hlast : (joinAgain [savedStuck 3 4] rejoined).2.named PREVIOUS_PROFILE =
      [.repeated 1, .repeated 3] := by
    decide +kernel
  rw [hfirst, hsecond, hthird, hlast]

end Rave
