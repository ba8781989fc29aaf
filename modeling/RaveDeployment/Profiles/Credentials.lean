import RaveDeployment.Profiles.Lifetimes

/-!
# The credentials a successful call leaves

A `connect_station` that returns success deletes the profile it found under the saved name, and only
that one. `soleCredential_iff` says when the new profile is then the only station credential, and
`not_soleCredential` is a lifetime with a backup left over.
-/

namespace Rave

def IsCredential (name : ProfileName) : Prop :=
  name = SAVED_PROFILE ∨ name = PENDING_PROFILE ∨ name = PREVIOUS_PROFILE

/-- The profile `p`, which the call brought up, is the only station credential. -/
structure SoleCredential (l : List CommandEvent) (g : Profiles) (p : Uuid) : Prop where
  activated : ∀ v, ⟨.upUuid v, .done⟩ ∈ l ↔ v = p
  saved : ∃ q, g p = some q ∧ q.id = SAVED_PROFILE ∧ q.autoconnect = false
  alone : ∀ v q, g v = some q → IsCredential q.id → v = p

/-- After a success the candidate is the only credential exactly when no backup was there before. -/
theorem Attempt.sole_iff {g g' : Profiles} {previous : Option Uuid} {p : Uuid}
    {l : List CommandEvent} (h : Attempt g previous p true l g') :
    (∃ v, SoleCredential l g' v) ↔ ∀ v, ¬Holds g PREVIOUS_PROFILE v := by
  have hreplaced := h.succeeds
  obtain ⟨-, -, -, hdel⟩ := h.log.success h.ne
  constructor
  · intro hsole v hback
    obtain ⟨x, hsole⟩ := hsole
    obtain ⟨q, hq, hid⟩ := h.holds_previous.mpr (.inl hback)
    -- the backup is a credential too, and is not the saved profile
    have hv : v = x := hsole.alone v q hq (.inr (.inr hid))
    obtain ⟨b, hb, hsaved, -⟩ := hsole.saved
    rw [← hv, hq] at hb
    rw [← Option.some.inj hb, hid] at hsaved
    exact previous_ne_saved hsaved
  · intro hnone
    refine ⟨p, hreplaced.activated, ?_, ?_⟩
    · obtain ⟨q, hq, hid⟩ := (hreplaced.saved p).mpr rfl
      obtain ⟨q', hq', hauto⟩ := hreplaced.autoconnect
      rw [hq] at hq'
      rw [← Option.some.inj hq'] at hauto
      exact ⟨q, hq, hid, hauto⟩
    · intro v q hq hcredential
      rcases hcredential with hid | hid | hid
      · exact (hreplaced.saved v).mp ⟨q, hq, hid⟩
      · by_contra hv
        exact h.not_holds_pending hv ⟨q, hq, hid⟩
      · rcases h.holds_previous.mp ⟨q, hq, hid⟩ with hback | ⟨hprev, hkept, -, -⟩
        · exact absurd hback (hnone v)
        · exact absurd (hdel v hprev) hkept

section

variable [PyUnicode] {s s' : ProfileStore} {l : List CommandEvent}

/-- **A `connect_station` that returns success leaves one station credential exactly where it found
no backup.** -/
theorem soleCredential_iff (called : Called s l true s') :
    (∃ p, SoleCredential l s'.get p) ↔ ∀ v, ¬Holds s.get PREVIOUS_PROFILE v := by
  generalize hconnected : true = connected at called
  cases called with
  | @connect _ _ out w run =>
    obtain ⟨l, hconn, hlog⟩ := connected_of_runs run
    rw [List.nil_append] at hlog
    rw [hlog]
    rcases hconn.attempt with hgave | ⟨previous, p, ok, ⟨r, hout, hr⟩, hattempt⟩
    · cases out with
      | ok r =>
        rw [succeeded, hgave.failed r rfl] at hconnected
        cases hconnected
      | error e => cases hconnected
    · rw [hout, succeeded, hr] at hconnected
      rw [← hconnected] at hattempt
      exact hattempt.sole_iff
  | connectKilled | boot | bootKilled => cases hconnected

end

/-- The first call on a new device, and one that replaces the profile of the first. -/
theorem soleCredential_first :
    (∃ p, SoleCredential (joinCafe (allDone 1) noStation).2.log
      (joinCafe (allDone 1) noStation).2.store.get p) ∧
    ∃ p, SoleCredential (joinCafe (allDone 2) joinedOnce).2.log
      (joinCafe (allDone 2) joinedOnce).2.store.get p := by
  have hcalled : ∀ policy s, succeeded (joinCafe policy s).1 = true →
      @Called asciiUnicode s (joinCafe policy s).2.log true (joinCafe policy s).2.store := by
    intro policy s hsucceeded
    rw [← hsucceeded]
    exact @Called.connect asciiUnicode _ _ _ _ _ (Backend.runs_replay policy _ _)
  have hreplaced : succeeded (joinCafe (allDone 2) joinedOnce).1 = true := by decide +kernel
  have hnone : joinedOnce.named PREVIOUS_PROFILE = [] := by decide
  constructor
  · refine (@soleCredential_iff asciiUnicode _ _ _ (hcalled _ _ joinCafe_noStation.2)).mpr ?_
    simp [noStation, Holds, ProfileStore.get]
  · exact (@soleCredential_iff asciiUnicode _ _ _ (hcalled _ _ hreplaced)).mpr
      (ProfileStore.named_eq_nil.mp hnone)

/-- A call after a replacement of which neither the last deletion nor the rollback's renaming
succeeded. -/
def replacedAndJoined : List Policy :=
  [allDone 1, savedStuck 1 2]

/-- **A backup left over from an earlier call stays.** -/
theorem not_soleCredential : ¬∀ (_ : PyUnicode) (cs : List CallRecord) (s s' : ProfileStore)
    (l : List CommandEvent), Lifetime cs s → Called s l true s' →
      (∀ e ∈ l, e.outcome ≠ .failedAfter) → ∃ p, SoleCredential l s'.get p := by
  intro hall
  -- the lifetime: one call joins, and the next one replaces the profile but leaves its backup
  have hlife := lifetime_joinAgain replacedAndJoined
    (by simp [replacedAndJoined, allDone_plain, savedStuck_plain])
  have hjoined : (joinAgain replacedAndJoined noStation).2 =
      (joinAgain [savedStuck 1 2] joinedOnce).2 :=
    joinAgain_cons joinCafe_noStation.1
  have hs : (joinAgain [savedStuck 1 2] joinedOnce).2 = leftBackup :=
    joinAgain_cons joinCafe_joinedOnce
  rw [hjoined, hs] at hlife
  have hcalled : @Called asciiUnicode leftBackup (joinCafe (allDone 3) leftBackup).2.log
      (succeeded (joinCafe (allDone 3) leftBackup).1) (joinCafe (allDone 3) leftBackup).2.store :=
    @Called.connect asciiUnicode _ _ _ _ _ (Backend.runs_replay (allDone 3) _ _)
  have hplain : ∀ e ∈ (joinCafe (allDone 3) leftBackup).2.log, e.outcome ≠ .failedAfter := by
    obtain ⟨l, hlog, houtcomes⟩ := Backend.replay_log (allDone 3)
      (@Backend.connectStation asciiUnicode "cafe" none) ⟨leftBackup, []⟩
    rw [joinCafe, hlog]
    intro e he
    rw [houtcomes e he]
    exact allDone_plain 3 e.command
  rw [joinCafe_leftBackup.2] at hcalled
  obtain ⟨p, hsole⟩ := hall asciiUnicode _ _ _ _ hlife hcalled hplain
  -- the backup is still there, so the new credential is not the only one
  have hnone := (@soleCredential_iff asciiUnicode _ _ _ hcalled).mp ⟨p, hsole⟩
  have hnamed : leftBackup.named PREVIOUS_PROFILE = [.repeated 1] := by decide
  exact hnone (.repeated 1) (ProfileStore.mem_named.mp (by simp [hnamed]))

end Rave
