import RaveDeployment.Profiles.Attempt
import RaveDeployment.Profiles.Replay

/-!
# Ambiguous command results

A command that is reported failed may have taken effect. `connect_station` deletes the previous
profile last, and takes a failure of that command for a reason to roll back: the candidate is
demoted and deleted in favour of a profile that may be gone. `saved_or_backedUp_iff` says that this
is the only way to lose the saved network, and `station_lost` is a call that loses it.
-/

namespace Rave

open Prog

/-- The deletion of the previous profile `u` was reported failed although it took effect, the
rollback took effect on the candidate, and there was no older backup. -/
def Misled (g : Profiles) (u : Uuid) (l : List CommandEvent) : Prop :=
  ⟨.deleteUuid u, .failedAfter⟩ ∈ l ∧
    (∃ v, v ≠ u ∧ (Took l (.setIdentity v PENDING_PROFILE) ∨ Took l (.deleteUuid v))) ∧
    ∀ v, ¬Holds g PREVIOUS_PROFILE v

/-- Some profile carries one of the names the boot looks for. -/
def StationKept (g : Profiles) : Prop :=
  ∃ v, Holds g SAVED_PROFILE v ∨ Holds g PREVIOUS_PROFILE v

section

variable {g g' : Profiles} {previous : Option Uuid} {p u : Uuid} {ok : Bool}
  {l : List CommandEvent}

/-- A call that gives up keeps the saved profile, and misleads nobody. -/
theorem GaveUp.kept {out : Except PyErr StationResult} (h : GaveUp g out l g')
    (hu : Holds g SAVED_PROFILE u) : StationKept g' ∧ ¬Misled g u l := by
  refine ⟨⟨u, .inl ((h.others.holds pending_ne_saved.symm).mpr hu)⟩, ?_⟩
  rintro ⟨hdel, -, -⟩
  -- before an activation only candidates are deleted by UUID
  obtain ⟨q, hq, hid⟩ := hu
  have hpending : q.id = PENDING_PROFILE := (h.commands _ hdel).2 u rfl q hq
  exact pending_ne_saved (hpending.symm.trans hid)

/-- What the rollback does to the candidate, it does to nothing else. -/
theorem Attempt.rolledBack_iff (h : Attempt g previous p ok l g') (hu : previous = some u) :
    (∃ v, v ≠ u ∧ (Took l (.setIdentity v PENDING_PROFILE) ∨ Took l (.deleteUuid v))) ↔
      Took l (.setIdentity p PENDING_PROFILE) ∨ Took l (.deleteUuid p) := by
  constructor
  · rintro ⟨v, hv, htook⟩
    have hvp : v = p := by
      rcases htook with htook | htook
      · rcases h.log.named htook with ⟨hvp, -⟩ | ⟨-, hname⟩
        · exact hvp
        · exact absurd hname (by decide)
      · rcases h.log.deleted htook with hvp | hprev
        · exact hvp
        · exact absurd (Option.some.inj (hprev.symm.trans hu)) hv
    rwa [hvp] at htook
  · exact fun htook => ⟨p, (h.ne u hu).symm, htook⟩

/-- A call that brought its candidate up keeps a station profile unless the deletion misled it. -/
theorem Attempt.kept_iff (h : Attempt g previous p ok l g') (hu : previous = some u) :
    StationKept g' ↔ ¬Misled g u l := by
  constructor
  · rintro ⟨v, hv⟩ ⟨hfailed, hrolled, hnone⟩
    -- the old profile was deleted though the command was reported as failed
    have hdel : Took l (.deleteUuid u) := ⟨_, hfailed, rfl, by simp⟩
    rw [h.rolledBack_iff hu] at hrolled
    rcases hv with hv | hv
    · rcases h.holds_saved.mp hv with ⟨-, -, hpending, hremoved⟩ | ⟨hprev, hkept, -⟩
      · exact hrolled.elim hpending hremoved
      · cases hprev.symm.trans hu
        exact hkept hdel
    · rcases h.holds_previous.mp hv with hback | ⟨hprev, hkept, -⟩
      · exact hnone v hback
      · cases hprev.symm.trans hu
        exact hkept hdel
  · intro hnot
    by_cases hdel : Took l (.deleteUuid u)
    · -- the previous profile is gone: the candidate or an older backup is left
      have hsaved := h.log.promoted_of_deleted h.ne hu hdel
      by_cases hback : ∃ v, Holds g PREVIOUS_PROFILE v
      · obtain ⟨v, hv⟩ := hback
        exact ⟨v, .inr (h.holds_previous.mpr (.inl hv))⟩
      · have hnone := not_exists.mp hback
        suffices hstays : ¬Took l (.setIdentity p PENDING_PROFILE) ∧ ¬Took l (.deleteUuid p) from
          ⟨p, .inl (h.holds_saved.mpr (.inl ⟨rfl, hsaved, hstays⟩))⟩
        obtain ⟨⟨c, o⟩, hmem, rfl, hne⟩ := hdel
        cases o with
        | done =>
          obtain rfl : ok = true := h.log.ok_of_deleted h.ne hu hmem
          obtain ⟨-, hpending, hremoved, -⟩ := h.log.success h.ne
          exact ⟨hpending, hremoved⟩
        | failed => exact absurd rfl hne
        | failedAfter =>
          rw [← not_or, ← h.rolledBack_iff hu]
          exact fun hrolled => hnot ⟨hmem, hrolled, hnone⟩
    · -- the previous profile is there, under the one name or the other
      by_cases hrestored : Took l (.setIdentity u PREVIOUS_PROFILE) →
          Took l (.setIdentity u SAVED_PROFILE)
      · exact ⟨u, .inl (h.holds_saved.mpr (.inr ⟨hu, hdel, hrestored⟩))⟩
      · exact ⟨u, .inr (h.holds_previous.mpr (.inr ⟨hu, hdel, Classical.not_imp.mp hrestored⟩))⟩

end

section

variable [PyUnicode] {ssid : String} {password : Option String} {s : ProfileStore} {u : Uuid}
  {out : Except PyErr StationResult} {w : World}

/-- **The saved network is lost exactly where the rollback is misled** by the result of the last
deletion. -/
theorem saved_or_backedUp_iff (hsaved : ∀ v, Holds s.get SAVED_PROFILE v ↔ v = u)
    (run : (Backend.connectStation ssid password).Runs nmcli ⟨s, []⟩ out w) :
    StationKept w.store.get ↔ ¬Misled s.get u w.log := by
  obtain ⟨l, hconn, hlog⟩ := connected_of_runs run
  rw [List.nil_append] at hlog
  rw [hlog]
  have hu : Holds s.get SAVED_PROFILE u := (hsaved u).mpr rfl
  rcases hconn.attempt with hgave | ⟨previous, p, ok, -, hattempt⟩
  · have hkept := hgave.kept hu
    exact iff_of_true hkept.1 hkept.2
  · exact hattempt.kept_iff ((hattempt.saved u).mp hu)

end

def oneStation : ProfileStore where
  entries := [(.repeated 1, { id := SAVED_PROFILE, autoconnect := true, ssid := "home" })]
  nodup := by simp

/-- The store of the example has one saved profile. -/
theorem saved_oneStation : ∀ v, Holds oneStation.get SAVED_PROFILE v ↔ v = .repeated 1 :=
  ProfileStore.named_eq_singleton.mp (by decide)

/-- An open network is in range, and the deletion of the saved profile is reported failed after it
has taken effect. -/
def deletionTimesOut : Policy :=
  .withOutcomes "cafe:50::" (.repeated 2) fun c =>
    if c = .deleteUuid (.repeated 1) then .failedAfter else .done

def joinCafe (policy : Policy) (s : ProfileStore) : Except PyErr StationResult × World :=
  Backend.replay policy (@Backend.connectStation asciiUnicode "cafe" none) ⟨s, []⟩

theorem saved_or_backedUp_timesOut :
    StationKept (joinCafe deletionTimesOut oneStation).2.store.get ↔
      ¬Misled oneStation.get (.repeated 1) (joinCafe deletionTimesOut oneStation).2.log :=
  @saved_or_backedUp_iff asciiUnicode _ _ _ _ _ _ saved_oneStation
    (Backend.runs_replay deletionTimesOut _ _)

/-- **A saved network is lost to an ambiguous result.** -/
theorem station_lost : ¬∀ (_ : PyUnicode) (ssid : String) (password : Option String)
    (s : ProfileStore) (u : Uuid) (out : Except PyErr StationResult) (w : World),
    (∀ v, Holds s.get SAVED_PROFILE v ↔ v = u) →
      (Backend.connectStation ssid password).Runs nmcli ⟨s, []⟩ out w →
        StationKept w.store.get := by
  intro hall
  obtain ⟨v, hv⟩ := hall asciiUnicode "cafe" none oneStation (.repeated 1) _ _ saved_oneStation
    (Backend.runs_replay deletionTimesOut _ _)
  have hgone : (joinCafe deletionTimesOut oneStation).2.store.entries = [] := by decide +kernel
  have hnone : (joinCafe deletionTimesOut oneStation).2.store.get v = none := by
    rw [ProfileStore.get, hgone]
    rfl
  rcases hv with ⟨q, hq, -⟩ | ⟨q, hq, -⟩
  · cases hnone.symm.trans hq
  · cases hnone.symm.trans hq

end Rave
