import RaveDeployment.Profiles.Commands

/-!
# Promotion and rollback

`_promote_pending_profile` and `_rollback_promotion` touch two profiles, the candidate `p` and the
previous one. `cells` holds the two apart from the rest, and the two methods become relations
between the contents of the two cells:

* `Promotion previous p l ok old new old' new'` lists the ways a promotion can go, with the commands
  `l` it has issued and their outcomes. It succeeds only if every command was done.
* `Rollback` is not interested in the outcomes of its commands, so all of them occur.
-/

namespace Rave

open Prog

/-- The profiles `g`, but for the candidate `p` and the previous profile. -/
def cells (g : Profiles) (previous : Option Uuid) (p : Uuid) (old new : Option Profile) :
    Profiles :=
  fun v => if v = p then new else if previous = some v then old else g v

section

variable {g : Profiles} {previous : Option Uuid} {p u : Uuid} {old new : Option Profile}

@[simp] theorem cells_new : cells g previous p old new p = new := by
  simp [cells]

/-- The previous profile stands in its own cell, if the two are not the same. -/
theorem cells_old (h : u ≠ p) : cells g (some u) p old new u = old := by
  simp [cells, h]

theorem cells_other {v : Uuid} (hp : v ≠ p) (hprev : previous ≠ some v) :
    cells g previous p old new v = g v := by
  simp [cells, hp, hprev]

/-- The frame changes nothing where it puts back what is there. -/
theorem cells_self (h : ∀ u ∈ previous, g u = old) (hp : g p = new) :
    cells g previous p old new = g := by
  funext v
  unfold cells
  split
  · next hv => rw [hv, hp]
  · split
    · next hv => rw [h v hv]
    · rfl

/-- Renaming the new profile moves its cell only. -/
theorem rename_cells_new (name : ProfileName) :
    Profiles.rename (cells g previous p old new) p name =
      cells g previous p old (new.map fun q => q.rename name) := by
  funext v
  unfold Profiles.rename
  by_cases hv : v = p
  · subst hv
    simp
  · rw [Function.update_of_ne hv]
    simp [cells, hv]

/-- Deleting the new profile empties its cell only. -/
theorem erase_cells_new :
    Profiles.erase (cells g previous p old new) p = cells g previous p old none := by
  funext v
  unfold Profiles.erase
  by_cases hv : v = p
  · subst hv
    simp
  · rw [Function.update_of_ne hv]
    simp [cells, hv]

/-- Renaming the previous profile moves its cell only. -/
theorem rename_cells_old (h : u ≠ p) (name : ProfileName) :
    Profiles.rename (cells g (some u) p old new) u name =
      cells g (some u) p (old.map fun q => q.rename name) new := by
  funext v
  unfold Profiles.rename
  by_cases hv : v = u
  · subst hv
    simp [cells, h]
  · rw [Function.update_of_ne hv]
    simp [cells, Ne.symm hv]

/-- Deleting the previous profile empties its cell only. -/
theorem erase_cells_old (h : u ≠ p) :
    Profiles.erase (cells g (some u) p old new) u = cells g (some u) p none new := by
  funext v
  unfold Profiles.erase
  by_cases hv : v = u
  · subst hv
    simp [cells, h]
  · rw [Function.update_of_ne hv]
    simp [cells, Ne.symm hv]

end

/-! ## Promotion -/

/-- The ways to put the previous profile under the backup name. -/
inductive BackUp : Option Uuid → List CommandEvent → Bool → Option Profile → Option Profile →
    Prop where
  | nothing {old : Option Profile} : BackUp none [] true old old
  | renamed {u : Uuid} {old : Profile} {o : Outcome} {reads : List CommandEvent} {ok : Bool}
      (hreads : ReadsOnly reads)
      (hok : ok = true ↔ o = .done ∧ faults reads = 0) :
      BackUp (some u) (⟨.setIdentity u PREVIOUS_PROFILE, o⟩ :: reads) ok (some old)
        (o.pick (some old) (some (old.rename PREVIOUS_PROFILE)))

/-- The ways a promotion can go. -/
inductive Promotion (previous : Option Uuid) (p : Uuid) :
    List CommandEvent → Bool → (old new old' new' : Option Profile) → Prop where
  | notBackedUp {l : List CommandEvent} {old old' new : Option Profile}
      (backUp : BackUp previous l false old old') : Promotion previous p l false old new old' new
  | notPromoted {l reads : List CommandEvent} {o : Outcome} {old old' : Option Profile}
      {new : Profile} (backUp : BackUp previous l true old old') (hreads : ReadsOnly reads)
      (hfault : o = .done → faults reads ≠ 0) :
      Promotion previous p (l ++ ⟨.setIdentity p SAVED_PROFILE, o⟩ :: reads) false old (some new)
        old' (o.pick (some new) (some (new.rename SAVED_PROFILE)))
  | first {reads : List CommandEvent} {old : Option Profile} {new : Profile}
      (hprev : previous = none) (hreads : ReadsOnly reads) (hdone : faults reads = 0) :
      Promotion previous p (⟨.setIdentity p SAVED_PROFILE, .done⟩ :: reads) true old (some new) old
        (some (new.rename SAVED_PROFILE))
  | replaced {l reads : List CommandEvent} {o : Outcome} {u : Uuid} {old old' : Option Profile}
      {new : Profile} {ok : Bool} (hprev : previous = some u)
      (backUp : BackUp previous l true old old') (hreads : ReadsOnly reads)
      (hdone : faults reads = 0) (hok : ok = true ↔ o = .done) :
      Promotion previous p (l ++ ⟨.setIdentity p SAVED_PROFILE, .done⟩ :: reads ++
        [⟨.deleteUuid u, o⟩]) ok old (some new) (o.pick old' none) (some (new.rename SAVED_PROFILE))

/-- The rollback issues all its commands, whatever becomes of them. -/
inductive Rollback (p : Uuid) : Option Uuid → List CommandEvent →
    (old new old' new' : Option Profile) → Prop where
  | first {demote remove : Outcome} {old new : Option Profile} :
      Rollback p none
        [⟨.setIdentity p PENDING_PROFILE, demote⟩, ⟨.deleteUuid p, remove⟩] old new old
        (remove.pick (demote.pick new (new.map fun q => q.rename PENDING_PROFILE)) none)
  | replaced {demote restore remove : Outcome} {u : Uuid} {old new : Option Profile} :
      Rollback p (some u)
        [⟨.setIdentity p PENDING_PROFILE, demote⟩, ⟨.setIdentity u SAVED_PROFILE, restore⟩,
          ⟨.deleteUuid p, remove⟩] old new
        (restore.pick old (old.map fun q => q.rename SAVED_PROFILE))
        (remove.pick (demote.pick new (new.map fun q => q.rename PENDING_PROFILE)) none)

/-- The name of a saved profile comes back from `nmcli` without the line break. -/
theorem strip_savedProfile : Py.strip SAVED_PROFILE.text = SAVED_PROFILE.text := by
  decide

/-- The name of a backup comes back from `nmcli` without the line break. -/
theorem strip_previousProfile : Py.strip PREVIOUS_PROFILE.text = PREVIOUS_PROFILE.text := by
  decide

section

variable {R : PyErr → World → Prop} {g : Profiles} {previous : Option Uuid} {p : Uuid}
  {old new : Option Profile} {w : World}

/-- A command on the previous profile that may or may not take effect picks between two values of
its cell. -/
theorem pick_cells_old {u : Uuid} (o : Outcome) (x y : Option Profile) :
    o.pick (cells g (some u) p x new) (cells g (some u) p y new) =
      cells g (some u) p (o.pick x y) new := by
  cases o <;> rfl

/-- A command on the new profile that may or may not take effect picks between two values of its
cell. -/
theorem pick_cells_new (o : Outcome) (x y : Option Profile) :
    o.pick (cells g previous p old x) (cells g previous p old y) =
      cells g previous p old (o.pick x y) := by
  cases o <;> rfl

/-- What `_back_up_previous` does to the cells and to the log, over every outcome of its commands.
-/
theorem wp_backUpPrevious {Q : Bool → World → Prop} (hw : w.store.get = cells g previous p old new)
    (hne : ∀ u ∈ previous, u ≠ p ∧ old.isSome = true)
    (h : ∀ ok w' l old', BackUp previous l ok old old' →
      Extends w l (cells g previous p old' new) w' → Q ok w') :
    (Backend.backUpPrevious previous).wp nmcli Q R w := by
  cases previous with
  -- without a predecessor there is nothing to back up
  | none => exact wp_ret (h _ _ _ _ .nothing (hw ▸ .refl w))
  | some u =>
    obtain ⟨hu, hsome⟩ := hne u rfl
    obtain ⟨a, rfl⟩ := Option.isSome_iff_exists.mp hsome
    have hget : w.store.get u = some a := by rw [hw, cells_old hu]
    refine wp_bind.mpr (wp_setProfileIdentity fun ok w₁ o hext hok => ?_)
    -- only the cell of the predecessor is renamed
    rw [hw, rename_cells_old hu, pick_cells_old] at hext
    cases ok with
    | false =>
      have hfail : o ≠ .done := fun hd => by simp [hd, hget] at hok
      have hback : BackUp (some u) [⟨.setIdentity u PREVIOUS_PROFILE, o⟩] false (some a)
          (o.pick (some a) (some (a.rename PREVIOUS_PROFILE))) :=
        .renamed readsOnly_nil (by simp [hfail])
      exact wp_ret (h _ _ _ _ hback hext)
    | true =>
      -- the renaming took effect, and the name is read back
      obtain ⟨rfl, -⟩ := hok.mp rfl
      have hget₁ : w₁.store.get u = some (a.rename PREVIOUS_PROFILE) := by
        rw [hext.get, cells_old hu]
        rfl
      refine wp_profileHasIdentity (p := a.rename PREVIOUS_PROFILE) hget₁ strip_previousProfile rfl
        fun ok w₂ reads hreads hext₂ hok₂ => ?_
      rw [hext.get] at hext₂
      exact h _ _ _ _ (.renamed hreads (by simp [hok₂])) (hext.trans hext₂)

/-- What `_promote_pending_profile` does: the backup first, then the new name, and each is read
back. -/
theorem wp_promotePendingProfile {Q : Bool → World → Prop} {b : Profile}
    (hw : w.store.get = cells g previous p old (some b))
    (hne : ∀ u ∈ previous, u ≠ p ∧ old.isSome = true)
    (h : ∀ ok w' l old' new', Promotion previous p l ok old (some b) old' new' →
      Extends w l (cells g previous p old' new') w' → Q ok w') :
    (Backend.promotePendingProfile p previous).wp nmcli Q R w := by
  refine wp_bind.mpr (wp_backUpPrevious hw hne fun ok w₁ l₁ old' hback hext₁ => ?_)
  cases ok with
  | false => exact wp_ret (h _ _ _ _ _ (.notBackedUp hback) hext₁)
  | true =>
    refine wp_bind.mpr (wp_setProfileIdentity fun ok w₂ o hext₂ hok => ?_)
    rw [hext₁.get, rename_cells_new, pick_cells_new] at hext₂
    have hget₁ : w₁.store.get p = some b := by rw [hext₁.get, cells_new]
    cases ok with
    | false =>
      -- the renaming was refused, so nothing is read back
      have hfail : o ≠ .done := fun hd => by simp [hd, hget₁] at hok
      exact wp_ret (h _ _ _ _ _ (.notPromoted hback readsOnly_nil fun hd => absurd hd hfail)
        (hext₁.trans hext₂))
    | true =>
      obtain ⟨rfl, -⟩ := hok.mp rfl
      have hget₂ : w₂.store.get p = some (b.rename SAVED_PROFILE) := by
        rw [hext₂.get, cells_new]
        rfl
      refine wp_bind.mpr (wp_profileHasIdentity (p := b.rename SAVED_PROFILE) hget₂
        strip_savedProfile rfl fun ok w₃ reads hreads hext₃ hok₃ => ?_)
      rw [hext₂.get] at hext₃
      have hext : Extends w (l₁ ++ ⟨.setIdentity p SAVED_PROFILE, .done⟩ :: reads)
          (cells g previous p old' (some (b.rename SAVED_PROFILE))) w₃ :=
        hext₁.trans (hext₂.trans hext₃)
      cases ok with
      | false =>
        -- the name did take, but it could not be read back
        have hfault : faults reads ≠ 0 := fun h => by simp [h] at hok₃
        exact wp_ret (h _ _ _ _ _ (.notPromoted (o := .done) hback hreads fun _ => hfault) hext)
      | true =>
        have hdone : faults reads = 0 := hok₃.mp rfl
        cases previous with
        | none =>
          cases hback
          exact wp_ret (h _ _ _ _ _ (.first rfl hreads hdone) hext)
        | some u =>
          refine wp_deleteProfileUuid fun ok w₄ o hext₄ hok₄ => ?_
          rw [hext₃.get, Outcome.pick_done, erase_cells_old (hne u rfl).1, pick_cells_old] at hext₄
          exact h _ _ _ _ _ (.replaced rfl hback hreads hdone hok₄) (hext.trans hext₄)

/-- What `_rollback_promotion` does: it deletes the new profile and gives the previous one its name
again, whatever either command answers. -/
theorem wp_rollbackPromotion {Q : Unit → World → Prop}
    (hw : w.store.get = cells g previous p old new) (hne : ∀ u ∈ previous, u ≠ p)
    (h : ∀ w' l old' new', Rollback p previous l old new old' new' →
      Extends w l (cells g previous p old' new') w' → Q () w') :
    (Backend.rollbackPromotion p previous).wp nmcli Q R w := by
  refine wp_bind.mpr (wp_setProfileIdentity fun _ w₁ demote hext₁ _ => ?_)
  rw [hw, rename_cells_new, pick_cells_new] at hext₁
  cases previous with
  | none =>
    refine wp_bind.mpr (wp_deleteProfileUuid fun _ w₂ remove hext₂ _ => wp_ret ?_)
    rw [hext₁.get, erase_cells_new, pick_cells_new] at hext₂
    exact h _ _ _ _ .first (hext₁.trans hext₂)
  | some u =>
    refine wp_bind.mpr (wp_setProfileIdentity fun _ w₂ restore hext₂ _ => ?_)
    rw [hext₁.get, rename_cells_old (hne u rfl), pick_cells_old] at hext₂
    refine wp_bind.mpr (wp_deleteProfileUuid fun _ w₃ remove hext₃ _ => wp_ret ?_)
    rw [hext₂.get, erase_cells_new, pick_cells_new] at hext₃
    exact h _ _ _ _ .replaced (hext₁.trans (hext₂.trans hext₃))

end

end Rave
