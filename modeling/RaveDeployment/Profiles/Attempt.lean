import RaveDeployment.Profiles.Connect

/-!
# What a promotion attempt leaves, read off its log

Of `Promotion` and `Rollback` the later modules need only which commands took effect.
`contentAfter` computes what a profile becomes from these commands alone, and `Attempt` collects
what is known about a `connect_station` call that has brought its candidate up: the contents of the
two profiles it works on, which commands there can be, and in which order they take effect.

`Connected.attempt` says that every call is harmless or such an attempt. `Attempt.holds_saved` and
`Attempt.holds_previous` read the two names the boot looks for off the log.
-/

namespace Rave

open Prog

/-! ## The content of a profile

Of the commands about one profile only those count that took effect, and of two renamings the later
one. -/

/-- What becomes of the profile `u` when it may be renamed to `first`, then to `second`, and may be
deleted. -/
def contentAfter (u : Uuid) (first second : ProfileName) (l : List CommandEvent)
    (q : Option Profile) : Option Profile :=
  if Took l (.deleteUuid u) then none
  else if Took l (.setIdentity u second) then q.map fun a => a.rename second
  else if Took l (.setIdentity u first) then q.map fun a => a.rename first
  else q

section

variable {u : Uuid} {first second name : ProfileName} {l : List CommandEvent} {a : Profile}

theorem contentAfter_deleted {q : Option Profile} (h : Took l (.deleteUuid u)) :
    contentAfter u first second l q = none := by
  rw [contentAfter, if_pos h]

theorem contentAfter_second (hdel : ¬Took l (.deleteUuid u))
    (hsecond : Took l (.setIdentity u second)) :
    contentAfter u first second l (some a) = some (a.rename second) := by
  rw [contentAfter, if_neg hdel, if_pos hsecond, Option.map_some]

theorem contentAfter_first (hdel : ¬Took l (.deleteUuid u))
    (hsecond : ¬Took l (.setIdentity u second)) (hfirst : Took l (.setIdentity u first)) :
    contentAfter u first second l (some a) = some (a.rename first) := by
  rw [contentAfter, if_neg hdel, if_neg hsecond, if_pos hfirst, Option.map_some]

theorem contentAfter_kept {q : Option Profile} (hdel : ¬Took l (.deleteUuid u))
    (hsecond : ¬Took l (.setIdentity u second)) (hfirst : ¬Took l (.setIdentity u first)) :
    contentAfter u first second l q = q := by
  rw [contentAfter, if_neg hdel, if_neg hsecond, if_neg hfirst]

/-- The name that is left. -/
theorem exists_contentAfter : (∃ b, contentAfter u first second l (some a) = some b ∧ b.id = name) ↔
    ¬Took l (.deleteUuid u) ∧
      if Took l (.setIdentity u second) then second = name
      else if Took l (.setIdentity u first) then first = name
      else a.id = name := by
  by_cases hdel : Took l (.deleteUuid u)
  · simp [contentAfter_deleted hdel, hdel]
  · by_cases hsecond : Took l (.setIdentity u second)
    · simp [contentAfter_second hdel hsecond, hdel, hsecond, Profile.rename]
    · by_cases hfirst : Took l (.setIdentity u first)
      · simp [contentAfter_first hdel hsecond hfirst, hdel, hsecond, hfirst, Profile.rename]
      · simp [contentAfter_kept hdel hsecond hfirst, hdel, hsecond, hfirst]

@[simp] theorem rename_rename (a : Profile) (name name' : ProfileName) :
    (a.rename name).rename name' = a.rename name' := rfl

/-- Later commands, none of which renames to `first`. -/
theorem contentAfter_append {l' : List CommandEvent} {q : Option Profile}
    (hfirst : ¬Took l' (.setIdentity u first)) :
    contentAfter u first second (l ++ l') q =
      if Took l' (.deleteUuid u) then none
      else if Took l' (.setIdentity u second) then
        (contentAfter u first second l q).map fun a => a.rename second
      else contentAfter u first second l q := by
  unfold contentAfter
  simp only [took_append, hfirst, or_false]
  by_cases hdel' : Took l' (.deleteUuid u)
  · simp [hdel']
  · by_cases hdel : Took l (.deleteUuid u)
    · simp [hdel, hdel']
    · -- nothing was deleted: the last renaming counts
      by_cases hsecond' : Took l' (.setIdentity u second) <;>
      by_cases hsecond : Took l (.setIdentity u second) <;>
      by_cases hfirst' : Took l (.setIdentity u first) <;>
      simp [hdel, hdel', hsecond, hsecond', hfirst', Function.comp_def]

end

/-! ## Promotion

The log of a promotion, with what it says of the previous profile and of the candidate. -/

/-- The commands of a promotion that can take effect, and their order. -/
structure PromotionLog (previous : Option Uuid) (p : Uuid) (l : List CommandEvent) (ok : Bool) :
    Prop where
  named : ∀ v name, Took l (.setIdentity v name) →
    v = p ∧ name = SAVED_PROFILE ∨ previous = some v ∧ name = PREVIOUS_PROFILE
  deleted : ∀ v, Took l (.deleteUuid v) → previous = some v
  activated : ∀ v, ⟨.upUuid v, .done⟩ ∉ l
  backedUp : Took l (.setIdentity p SAVED_PROFILE) →
    ∀ u ∈ previous, Took l (.setIdentity u PREVIOUS_PROFILE)
  promoted : ∀ u ∈ previous, Took l (.deleteUuid u) → Took l (.setIdentity p SAVED_PROFILE)
  success : ok = true → Took l (.setIdentity p SAVED_PROFILE) ∧
    ∀ u ∈ previous, Took l (.deleteUuid u)
  failure : ok = false → faults l ≠ 0 ∧ ∀ u, ⟨.deleteUuid u, .done⟩ ∉ l

@[simp] theorem previous_ne_saved : PREVIOUS_PROFILE ≠ SAVED_PROFILE := by decide

@[simp] theorem pending_ne_saved : PENDING_PROFILE ≠ SAVED_PROFILE := by decide

@[simp] theorem pending_ne_previous : PENDING_PROFILE ≠ PREVIOUS_PROFILE := by decide

/-- Reading deletes nothing and activates nothing. -/
theorem ReadsOnly.not_mem {reads : List CommandEvent} (h : ReadsOnly reads) (v : Uuid)
    (o : Outcome) : ⟨.deleteUuid v, o⟩ ∉ reads ∧ ⟨.upUuid v, o⟩ ∉ reads := by
  refine ⟨fun he => ?_, fun he => ?_⟩
  · cases h _ he
  · cases h _ he

section

variable {previous : Option Uuid} {p u : Uuid} {l : List CommandEvent} {ok : Bool}
  {old old' new new' : Option Profile}

/-- Backing up issues one renaming, and reads. -/
theorem BackUp.mem (h : BackUp previous l ok old old') {e : CommandEvent} (he : e ∈ l) :
    e.command.isWrite = false ∨ ∃ u ∈ previous, e.command = .setIdentity u PREVIOUS_PROFILE := by
  cases h with
  | nothing => simp at he
  | renamed hreads hok =>
    rcases List.mem_cons.mp he with rfl | he
    · exact .inr ⟨_, rfl, rfl⟩
    · exact .inl (hreads e he)

/-- Backing up names the previous profile only. -/
theorem BackUp.named (h : BackUp previous l ok old old') {v : Uuid} {name : ProfileName}
    (htook : Took l (.setIdentity v name)) : previous = some v ∧ name = PREVIOUS_PROFILE := by
  obtain ⟨e, he, hc, -⟩ := htook
  rcases h.mem he with hread | ⟨u, hu, hcu⟩
  · rw [hc] at hread
    cases hread
  · rw [hc] at hcu
    cases hcu
    exact ⟨hu, rfl⟩

/-- Backing up deletes nothing and activates nothing. -/
theorem BackUp.not_mem (h : BackUp previous l ok old old') {v : Uuid} {o : Outcome} :
    ⟨.deleteUuid v, o⟩ ∉ l ∧ ⟨.upUuid v, o⟩ ∉ l := by
  refine ⟨fun he => ?_, fun he => ?_⟩
  · rcases h.mem he with hread | ⟨u, -, hc⟩
    · cases hread
    · cases hc
  · rcases h.mem he with hread | ⟨u, -, hc⟩
    · cases hread
    · cases hc

theorem BackUp.not_deleteUuid (h : BackUp previous l ok old old') (v : Uuid) :
    ¬Took l (.deleteUuid v) := by
  rintro ⟨⟨c, o⟩, he, rfl, -⟩
  exact h.not_mem.1 he

/-- A back-up that succeeds has renamed the previous profile. -/
theorem BackUp.success (h : BackUp previous l true old old') :
    ∀ u ∈ previous, Took l (.setIdentity u PREVIOUS_PROFILE) := by
  cases h with
  | nothing => simp
  | renamed hreads hok =>
    rintro u ⟨⟩
    have hdone := (hok.mp rfl).1
    simp [hdone]

/-- A back-up fails only where a command did. -/
theorem BackUp.failure (h : BackUp previous l false old old') : faults l ≠ 0 := by
  cases h with
  | @renamed _ _ o reads _ hreads hok =>
    intro hzero
    rw [faults_cons] at hzero
    have hdone : o = .done := by
      by_contra hne
      rw [if_neg hne] at hzero
      omega
    rw [if_pos hdone] at hzero
    have hok' := hok.mpr ⟨hdone, by omega⟩
    cases hok'

/-- What a renaming leaves of a profile. -/
theorem BackUp.content (h : BackUp (some u) l ok old old') :
    old' = contentAfter u PREVIOUS_PROFILE SAVED_PROFILE l old := by
  cases h with
  | @renamed _ old o reads _ hreads _ =>
    have hdel : ¬Took (⟨.setIdentity u PREVIOUS_PROFILE, o⟩ :: reads) (.deleteUuid u) := by
      simp [hreads.not_deleteUuid]
    have hsecond : ¬Took (⟨.setIdentity u PREVIOUS_PROFILE, o⟩ :: reads)
        (.setIdentity u SAVED_PROFILE) := by
      simp [hreads.not_setIdentity]
    cases o with
    | failed =>
      rw [contentAfter_kept hdel hsecond (by simp [hreads.not_setIdentity])]
      rfl
    | done =>
      rw [contentAfter_first hdel hsecond (by simp)]
      rfl
    | failedAfter =>
      rw [contentAfter_first hdel hsecond (by simp)]
      rfl

/-- What a promotion does is in its log. -/
theorem Promotion.log (h : Promotion previous p l ok old new old' new') :
    PromotionLog previous p l ok := by
  cases h with
  | notBackedUp hback =>
    exact
      { named := fun v name htook => .inr (hback.named htook)
        deleted := fun v htook => absurd htook (hback.not_deleteUuid v)
        activated := fun v => hback.not_mem.2
        backedUp := fun htook u hu => by
          have hname := (hback.named htook).2
          exact absurd hname.symm previous_ne_saved
        promoted := fun u hu htook => absurd htook (hback.not_deleteUuid u)
        success := by simp
        failure := fun _ => ⟨hback.failure, fun u => hback.not_mem.1⟩ }
  | @notPromoted l reads o _ _ _ hback hreads hfault =>
    -- up to the failed renaming nothing has been deleted
    have hdel : ∀ v, ¬Took (l ++ ⟨.setIdentity p SAVED_PROFILE, o⟩ :: reads) (.deleteUuid v) := by
      simp [hback.not_deleteUuid, hreads.not_deleteUuid]
    exact
      { named := fun v name htook => by
          simp only [took_append, took_cons, hreads.not_setIdentity, or_false] at htook
          rcases htook with htook | ⟨hc, -⟩
          · exact .inr (hback.named htook)
          · cases hc
            exact .inl ⟨rfl, rfl⟩
        deleted := fun v htook => absurd htook (hdel v)
        activated := fun v => by simp [hback.not_mem.2, hreads.not_mem]
        backedUp := fun _ u hu => took_append.mpr (.inl (hback.success u hu))
        promoted := fun u _ htook => absurd htook (hdel u)
        success := by simp
        failure := fun _ => by
          refine ⟨?_, fun u => by simp [hback.not_mem.1, hreads.not_mem]⟩
          rw [faults_append, faults_cons]
          by_cases hdone : o = .done
          · have := hfault hdone
            omega
          · rw [if_neg hdone]
            omega }
  | first hprev hreads hdone =>
    -- there was no station before, so there is no backup to speak of
    subst hprev
    exact
      { named := fun v name htook => by
          simp only [took_cons, hreads.not_setIdentity, or_false] at htook
          obtain ⟨hc, -⟩ := htook
          cases hc
          exact .inl ⟨rfl, rfl⟩
        deleted := fun v htook => by simp [hreads.not_deleteUuid] at htook
        activated := fun v => by simp [hreads.not_mem]
        backedUp := fun _ => by simp
        promoted := by simp
        success := fun _ => by simp
        failure := by simp }
  | @replaced l reads o u _ _ _ _ hprev hback hreads hdone hok =>
    subst hprev
    exact
      { named := fun v name htook => by
          simp [hreads.not_setIdentity] at htook
          rcases htook with htook | ⟨rfl, rfl⟩
          · exact .inr (hback.named htook)
          · exact .inl ⟨rfl, rfl⟩
        deleted := fun v htook => by
          simp [hback.not_deleteUuid, hreads.not_deleteUuid] at htook
          rw [htook.1]
        activated := fun v => by simp [hback.not_mem.2, hreads.not_mem]
        backedUp := fun _ u hu => by
          simp [hback.success u hu]
        promoted := fun u _ _ => by simp
        success := fun htrue => by
          simp [hok.mp htrue]
        failure := fun hfalse => by
          have ho : o ≠ .done := fun hd => by simp [hd, hfalse] at hok
          refine ⟨by simp [ho], fun v => by simp [hback.not_mem.1, hreads.not_mem, Ne.symm ho]⟩ }

/-- A promotion does not undo itself. -/
theorem PromotionLog.not_undone (h : PromotionLog previous p l ok) (hne : ∀ u ∈ previous, u ≠ p) :
    ¬Took l (.setIdentity p PENDING_PROFILE) ∧ ¬Took l (.deleteUuid p) ∧
      ∀ u ∈ previous, ¬Took l (.setIdentity u SAVED_PROFILE) := by
  refine ⟨fun htook => ?_, fun htook => ?_, fun u hu htook => ?_⟩
  · rcases h.named _ _ htook with ⟨-, hname⟩ | ⟨-, hname⟩
    · exact pending_ne_saved hname
    · exact pending_ne_previous hname
  · exact hne p (h.deleted p htook) rfl
  · rcases h.named _ _ htook with ⟨hup, -⟩ | ⟨-, hname⟩
    · exact hne u hu hup
    · exact previous_ne_saved hname.symm

/-- What a promotion makes of the candidate. -/
theorem Promotion.new_eq (h : Promotion previous p l ok old new old' new')
    (hne : ∀ u ∈ previous, u ≠ p) :
    new' = contentAfter p SAVED_PROFILE PENDING_PROFILE l new := by
  obtain ⟨hpending, hdel, -⟩ := h.log.not_undone hne
  cases h with
  | notBackedUp hback =>
    -- only the backup was named, and that is not the new profile's name
    have hsaved : ¬Took l (.setIdentity p SAVED_PROFILE) := fun htook =>
      previous_ne_saved (hback.named htook).2.symm
    rw [contentAfter_kept hdel hpending hsaved]
  | @notPromoted l reads o _ _ _ hback hreads =>
    -- the reads after the renaming change nothing, so its outcome decides
    cases o with
    | failed =>
      have hsaved : ¬Took (l ++ ⟨.setIdentity p SAVED_PROFILE, .failed⟩ :: reads)
          (.setIdentity p SAVED_PROFILE) := by
        intro htook
        simp only [took_append, took_cons, hreads.not_setIdentity, ne_eq, not_true_eq_false,
          and_false, or_false] at htook
        exact previous_ne_saved (hback.named htook).2.symm
      rw [contentAfter_kept hdel hpending hsaved]
      rfl
    | done =>
      rw [contentAfter_first hdel hpending (by simp)]
      rfl
    | failedAfter =>
      rw [contentAfter_first hdel hpending (by simp)]
      rfl
  | first => rw [contentAfter_first hdel hpending (by simp)]
  | replaced => rw [contentAfter_first hdel hpending (by simp)]

/-- What a promotion makes of the previous profile. -/
theorem Promotion.old_eq (h : Promotion (some u) p l ok old new old' new') (hne : u ≠ p) :
    old' = contentAfter u PREVIOUS_PROFILE SAVED_PROFILE l old := by
  -- only the deletion at the very end touches what backing up has left
  have hback : ∀ (l₁ l₂ : List CommandEvent) (ok₁ : Bool) (old₁ : Option Profile),
      BackUp (some u) l₁ ok₁ old old₁ → (∀ name, ¬Took l₂ (.setIdentity u name)) →
      ¬Took l₂ (.deleteUuid u) →
      old₁ = contentAfter u PREVIOUS_PROFILE SAVED_PROFILE (l₁ ++ l₂) old := by
    intro l₁ l₂ ok₁ old₁ h hset hdel
    rw [h.content]
    simp only [contentAfter, took_append, hset, hdel, or_false]
  cases h with
  | notBackedUp h => simpa using hback _ [] _ _ h (by simp) (by simp)
  | notPromoted h hreads =>
    exact hback _ _ _ _ h (by simp [hreads.not_setIdentity, hne.symm])
      (by simp [hreads.not_deleteUuid])
  | first hprev => cases hprev
  | @replaced l reads o _ _ old₁ _ _ hprev h hreads =>
    cases hprev
    have hold := hback _ (⟨.setIdentity p SAVED_PROFILE, .done⟩ :: reads) _ _ h
      (by simp [hreads.not_setIdentity, hne.symm]) (by simp [hreads.not_deleteUuid])
    have hnot : ¬Took (l ++ ⟨.setIdentity p SAVED_PROFILE, .done⟩ :: reads) (.deleteUuid u) := by
      simp [h.not_deleteUuid, hreads.not_deleteUuid]
    cases o with
    | failed =>
      rw [Outcome.pick_failed, hold]
      simp [contentAfter]
    | done =>
      rw [contentAfter_deleted (by simp)]
      rfl
    | failedAfter =>
      rw [contentAfter_deleted (by simp)]
      rfl

/-! ## Rollback

The log of a rollback. It issues all its commands, whatever they answer. -/

/-- The commands of a rollback that can take effect. -/
structure RollbackLog (previous : Option Uuid) (p : Uuid) (l : List CommandEvent) : Prop where
  named : ∀ v name, Took l (.setIdentity v name) →
    v = p ∧ name = PENDING_PROFILE ∨ previous = some v ∧ name = SAVED_PROFILE
  deleted : ∀ v, Took l (.deleteUuid v) → v = p
  activated : ∀ v, ⟨.upUuid v, .done⟩ ∉ l
  issued : faults l = 0 → Took l (.deleteUuid p) ∧
    ∀ u ∈ previous, Took l (.setIdentity u SAVED_PROFILE)

/-- What a rollback does is in its log. -/
theorem Rollback.log (h : Rollback p previous l old new old' new') : RollbackLog previous p l := by
  cases h with
  -- without a predecessor: the new profile is demoted and removed
  | @first demote remove =>
    exact
      { named := fun v name htook => by
          simp at htook
          exact .inl ⟨htook.1.1.symm, htook.1.2.symm⟩
        deleted := fun v htook => by
          simp at htook
          exact htook.1.symm
        activated := fun v => by simp
        issued := fun hzero => by
          have hall := faults_eq_zero.mp hzero
          simp_all }
  -- with one, its name is given back in between
  | @replaced demote restore remove u =>
    exact
      { named := fun v name htook => by
          simp at htook
          rcases htook with htook | htook
          · exact .inl ⟨htook.1.1.symm, htook.1.2.symm⟩
          · exact .inr ⟨by rw [htook.1.1], htook.1.2.symm⟩
        deleted := fun v htook => by
          simp at htook
          exact htook.1.symm
        activated := fun v => by simp
        issued := fun hzero => by
          have hall := faults_eq_zero.mp hzero
          simp_all }

/-- What a rollback makes of the candidate. -/
theorem Rollback.new_eq (h : Rollback p previous l old new old' new') (hne : ∀ u ∈ previous, u ≠ p)
    {l₀ : List CommandEvent} {q : Option Profile}
    (hnew : new = contentAfter p SAVED_PROFILE PENDING_PROFILE l₀ q) :
    new' = contentAfter p SAVED_PROFILE PENDING_PROFILE (l₀ ++ l) q := by
  have hfirst : ¬Took l (.setIdentity p SAVED_PROFILE) := by
    intro htook
    rcases h.log.named _ _ htook with ⟨-, hname⟩ | ⟨hprev, -⟩
    · exact pending_ne_saved hname.symm
    · exact hne p hprev rfl
  rw [contentAfter_append hfirst, ← hnew]
  cases h with
  | @first demote remove => cases demote <;> cases remove <;> simp
  | @replaced demote restore remove u =>
    have hu : u ≠ p := hne u rfl
    cases demote <;> cases remove <;> simp [hu]

/-- What a rollback makes of the previous profile. -/
theorem Rollback.old_eq (h : Rollback p (some u) l old new old' new') (hne : u ≠ p)
    {l₀ : List CommandEvent} {q : Option Profile}
    (hold : old = contentAfter u PREVIOUS_PROFILE SAVED_PROFILE l₀ q) :
    old' = contentAfter u PREVIOUS_PROFILE SAVED_PROFILE (l₀ ++ l) q := by
  have hfirst : ¬Took l (.setIdentity u PREVIOUS_PROFILE) := by
    intro htook
    rcases h.log.named _ _ htook with ⟨-, hname⟩ | ⟨-, hname⟩
    · exact pending_ne_previous hname.symm
    · exact previous_ne_saved hname
  rw [contentAfter_append hfirst, ← hold]
  cases h with
  | @replaced demote restore remove => cases restore <;> simp [hne.symm]

end

/-! ## Attempts

A promotion, and the rollback where it failed, behind the activation of the candidate. -/

/-- The log of a call that has brought its candidate up. -/
inductive AttemptLog (previous : Option Uuid) (p : Uuid) : Bool → List CommandEvent → Prop where
  | promoted {pre l : List CommandEvent} (hpre : Preliminary pre)
      (hl : PromotionLog previous p l true) :
      AttemptLog previous p true (pre ++ ⟨.upUuid p, .done⟩ :: l)
  | rolledBack {pre l l' : List CommandEvent} (hpre : Preliminary pre)
      (hl : PromotionLog previous p l false) (hl' : RollbackLog previous p l') :
      AttemptLog previous p false (pre ++ ⟨.upUuid p, .done⟩ :: (l ++ l'))

/-- A call that has brought its candidate `p` up. -/
structure Attempt (g : Profiles) (previous : Option Uuid) (p : Uuid) (ok : Bool)
    (l : List CommandEvent) (g' : Profiles) : Prop where
  saved : ∀ v, Holds g SAVED_PROFILE v ↔ previous = some v
  absent : PendingOrNone (g p)
  candidate : ∃ ssid, g' p = contentAfter p SAVED_PROFILE PENDING_PROFILE l (some (candidate ssid))
  replaced : ∀ u ∈ previous, g' u = contentAfter u PREVIOUS_PROFILE SAVED_PROFILE l (g u)
  others : ∀ v, v ≠ p → previous ≠ some v → g' v = g v ∨ PendingOrNone (g v) ∧ g' v = none
  alone : ∀ v, v ≠ p → previous ≠ some v → ¬Holds g' PENDING_PROFILE v
  log : AttemptLog previous p ok l

/-- A call that gave up before it brought a candidate up. -/
structure GaveUp (g : Profiles) (out : Except PyErr StationResult) (l : List CommandEvent)
    (g' : Profiles) : Prop where
  failed : ∀ r, out = .ok r → r.1 = false
  commands : Harmless g l
  others : OnlyPending g g'
  cleaned : faults l ≤ 1 → Within g' g

section

variable {previous : Option Uuid} {p u v : Uuid} {l : List CommandEvent} {ok : Bool}
  {g g' g₁ : Profiles} {ssid : String} {name : ProfileName}

/-- The candidate is not the previous profile. -/
theorem BroughtUpCandidate.ne (up : BroughtUpCandidate g previous p ssid g₁ l) :
    ∀ u ∈ previous, u ≠ p := by
  rintro u hu rfl
  obtain ⟨q, hq, hid⟩ := (up.previous u).mpr hu
  have hpending : q.id = PENDING_PROFILE := up.absent q hq
  exact pending_ne_saved (hpending.symm.trans hid)

/-- The commands before and the activation leave both profiles alone. -/
theorem contentAfter_preliminary {pre : List CommandEvent} (hpre : Preliminary pre) {o : Outcome}
    {first second : ProfileName} {q : Option Profile} :
    contentAfter u first second (pre ++ ⟨.upUuid p, o⟩ :: l) q =
      contentAfter u first second l q := by
  simp [contentAfter, hpre.not_took]

/-- The other profiles are as they were, but for candidates that were deleted. -/
theorem BroughtUpCandidate.others_eq (up : BroughtUpCandidate g previous p ssid g₁ l)
    {old new : Option Profile} (hv : v ≠ p) (hprev : previous ≠ some v) :
    cells g₁ previous p old new v = g v ∨
      PendingOrNone (g v) ∧ cells g₁ previous p old new v = none := by
  rw [cells_other hv hprev]
  rcases up.others v with heq | ⟨hpending, -⟩
  · exact .inl heq
  · -- a candidate that was there has been deleted, or is still there
    cases hg : g₁ v with
    | none => exact .inr ⟨hpending, rfl⟩
    | some q => exact .inl (up.created v q hv hg).symm

/-- The two cells of an attempt, from the parts of its log. -/
theorem BroughtUpCandidate.attempt (up : BroughtUpCandidate g previous p ssid g₁ l)
    {l' : List CommandEvent} {old new : Option Profile}
    (hlog : AttemptLog previous p ok (l ++ ⟨.upUuid p, .done⟩ :: l'))
    (hnew : new = contentAfter p SAVED_PROFILE PENDING_PROFILE l' (some (candidate ssid)))
    (hold : ∀ u ∈ previous, old = contentAfter u PREVIOUS_PROFILE SAVED_PROFILE l' (g₁ u)) :
    Attempt g previous p ok (l ++ ⟨.upUuid p, .done⟩ :: l') (cells g₁ previous p old new) where
  saved := up.previous
  absent := up.absent
  candidate := ⟨ssid, by rw [cells_new, contentAfter_preliminary up.commands, hnew]⟩
  replaced := by
    rintro u rfl
    obtain ⟨q, hq, hid⟩ := (up.previous u).mpr rfl
    -- the profile that was saved is not a candidate, so the preparation leaves it alone
    have hkept : g₁ u = g u := by
      rw [hq]
      exact up.others.keeps hq (by rw [hid]; exact pending_ne_saved.symm)
    rw [cells_old (up.ne u rfl), contentAfter_preliminary up.commands, hold u rfl, hkept]
  others := fun v hv hprev => up.others_eq hv hprev
  alone := by
    intro v hv hprev hpending
    rw [Holds, cells_other hv hprev] at hpending
    exact hv (up.alone v hpending)
  log := hlog

/-- **A call gives up, or attempts a promotion.** -/
theorem Connected.attempt {out : Except PyErr StationResult} (h : Connected g out l g') :
    GaveUp g out l g' ∨
      ∃ previous p ok, (∃ r, out = .ok r ∧ r.1 = ok) ∧ Attempt g previous p ok l g' := by
  cases h with
  | untouched hout hreads =>
    -- before the promotion nothing but candidates is touched
    exact .inl
      { failed := hout
        commands := (preliminary_of_readsOnly hreads).harmless g
        others := .refl g
        cleaned := fun _ => .refl g }
  | aborted hr hcommands hothers hcleaned =>
    exact .inl
      { failed := by
          rintro r ⟨⟩
          exact hr
        commands := hcommands
        others := hothers
        cleaned := hcleaned }
  | @promoted previous p ssid g₁ l l' old' new' up promotion =>
    refine .inr ⟨previous, p, true, ⟨_, rfl, rfl⟩,
      up.attempt (.promoted up.commands promotion.log) (promotion.new_eq up.ne) ?_⟩
    rintro u rfl
    exact promotion.old_eq (up.ne u rfl)
  -- afterwards both cells are what the rollback makes of what the promotion left
  | @rolledBack previous p ssid g₁ l l' l'' old' new' old'' new'' r hr up promotion rollback =>
    refine .inr ⟨previous, p, false, ⟨_, rfl, hr⟩,
      up.attempt (.rolledBack up.commands promotion.log rollback.log)
        (rollback.new_eq up.ne (promotion.new_eq up.ne)) ?_⟩
    rintro u rfl
    exact rollback.old_eq (up.ne u rfl) (promotion.old_eq (up.ne u rfl))

end

/-! ## What the log of an attempt says

Which profiles it names and deletes, and what must have come before. -/

section

variable {g g' : Profiles} {previous : Option Uuid} {p u v : Uuid} {ok : Bool}
  {l : List CommandEvent} {name : ProfileName}

theorem Preliminary.not_activated {pre : List CommandEvent} (hpre : Preliminary pre) (v : Uuid)
    (o : Outcome) : ⟨.upUuid v, o⟩ ∉ pre :=
  fun he => (hpre _ he).2.2 v rfl

namespace AttemptLog

theorem took_setIdentity_iff {pre : List CommandEvent} (hpre : Preliminary pre) {o : Outcome} :
    Took (pre ++ ⟨.upUuid p, o⟩ :: l) (.setIdentity v name) ↔ Took l (.setIdentity v name) := by
  simp [hpre.not_took]

theorem took_deleteUuid_iff {pre : List CommandEvent} (hpre : Preliminary pre) {o : Outcome} :
    Took (pre ++ ⟨.upUuid p, o⟩ :: l) (.deleteUuid v) ↔ Took l (.deleteUuid v) := by
  simp [hpre.not_took]

/-- An attempt names the candidate and the previous profile only. -/
theorem named (h : AttemptLog previous p ok l) (htook : Took l (.setIdentity v name)) :
    v = p ∧ (name = SAVED_PROFILE ∨ name = PENDING_PROFILE) ∨
      previous = some v ∧ (name = PREVIOUS_PROFILE ∨ name = SAVED_PROFILE) := by
  cases h with
  | promoted hpre hl =>
    rcases hl.named _ _ ((took_setIdentity_iff hpre).mp htook) with ⟨hv, hname⟩ | ⟨hv, hname⟩
    · exact .inl ⟨hv, .inl hname⟩
    · exact .inr ⟨hv, .inl hname⟩
  | rolledBack hpre hl hl' =>
    rcases took_append.mp ((took_setIdentity_iff hpre).mp htook) with htook | htook
    · rcases hl.named _ _ htook with ⟨hv, hname⟩ | ⟨hv, hname⟩
      · exact .inl ⟨hv, .inl hname⟩
      · exact .inr ⟨hv, .inl hname⟩
    · rcases hl'.named _ _ htook with ⟨hv, hname⟩ | ⟨hv, hname⟩
      · exact .inl ⟨hv, .inr hname⟩
      · exact .inr ⟨hv, .inr hname⟩

/-- It deletes the candidate or the previous profile only. -/
theorem deleted (h : AttemptLog previous p ok l) (htook : Took l (.deleteUuid v)) :
    v = p ∨ previous = some v := by
  cases h with
  | promoted hpre hl => exact .inr (hl.deleted v ((took_deleteUuid_iff hpre).mp htook))
  | rolledBack hpre hl hl' =>
    rcases took_append.mp ((took_deleteUuid_iff hpre).mp htook) with htook | htook
    · exact .inr (hl.deleted v htook)
    · exact .inl (hl'.deleted v htook)

/-- The candidate gets the saved name from the promotion, not from the rollback. -/
theorem took_saved_rollback {l' : List CommandEvent} (hl' : RollbackLog previous p l')
    (hne : ∀ u ∈ previous, u ≠ p) : ¬Took l' (.setIdentity p SAVED_PROFILE) := by
  intro htook
  rcases hl'.named _ _ htook with ⟨-, hname⟩ | ⟨hprev, -⟩
  · exact pending_ne_saved hname.symm
  · exact hne p hprev rfl

/-- The candidate gets the saved name only after the back-up. -/
theorem backedUp (h : AttemptLog previous p ok l) (hne : ∀ u ∈ previous, u ≠ p)
    (htook : Took l (.setIdentity p SAVED_PROFILE)) :
    ∀ u ∈ previous, Took l (.setIdentity u PREVIOUS_PROFILE) := by
  intro u hu
  cases h with
  | promoted hpre hl =>
    rw [took_setIdentity_iff hpre] at htook ⊢
    exact hl.backedUp htook u hu
  | rolledBack hpre hl hl' =>
    rw [took_setIdentity_iff hpre, took_append] at htook ⊢
    have hsaved := htook.resolve_right (took_saved_rollback hl' hne)
    exact .inl (hl.backedUp hsaved u hu)

/-- The previous profile is deleted only after the candidate got its name. -/
theorem promoted_of_deleted (h : AttemptLog previous p ok l) (hne : ∀ u ∈ previous, u ≠ p)
    (hu : previous = some u) (htook : Took l (.deleteUuid u)) :
    Took l (.setIdentity p SAVED_PROFILE) := by
  cases h with
  | promoted hpre hl =>
    rw [took_setIdentity_iff hpre]
    exact (hl.success rfl).1
  | rolledBack hpre hl hl' =>
    rw [took_deleteUuid_iff hpre, took_append] at htook
    rw [took_setIdentity_iff hpre, took_append]
    have hdel := htook.resolve_right fun h => hne u hu (hl'.deleted u h)
    exact .inl (hl.promoted u hu hdel)

/-- Where the deletion of the previous profile is done, the call succeeds. -/
theorem ok_of_deleted (h : AttemptLog previous p ok l) (hne : ∀ u ∈ previous, u ≠ p)
    (hu : previous = some u) (hmem : ⟨.deleteUuid u, .done⟩ ∈ l) : ok = true := by
  cases h with
  | promoted => rfl
  | rolledBack hpre hl hl' =>
    simp only [List.mem_append, List.mem_cons] at hmem
    rcases hmem with hmem | hmem | hmem | hmem
    · exact absurd rfl ((hpre _ hmem).2.1 u)
    · cases hmem
    · exact absurd hmem ((hl.failure rfl).2 u)
    · exact absurd (hl'.deleted u ⟨_, hmem, rfl, by simp⟩) (hne u hu)

/-- A successful attempt has renamed the candidate and deleted the previous profile. -/
theorem success (h : AttemptLog previous p true l) (hne : ∀ u ∈ previous, u ≠ p) :
    Took l (.setIdentity p SAVED_PROFILE) ∧ ¬Took l (.setIdentity p PENDING_PROFILE) ∧
      ¬Took l (.deleteUuid p) ∧ ∀ u ∈ previous, Took l (.deleteUuid u) := by
  cases h with
  | promoted hpre hl =>
    simp only [took_setIdentity_iff hpre, took_deleteUuid_iff hpre]
    obtain ⟨hsaved, hdel⟩ := hl.success rfl
    obtain ⟨hpending, hkept, -⟩ := hl.not_undone hne
    exact ⟨hsaved, hpending, hkept, hdel⟩

/-- The candidate is what a call brings up. -/
theorem activated (h : AttemptLog previous p ok l) : ⟨.upUuid v, .done⟩ ∈ l ↔ v = p := by
  cases h with
  | promoted hpre hl =>
    simp [hpre.not_activated, hl.activated]
  | rolledBack hpre hl hl' =>
    simp [hpre.not_activated, hl.activated, hl'.activated]

end AttemptLog

/-! ## Who carries the names afterwards

Read off the log: the candidate, the previous profile, and the others as they were. -/

namespace Attempt

/-- The candidate of an attempt is not the previous profile. -/
theorem ne (h : Attempt g previous p ok l g') : ∀ u ∈ previous, u ≠ p := by
  rintro u hu rfl
  obtain ⟨q, hq, hid⟩ := (h.saved u).mpr hu
  have hpending : q.id = PENDING_PROFILE := h.absent q hq
  exact pending_ne_saved (hpending.symm.trans hid)

/-- A profile that is not worked on keeps its name, a candidate apart. -/
theorem holds_other (h : Attempt g previous p ok l g') (hv : v ≠ p) (hprev : previous ≠ some v)
    (hname : name ≠ PENDING_PROFILE) : Holds g' name v ↔ Holds g name v := by
  rcases h.others v hv hprev with heq | ⟨hpending, hnone⟩
  · rw [Holds, heq, Holds]
  · constructor
    · rintro ⟨q, hq, -⟩
      rw [hnone] at hq
      cases hq
    · rintro ⟨q, hq, hid⟩
      exact absurd (hid.symm.trans (hpending q hq)) hname

/-- When the candidate carries the saved name; it never carries that of the backup. -/
theorem holds_candidate (h : Attempt g previous p ok l g') :
    (Holds g' SAVED_PROFILE p ↔ Took l (.setIdentity p SAVED_PROFILE) ∧
        ¬Took l (.setIdentity p PENDING_PROFILE) ∧ ¬Took l (.deleteUuid p)) ∧
      ¬Holds g' PREVIOUS_PROFILE p := by
  obtain ⟨ssid, hp⟩ := h.candidate
  have hid : (Rave.candidate ssid).id = PENDING_PROFILE := rfl
  have hnames : ∀ name, Holds g' name p ↔ _ := fun name => by
    rw [Holds, hp, exists_contentAfter, hid]
  rw [hnames, hnames]
  constructor
  · by_cases hpending : Took l (.setIdentity p PENDING_PROFILE) <;>
    by_cases hsaved : Took l (.setIdentity p SAVED_PROFILE) <;> simp [hpending, hsaved]
  · by_cases hpending : Took l (.setIdentity p PENDING_PROFILE) <;>
    by_cases hsaved : Took l (.setIdentity p SAVED_PROFILE) <;>
      simp [hpending, hsaved, previous_ne_saved.symm]

/-- When the previous profile carries which name. -/
theorem holds_replaced (h : Attempt g previous p ok l g') (hu : previous = some u) :
    (Holds g' SAVED_PROFILE u ↔ ¬Took l (.deleteUuid u) ∧
        (Took l (.setIdentity u PREVIOUS_PROFILE) → Took l (.setIdentity u SAVED_PROFILE))) ∧
      (Holds g' PREVIOUS_PROFILE u ↔ ¬Took l (.deleteUuid u) ∧
        Took l (.setIdentity u PREVIOUS_PROFILE) ∧ ¬Took l (.setIdentity u SAVED_PROFILE)) := by
  obtain ⟨q, hq, hid⟩ := (h.saved u).mpr hu
  have hnames : ∀ name, Holds g' name u ↔ _ := fun name => by
    rw [Holds, h.replaced u hu, hq, exists_contentAfter, hid]
  rw [hnames, hnames]
  constructor
  · by_cases hsaved : Took l (.setIdentity u SAVED_PROFILE) <;>
    by_cases hprev : Took l (.setIdentity u PREVIOUS_PROFILE) <;> simp [hsaved, hprev]
  · by_cases hsaved : Took l (.setIdentity u SAVED_PROFILE) <;>
    by_cases hprev : Took l (.setIdentity u PREVIOUS_PROFILE) <;>
      simp [hsaved, hprev, previous_ne_saved.symm]

/-- **The saved name after an attempt**: the candidate's where it was promoted and not demoted, the
previous profile's where it was not backed up, or restored. -/
theorem holds_saved (h : Attempt g previous p ok l g') : Holds g' SAVED_PROFILE v ↔
    v = p ∧ Took l (.setIdentity p SAVED_PROFILE) ∧ ¬Took l (.setIdentity p PENDING_PROFILE) ∧
        ¬Took l (.deleteUuid p) ∨
      previous = some v ∧ ¬Took l (.deleteUuid v) ∧
        (Took l (.setIdentity v PREVIOUS_PROFILE) → Took l (.setIdentity v SAVED_PROFILE)) := by
  by_cases hv : v = p
  · subst hv
    have hnot : previous ≠ some v := fun hu => h.ne v hu rfl
    simp [h.holds_candidate.1, hnot]
  · by_cases hprev : previous = some v
    · simp [(h.holds_replaced hprev).1, hv, hprev]
    · rw [h.holds_other hv hprev pending_ne_saved.symm, h.saved]
      simp [hv, hprev]

/-- **The backup name after an attempt**: whoever carried it, and the previous profile where it was
backed up and neither restored nor deleted. -/
theorem holds_previous (h : Attempt g previous p ok l g') : Holds g' PREVIOUS_PROFILE v ↔
    Holds g PREVIOUS_PROFILE v ∨
      previous = some v ∧ ¬Took l (.deleteUuid v) ∧ Took l (.setIdentity v PREVIOUS_PROFILE) ∧
        ¬Took l (.setIdentity v SAVED_PROFILE) := by
  -- a profile has one name
  have hother : ∀ {w name}, Holds g name w → ∀ {name'}, Holds g name' w → name = name' := by
    rintro w name ⟨q, hq, hid⟩ name' ⟨q', hq', hid'⟩
    cases hq.symm.trans hq'
    exact hid.symm.trans hid'
  -- the new profile, the one it replaces, and any other
  by_cases hv : v = p
  · subst hv
    have hnot : previous ≠ some v := fun hu => h.ne v hu rfl
    have hnone : ¬Holds g PREVIOUS_PROFILE v := by
      rintro ⟨q, hq, hid⟩
      exact pending_ne_previous ((h.absent q hq).symm.trans hid)
    simp [h.holds_candidate.2, hnot, hnone]
  · by_cases hprev : previous = some v
    · have hnone : ¬Holds g PREVIOUS_PROFILE v := fun hback =>
        previous_ne_saved (hother hback ((h.saved v).mpr hprev))
      simp [(h.holds_replaced hprev).2, hprev, hnone]
    · rw [h.holds_other hv hprev pending_ne_previous.symm]
      simp [hprev]

/-- No candidate is left but the one that was brought up. -/
theorem not_holds_pending (h : Attempt g previous p ok l g') (hv : v ≠ p) :
    ¬Holds g' PENDING_PROFILE v := by
  by_cases hprev : previous = some v
  · obtain ⟨q, hq, hid⟩ := (h.saved v).mpr hprev
    rw [Holds, h.replaced v hprev, hq, exists_contentAfter, hid]
    by_cases hsaved : Took l (.setIdentity v SAVED_PROFILE) <;>
    by_cases hback : Took l (.setIdentity v PREVIOUS_PROFILE) <;>
      simp [hsaved, hback, pending_ne_saved.symm, pending_ne_previous.symm]
  · exact h.alone v hv hprev

end Attempt

end

end Rave
