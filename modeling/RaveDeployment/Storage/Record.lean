import RaveDeployment.Storage.Groups

/-!
# The completion record over many boots

A history is a list of boots, each a run of `expand_root` that may be stopped anywhere. A boot finds
the record as the one before it left it; what became of the temporary file does not matter.
`record_never_false` says what the record tells in every boot of every history.
-/

namespace Rave

namespace Storage

/-! ## One publication

The text reaches the temporary file, and only then takes the record's place. -/

/-- The temporary file and the buffer hold the text together. -/
structure Held (text : List Char) (s : Disk) : Prop where
  record : s.record = none
  text : ∃ done, s.temporary = some done ∧ done ++ s.buffered = text

/-- What is buffered or in the file stays so. -/
theorem Held.flush {text : List Char} {s : Disk} (h : Held text s) (n : Nat) :
    Held text (s.flush n) := by
  obtain ⟨done, hdone, htext⟩ := h.text
  refine ⟨h.record, done ++ s.buffered.take n, ?_, ?_⟩
  · show s.temporary.map (· ++ s.buffered.take n) = some (done ++ s.buffered.take n)
    rw [hdone]
    rfl
  · show done ++ s.buffered.take n ++ s.buffered.drop n = text
    rw [List.append_assoc, List.take_append_drop]
    exact htext

/-- What is written is added. -/
theorem Held.write {text : List Char} {s : Disk} (h : Held text s) (more : List Char) :
    Held (text ++ more) (s.write more) := by
  obtain ⟨done, hdone, htext⟩ := h.text
  refine ⟨h.record, done, hdone, ?_⟩
  show done ++ (s.buffered ++ more) = text ++ more
  rw [← List.append_assoc, htext]

/-- All of the text is in the file. -/
structure InFile (text : List Char) (s : Disk) : Prop where
  record : s.record = none
  temporary : s.temporary = some text
  buffered : s.buffered = []

/-- Flushing everything brings it into the file. -/
theorem Held.inFile {text : List Char} {s : Disk} (h : Held text s) :
    InFile text (s.flush s.buffered.length) := by
  obtain ⟨done, hdone, htext⟩ := h.text
  refine ⟨h.record, ?_, ?_⟩
  · show s.temporary.map (· ++ s.buffered.take s.buffered.length) = some text
    rw [hdone, List.take_length, ← htext]
    rfl
  · exact List.drop_length

theorem InFile.held {text : List Char} {s : Disk} (h : InFile text s) : Held text s :=
  ⟨h.record, text, h.temporary, by rw [h.buffered, List.append_nil]⟩

/-- The operations after the first statement other than the replacement. -/
def Prepares : GrowOp → Prop
  | .replace => False
  | _ => True

/-- Before it is replaced, there is no record. -/
theorem exec_prepares {c : Answer} {o : GrowOp} {s t : Disk} {r : o.Ans} (ho : Prepares o)
    (hs : s.record = none) (h : exec c o s = (r, t)) : t.record = none := by
  rcases exec_cases h with ⟨e, -, ht⟩ | heffect
  · rw [ht]
    cases o with
    | replace => exact absurd ho id
    | _ => exact hs
  · rw [← (Prod.mk.inj heffect).2]
    cases o with
    | replace => exact absurd ho id
    | unlink => rfl
    | _ => exact hs

section Write

variable {α β : Type} {s : Disk}

/-- Where the program returns, `P` holds. -/
def Returns (P : Disk → Prop) (p : GrowM α) (s : Disk) : Prop :=
  p.wp surroundings (fun _ => P) (fun _ _ => True) s

theorem returns_bind {P Q : Disk → Prop} {p : GrowM α} {f : α → GrowM β} (hp : Returns P p s)
    (hf : ∀ a t, P t → Returns Q (f a) t) : Returns Q (p.bind f) s :=
  Prog.wp_bind.mpr (Prog.wp_mono hp hf fun _ _ _ => trivial)

theorem returns_perform {P : Disk → Prop} {o : GrowOp}
    (h : ∀ c a t, effect c s o = (.ok a, t) → P t) : Returns P (perform o) s := by
  apply wp_perform
  · intro c a t hexec
    rcases exec_cases hexec with ⟨e, he, -⟩ | heffect
    · exact absurd he (by simp)
    · exact h c a t heffect
  · intro c e t _
    trivial

/-- What is done at the end. -/
theorem returns_finallyDo {P Q : Disk → Prop} {p : GrowM α} {c : GrowM Unit} (hp : Returns P p s)
    (hc : ∀ t, P t → Returns Q c t) : Returns Q (p.finallyDo c) s := by
  apply Prog.wp_finallyDo.mpr
  apply Prog.wp_mono hp
  · intro a t ht
    apply Prog.wp_mono (hc t ht) _ fun _ _ _ => trivial
    intro _ w hw v hv
    cases hv
    exact hw
  · intro e t _
    apply Prog.wp_mono ((Prog.within_true c).wp (fun _ _ _ => trivial) t) _ fun _ _ _ => trivial
    intro _ w _ v _
    trivial

/-- The temporary file holds the text of the record. -/
theorem returns_writeTemporary (plan : GrowthPlan) (F : Int) (hs : s.record = none) :
    Returns (InFile (recordText plan F)) (writeTemporary plan F) s := by
  apply returns_bind (P := fun t => t.record = none)
  · apply returns_perform
    intro c a t h
    rw [← (Prod.mk.inj h).2]
    exact hs
  intro _ s hs
  -- the file is empty
  apply returns_bind (P := Held [])
  · apply returns_perform
    intro c a t h
    rw [← (Prod.mk.inj h).2]
    exact ⟨hs, [], rfl, rfl⟩
  intro _ s hs
  apply returns_bind (P := InFile (recordText plan F))
  · apply returns_finallyDo (P := InFile (recordText plan F))
    · apply returns_bind (P := Held (recordJson plan F))
      · apply returns_perform
        intro c a t h
        rw [← (Prod.mk.inj h).2]
        have hheld := hs.write (recordJson plan F)
        rw [List.nil_append] at hheld
        exact hheld.flush c.flushed
      intro _ s hs
      apply returns_bind (P := Held (recordText plan F))
      · apply returns_perform
        intro c a t h
        rw [← (Prod.mk.inj h).2]
        exact (hs.write ['\n']).flush c.flushed
      intro _ s hs
      apply returns_bind (P := InFile (recordText plan F))
      · apply returns_perform
        intro c a t h
        rw [← (Prod.mk.inj h).2]
        exact hs.inFile
      intro _ s hs
      apply returns_perform
      intro c a t h
      rw [← (Prod.mk.inj h).2]
      exact hs
    · -- closing writes out a buffer that is empty by now
      intro t ht
      apply returns_perform
      intro c a w h
      rw [← (Prod.mk.inj h).2]
      exact ht.held.inFile
  intro _ s hs
  apply returns_perform
  intro c a t h
  rw [← (Prod.mk.inj h).2]
  exact hs

end Write

def Writes : GrowOp → Prop
  | .unlink => False
  | .run _ => False
  | .resolve _ _ => False
  | .replace => False
  | _ => True

/-- Writing the temporary file touches no record. -/
theorem Writes.prepares {o : GrowOp} (h : Writes o) : Prepares o := by
  cases o with
  | replace => exact absurd h id
  | _ => trivial

/-- Writing the temporary file issues nothing else. -/
theorem within_writeTemporary {ok : GrowOp → Prop} (hok : ∀ o, Writes o → ok o)
    (plan : GrowthPlan) (F : Int) : Prog.Within ok (writeTemporary plan F) fun _ => True := by
  have op : ∀ o, Writes o → Prog.Within ok (perform o) fun _ => True :=
    fun o ho => within_perform (hok o ho)
  apply Prog.within_bind (op (.mkdirParent 0o750) trivial)
  intro _ _
  apply Prog.within_bind (op .openTemporary trivial)
  intro _ _
  refine Prog.within_bind (Q := fun _ => True) (Prog.within_finallyDo ?_ (op .close trivial)) ?_
  · apply Prog.within_bind (op (.write _) trivial)
    intro _ _
    apply Prog.within_bind (op (.write _) trivial)
    intro _ _
    apply Prog.within_bind (op .flush trivial)
    intro _ _
    exact op .fsync trivial
  · intro _ _
    exact op (.chmod _) trivial

/-! ## One boot

The old record is removed first, so that a boot that is stopped leaves none, or its own. -/

/-- A run of `expand_root`: the disk it began with, what was left of it when it was stopped, and the
disk then. -/
structure Boot where
  began : Disk
  left : GrowM Unit
  now : Disk

section

variable [PyUnicode] [PyRepr]

/-- The first statement has not been completed: nothing has happened, or it has raised. -/
def Boot.BeforeRemoval (b : Boot) : Prop :=
  b.now = b.began ∧ (b.left = expandRoot ∨ ∃ e, b.left = .raise e)

/-- After the first statement left `cleared`, the run passed every check with the plan `after`,
wrote the temporary file and reached the replacement, and the record is what it wrote. -/
structure Boot.Completed (b : Boot) (cleared : Disk) (content : List Char) (D : Int)
    (after : GrowthPlan) (F : Int) : Prop where
  checked : ∃ checked prepared, growAndVerify.Runs surroundings cleared (.ok (D, after, F)) checked
    ∧ (writeTemporary after F).Runs surroundings checked (.ok ()) prepared
    ∧ prepared.record = none ∧ publishRecord.Reaches surroundings prepared b.left b.now
  content : content = recordText after F
  fills : FillsDevice D after F

def Boot.Truthful (b : Boot) : Prop :=
  b.BeforeRemoval ∨ ∃ cleared, (∃ c, exec c .unlink b.began = (.ok (), cleared)) ∧
    growRoot.Reaches surroundings cleared b.left b.now ∧
    ∀ content, b.now.record = some content → ∃ D after F, b.Completed cleared content D after F

def Syncs (o : GrowOp) : Prop :=
  o = .openDirectory ∨ o = .fsyncDirectory ∨ o = .closeDirectory

omit [PyUnicode] [PyRepr] in
theorem exec_syncs {c : Answer} {o : GrowOp} {s t : Disk} {r : o.Ans} (ho : Syncs o)
    (h : exec c o s = (r, t)) : t = s := by
  rcases exec_cases h with ⟨e, -, ht⟩ | heffect
  · rw [ht]
    rcases ho with rfl | rfl | rfl <;> rfl
  · rw [← (Prod.mk.inj heffect).2]
    rcases ho with rfl | rfl | rfl <;> rfl

omit [PyUnicode] [PyRepr] in
/-- The directory is synchronised and closed. -/
theorem within_syncDirectory : Prog.Within Syncs
    (do
      perform .openDirectory
      Prog.finallyDo (perform .fsyncDirectory) (perform .closeDirectory) : GrowM Unit)
    fun _ => True := by
  have op : ∀ o, Syncs o → Prog.Within Syncs (perform o) fun _ => True :=
    fun _ ho => within_perform ho
  apply Prog.within_bind (op .openDirectory (Or.inl rfl))
  intro _ _
  exact Prog.within_finallyDo (op .fsyncDirectory (Or.inr (Or.inl rfl)))
    (op .closeDirectory (Or.inr (Or.inr rfl)))

omit [PyUnicode] [PyRepr] in
/-- A replacement that fails changes nothing. -/
theorem replace_error {c : Answer} {s t : Disk} {e : GrowError}
    (h : exec c .replace s = (.error e, t)) : t = s := by
  rcases exec_cases h with ⟨_, -, ht⟩ | heffect
  · exact ht
  · cases htemporary : s.temporary with
    | none =>
      simp only [effect, htemporary] at heffect
      exact (Prod.mk.inj heffect).2.symm
    | some text =>
      simp only [effect, htemporary] at heffect
      exact absurd (Prod.mk.inj heffect).1 (by simp)

omit [PyUnicode] [PyRepr] in
/-- A replacement puts the text into the record's place. -/
theorem replace_ok {c : Answer} {s t : Disk} {text : List Char} {u : GrowOp.replace.Result}
    (hs : InFile text s) (h : exec c .replace s = (.ok u, t)) : t.record = some text := by
  rcases exec_cases h with ⟨_, he, -⟩ | heffect
  · exact absurd he (by simp)
  · simp only [effect, hs.temporary] at heffect
    rw [← (Prod.mk.inj heffect).2]

omit [PyUnicode] [PyRepr] in
/-- The record that the replacement publishes is the temporary file. -/
theorem reaches_publishRecord {text content : List Char} {s t : Disk} {left : GrowM Unit}
    (hs : InFile text s) (h : publishRecord.Reaches surroundings s left t)
    (hrecord : t.record = some content) : content = text := by
  have hnone : t.record = none → content = text := by
    intro hnone
    rw [hnone] at hrecord
    exact absurd hrecord (by simp)
  rcases Prog.reaches_bind h with ⟨p, hp, -⟩ | ⟨_, w, hreplaced, hrest⟩
  · -- stopped before anything else: nothing is done, or the replacement is all that is done
    rcases reaches_perform hp with ⟨-, rfl⟩ | ⟨c, e, hexec, -⟩ | ⟨c, a, hexec, -⟩
    · exact hnone hs.record
    · apply hnone
      rw [replace_error hexec]
      exact hs.record
    · rw [replace_ok hs hexec] at hrecord
      exact (Option.some.inj hrecord).symm
  · obtain ⟨c, hexec⟩ := runs_perform hreplaced
    have hkept : t.record = some text := by
      apply within_syncDirectory.reaches (stable_surroundings fun t => t.record = some text) _ hrest
        (replace_ok hs hexec)
      intro o s r t ho hs ⟨c, hexec⟩
      rw [exec_syncs ho hexec]
      exact hs
    rw [hkept] at hrecord
    exact (Option.some.inj hrecord).symm

/-- A run that is past the first statement. -/
theorem completed_of_growRoot {b : Boot} {cleared : Disk} (hcleared : cleared.record = none)
    (h : growRoot.Reaches surroundings cleared b.left b.now) {content : List Char}
    (hrecord : b.now.record = some content) :
    ∃ D after F, b.Completed cleared content D after F := by
  -- neither what observes nor what prepares puts a record in place, so the publication did
  have keeps : ∀ o s (r : o.Ans) t, Observes o → s.record = none →
      surroundings.exec o s r t → t.record = none := by
    intro o s r t ho hs ⟨c, hexec⟩
    rw [exec_observes ho hexec]
    exact hs
  have stable := stable_surroundings fun t => t.record = none
  have none_ne : ∀ t : Disk, t.record = none → t.record = some content → False := by
    intro t hnone hsome
    rw [hnone] at hsome
    exact absurd hsome (by simp)
  rcases Prog.reaches_bind h with ⟨p, hp, -⟩ | ⟨⟨D, after, F⟩, checked, hchecked, hrest⟩
  · exact absurd hrecord fun hsome =>
      none_ne _ (within_growAndVerify.reaches (P := fun t => t.record = none) stable keeps hp
        hcleared) hsome
  obtain ⟨hchecked_none, hfills⟩ := within_growAndVerify.runs stable keeps hchecked hcleared
  have keeps' : ∀ o s (r : o.Ans) t, Prepares o → s.record = none →
      surroundings.exec o s r t → t.record = none := by
    intro o s r t ho hs ⟨c, hexec⟩
    exact exec_prepares ho hs hexec
  rcases Prog.reaches_bind hrest with ⟨p, hp, -⟩ | ⟨_, prepared, hprepared, hpublish⟩
  · exact absurd hrecord fun hsome =>
      none_ne _ ((within_writeTemporary (fun _ => Writes.prepares) after F).reaches
        (P := fun t => t.record = none) stable
        keeps' hp hchecked_none) hsome
  have hfile := (Prog.wp_runs (returns_writeTemporary after F hchecked_none) hprepared).1 () rfl
  refine ⟨D, after, F, ⟨checked, prepared, hchecked, hprepared, hfile.record, hpublish⟩, ?_, hfills⟩
  exact reaches_publishRecord hfile hpublish hrecord

omit [PyUnicode] [PyRepr] in
/-- A removal fails and changes nothing, or leaves no record. -/
theorem unlink_cases {c : Answer} {s t : Disk} {r : GrowOp.unlink.Ans}
    (h : exec c .unlink s = (r, t)) :
    (∃ e, r = .error e ∧ t = s) ∨ (r = .ok () ∧ t.record = none) := by
  rcases exec_cases h with ⟨e, he, ht⟩ | heffect
  · exact Or.inl ⟨e, he, ht⟩
  · exact Or.inr ⟨(Prod.mk.inj heffect).1.symm, congrArg Disk.record (Prod.mk.inj heffect).2.symm⟩

/-- A boot that is stopped anywhere leaves no record or a truthful one. -/
theorem truthful_of_reaches {b : Boot} (h : expandRoot.Reaches surroundings b.began b.left b.now) :
    b.Truthful := by
  -- past the first statement, with the run of the rest
  have past : ∀ {cleared : Disk} {c : Answer}, exec c .unlink b.began = (.ok (), cleared) →
      growRoot.Reaches surroundings cleared b.left b.now → b.Truthful := by
    intro cleared c hexec hrest
    rcases unlink_cases hexec with ⟨e, he, -⟩ | ⟨-, hcleared⟩
    · exact absurd he (by simp)
    · exact Or.inr ⟨cleared, ⟨c, hexec⟩, hrest,
        fun content hrecord => completed_of_growRoot hcleared hrest hrecord⟩
  rcases Prog.reaches_bind h with ⟨p, hp, hleft⟩ | ⟨u, cleared, hcleared, hrest⟩
  · rcases reaches_perform hp with ⟨rfl, hnow⟩ | ⟨c, e, hexec, rfl⟩ | ⟨c, a, hexec, rfl⟩
    · exact Or.inl ⟨hnow, Or.inl hleft⟩
    · rcases unlink_cases hexec with ⟨e', -, hnow⟩ | ⟨he, -⟩
      · exact Or.inl ⟨hnow, Or.inr ⟨e, hleft⟩⟩
      · exact absurd he (by simp)
    · apply past hexec
      rw [hleft]
      exact .refl rfl
  · obtain ⟨c, hexec⟩ := runs_perform hcleared
    exact past hexec hrest

/-! ## Runs that return

A boot that comes to its end, for the histories below. -/

section Returned

variable {s t : Disk} {cs : List Answer} {asked : List GrowOp}

omit [PyUnicode] [PyRepr] in
/-- A completion that is written to its end leaves the record of its plan. -/
theorem record_of_writeCompletion {plan : GrowthPlan} {F : Int} (hs : s.record = none)
    (h : (writeCompletion plan F).Answered exec s cs asked () t) :
    t.record = some (recordText plan F) := by
  obtain ⟨_, w, _, _, _, _, -, -, htemporary, hpublish⟩ := Prog.answered_bind h
  have hfile :=
    (Prog.wp_runs (returns_writeTemporary plan F hs) (htemporary.runs exec_surroundings)).1
    () rfl
  obtain ⟨_, x, _, _, _, _, -, -, hreplaced, hsync⟩ := Prog.answered_bind hpublish
  obtain ⟨c, hexec⟩ := runs_perform (hreplaced.runs exec_surroundings)
  have hkept : x.record = some (recordText plan F) := replace_ok hfile hexec
  refine (within_syncDirectory.runs
    (stable_surroundings fun u => u.record = some (recordText plan F))
    ?_ (hsync.runs exec_surroundings) hkept).1
  intro o s r t ho hs hx
  obtain ⟨c, hexec⟩ := hx
  rw [exec_syncs ho hexec]
  exact hs

omit [PyUnicode] [PyRepr] in
/-- A removal that returned leaves no record. -/
theorem record_of_unlink (h : (perform .unlink).Answered exec s cs asked () t) :
    t.record = none := by
  obtain ⟨c, hexec⟩ := runs_perform (h.runs exec_surroundings)
  rcases unlink_cases hexec with ⟨e, he, -⟩ | ⟨-, hcleared⟩
  · exact absurd he (by simp)
  · exact hcleared

omit [PyUnicode] [PyRepr] in
/-- A removal that does not fail returns. -/
theorem exists_unlink {removal : Answers 1} (hremoval : ∀ a ∈ removal.val, a.fails = none)
    (s : Disk) : ∃ t, (perform .unlink).Answered exec s removal.val [.unlink] () t := by
  obtain ⟨answers, hlength⟩ := removal
  match answers, hlength, hremoval with
  | [⟨f, _, _, _⟩], _, h =>
    obtain rfl : f = none := h _ (List.mem_singleton_self _)
    exact ⟨_, .op (.ret _ _)⟩

end Returned

/-! ## Histories

Boot after boot, each stopped anywhere, on one disk. -/

/-- A boot that finds the record as it was left. -/
def Boot.Follows (b : Boot) (last : Disk) : Prop :=
  b.began.record = last.record ∧ b.began.buffered = [] ∧
    expandRoot.Reaches surroundings b.began b.left b.now

/-- A sequence of boots, from one disk to another. -/
inductive Boots : Disk → List Boot → Disk → Prop where
  | none (s : Disk) : Boots s [] s
  | boot {s t : Disk} {bs : List Boot} {b : Boot} (earlier : Boots s bs t) (h : b.Follows t) :
      Boots s (bs ++ [b]) b.now

/-- **The record is never a stale or false success.** In every boot of every history, once the
first statement is completed: the record exists only if that run passed every check and reached the
replacement, it is the record of the plan that the run verified, and the file system fills the
device up to the allowed slacks. -/
theorem record_never_false {s t : Disk} {bs : List Boot} (h : Boots s bs t) :
    ∀ b ∈ bs, b.Truthful := by
  induction h with
  | none =>
    intro b hb
    exact absurd hb (by simp)
  | boot earlier hfollows ih =>
    intro b hb
    rcases List.mem_append.mp hb with hb | hb
    · exact ih b hb
    · rw [List.mem_singleton.mp hb]
      exact truthful_of_reaches hfollows.2.2

end

def staleDisk : Disk :=
  ⟨some "stale marker".toList, none, []⟩

/-- The removal succeeds, ROOT is found, and the system slot leads elsewhere. -/
def otherSlot : List Answer :=
  [printed "", printed "/dev/mmcblk0p2\n", leadsTo "/dev/mmcblk0p2", leadsTo "/dev/sda2"]

/-- A boot that answers so, up to a number of operations. -/
def otherSlotBoot (began : Disk) (n : Nat) : Boot :=
  let run := Prog.follow exec (otherSlot.take n) (@expandRoot asciiUnicode plainRepr) began
  ⟨began, run.1, run.2⟩

/-- The boot finds what the last one left. -/
theorem follows_otherSlotBoot {began last : Disk} (hrecord : began.record = last.record)
    (hbuffered : began.buffered = []) (n : Nat) :
    @Boot.Follows asciiUnicode plainRepr (otherSlotBoot began n) last := by
  exact ⟨hrecord, hbuffered, Prog.reaches_follow exec_surroundings _ _ _⟩

/-- The removal of the record, the growth of the card, and the writing of its record. -/
def cardAnswers : List Answer :=
  [printed ""] ++ ((cardSurveyAnswers ++ cardGrowthAnswers) ++ List.replicate 12 (printed ""))

def cardOps : List GrowOp :=
  [.unlink] ++ ((cardSurveyOps ++ cardGrowthOps) ++ writingOps (cardPlan 14) 58720256)

/-- On these answers the card is grown, whatever was left on the disk. -/
theorem answered_expandRoot_card (s : Disk) : ∃ t,
    (@expandRoot asciiUnicode plainRepr).Answered exec s cardAnswers cardOps () t ∧
      t.record = some (recordText (cardPlan 14) 58720256) := by
  let removal : Answers 1 := ⟨[printed ""], rfl⟩
  let writing : Answers 12 := ⟨List.replicate 12 (printed ""), rfl⟩
  obtain ⟨cleared, hunlink⟩ := @exists_unlink removal (by simp [removal, printed]) s
  obtain ⟨t, hwritten⟩ := @exists_writeCompletion (cardPlan 14) 58720256 writing
    (by simp [writing, printed]) cleared
  refine ⟨t, ?_, record_of_writeCompletion (record_of_unlink hunlink) hwritten⟩
  exact hunlink.bind ((answered_card cleared).bind hwritten)

/-- A boot that is stopped before the removal, one that fails after it, and one that completes. -/
theorem record_never_false_otherSlot : ∃ failing completed : Boot,
    @Boot.Truthful asciiUnicode plainRepr failing ∧ failing.began = staleDisk ∧
      failing.now.record = none ∧ @Boot.Truthful asciiUnicode plainRepr completed ∧
      completed.now.record = some (recordText (cardPlan 14) 58720256) := by
  have hfirst := @Boots.boot asciiUnicode plainRepr staleDisk staleDisk [] _
    (@Boots.none asciiUnicode plainRepr staleDisk) (follows_otherSlotBoot rfl rfl 0)
  have hsecond := @Boots.boot asciiUnicode plainRepr staleDisk _ _ _ hfirst
    (@follows_otherSlotBoot staleDisk _ rfl rfl 4)
  have hnone : (otherSlotBoot staleDisk 4).now.record = none := by decide
  obtain ⟨t, hcompleted, hrecord⟩ := answered_expandRoot_card noDisk
  have hthird := @Boots.boot asciiUnicode plainRepr staleDisk _ _
    ⟨noDisk, .ret (), t⟩ hsecond
    ⟨hnone.symm, rfl, hcompleted.reaches exec_surroundings⟩
  have htruthful := @record_never_false asciiUnicode plainRepr _ _ _ hthird
  exact ⟨otherSlotBoot staleDisk 4, _, htruthful _ (by simp), rfl, hnone,
    htruthful _ (List.mem_append_right _ (List.mem_singleton_self _)), hrecord⟩

end Storage

end Rave
