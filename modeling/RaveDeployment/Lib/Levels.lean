import RaveDeployment.Lib.Journal
import RaveDeployment.Lib.Replay

/-!
# Operations that are carried out by programs

One program at two levels. Above, an operation is a single step; below, a program over other
operations carries it out, and what that comes to is the answer. `Methods` says which program it is
and which outcome is which answer.

* `Carries`: the program below does what the program above does, operation by operation. It is
  closed under sequencing, handlers and clean-ups, so that it is shown along the source.
* `Underway`: the same in the middle of a run, where an operation has been started and what its
  program has asked so far is a journal.
* `underway_step`: one step below is none above, or the end of an operation with its answer and
  then of those whose programs ask nothing.
* `CarriedOut`: the journal below is, one after the other, the runs of the programs of the journal
  above.
-/

namespace Rave

namespace Prog

universe u v

variable {ε : Type} {Op : Type u} {Ans : Op → Type} {Up : Type v} {Rep : Up → Type} {α β : Type}

/-! ## Outcomes as values

`attempt` makes a value of an outcome, and raising it again undoes that. So a handler is a sequence.
-/

theorem attempt_bind_ofExcept (p : Prog ε Op Ans α) : p.attempt.bind ofExcept = p := by
  induction p with
  | ret a => rfl
  | raise e => rfl
  | op o k ih =>
    show Prog.op o (fun r => (k r).attempt.bind ofExcept) = .op o k
    simp only [ih]

/-- Attempts are put together like programs. -/
theorem attempt_attempt_bind (p : Prog ε Op Ans α) (f : Except ε α → Prog ε Op Ans β) :
    (p.attempt.bind f).attempt = p.attempt.bind fun out => (f out).attempt := by
  induction p with
  | ret a => rfl
  | raise e => rfl
  | op o k ih =>
    show Prog.op o (fun r => ((k r).attempt.bind f).attempt) =
      .op o fun r => (k r).attempt.bind fun out => (f out).attempt
    simp only [ih]

/-! ## What is raised

A program raises only what a predicate allows, as long as the answers satisfy `ok`. -/

/-- Answered as it should be, the program raises only what satisfies `H`. -/
def RaisesOnly (ok : (o : Op) → Ans o → Prop) (H : ε → Prop) : Prog ε Op Ans α → Prop
  | .ret _ => True
  | .raise e => H e
  | .op o k => ∀ r, ok o r → RaisesOnly ok H (k r)

section

variable {ok : (o : Op) → Ans o → Prop} {H : ε → Prop}

theorem raisesOnly_ret (a : α) : RaisesOnly ok H (.ret a : Prog ε Op Ans α) :=
  trivial

/-- An exception is allowed where the predicate allows it. -/
theorem raisesOnly_raise {e : ε} (h : H e) : RaisesOnly ok H (.raise e : Prog ε Op Ans α) :=
  h

/-- An outcome raises what it holds. -/
theorem raisesOnly_ofExcept {out : Except ε α} (h : ∀ e, out = .error e → H e) :
    RaisesOnly ok H (ofExcept out : Prog ε Op Ans α) := by
  cases out with
  | ok a => exact raisesOnly_ret a
  | error e => exact h e rfl

/-- A sequence raises what its parts do. -/
theorem raisesOnly_bind {p : Prog ε Op Ans α} {f : α → Prog ε Op Ans β} (hp : RaisesOnly ok H p)
    (hf : ∀ a, RaisesOnly ok H (f a)) : RaisesOnly ok H (p.bind f) := by
  induction p with
  | ret a => exact hf a
  | raise e => exact hp
  | op o k ih =>
    intro r hr
    exact ih r (hp r hr)

/-- A run adds to the journal. -/
theorem Runs.subset {p : Prog ε Op Ans α} {out : Except ε α} {log log' : Journal Ans}
    (run : p.Runs (freely Ans) log out log') : log ⊆ log' := by
  induction run with
  | ret hl =>
    cases hl
    exact List.Subset.refl _
  | raise hl =>
    cases hl
    exact List.Subset.refl _
  | op hl hx _ ih =>
    cases hl
    cases hx
    exact List.Subset.trans (List.subset_append_left _ _) ih

/-- What a run raises is allowed, if its answers were. -/
theorem RaisesOnly.of_runs {p : Prog ε Op Ans α} (h : RaisesOnly ok H p) {log log' : Journal Ans}
    {e : ε} (run : p.Runs (freely Ans) log (.error e) log') (hlog : ∀ x ∈ log', ok x.1 x.2) :
    H e := by
  induction p generalizing log with
  | ret a => cases run
  | raise e =>
    cases run with
    | raise hl => exact h
  | op o k ih =>
    cases run with
    | @op _ _ _ _ _ _ r _ hl hx rest =>
      cases hl
      cases hx
      have hmem : (⟨o, r⟩ : (o : Op) × Ans o) ∈ log' :=
        rest.subset (List.mem_append_right _ List.mem_cons_self)
      exact ih r (h r (hlog _ hmem)) rest

end

/-! ## The two levels

An upper program names methods, and a lower one carries each of them out in operations of its own.
-/

/-- How the operations above are carried out below. -/
structure Methods (ε : Type) {Op : Type u} (Ans : Op → Type) {Up : Type v} (Rep : Up → Type) where
  Value : Up → Type
  method : (o : Up) → Prog ε Op Ans (Value o)
  /-- The answer that an outcome is, if it is one. -/
  report : (o : Up) → Except ε (Value o) → Option (Rep o)

variable (M : Methods ε Ans Rep)

def Carries : Prog ε Up Rep α → Prog ε Op Ans α → Prop
  | .ret a, p => p = .ret a
  | .raise e, p => p = .raise e
  | .op o k, p => ∃ f : Except ε (M.Value o) → Prog ε Op Ans α, p = (M.method o).attempt.bind f ∧
      ∀ out r, M.report o out = some r → Carries (k r) (f out)

/-- Where the answers below are as they should be, every outcome of a method is an answer. -/
def Answering (ok : (o : Op) → Ans o → Prop) : Prop :=
  ∀ o out late, (M.method o).Runs (freely Ans) [] out late → (∀ e ∈ late, ok e.1 e.2) →
    ∃ r, M.report o out = some r

/-- What is left of the program below, what is left above, and what the operation under way has
asked. -/
inductive Underway : Prog ε Op Ans α → Prog ε Up Rep α → Journal Ans → Prop where
  | ret (a : α) : Underway (.ret a) (.ret a) []
  | raise (e : ε) : Underway (.raise e) (.raise e) []
  | within {o : Up} {k : Rep o → Prog ε Up Rep α} {b : Op} {m : Ans b → Prog ε Op Ans (M.Value o)}
      {f : Except ε (M.Value o) → Prog ε Op Ans α} {late : Journal Ans}
      (hreach : (M.method o).Reaches (freely Ans) [] (.op b m) late)
      (hcarries : ∀ out r, M.report o out = some r → Carries M (k r) (f out)) :
      Underway (.op b fun x => (m x).attempt.bind f) (.op o k) late

/-- Operations above whose programs ask nothing. -/
inductive Settles : Prog ε Up Rep α → Journal Rep → Prog ε Up Rep α → Prop where
  | done (q : Prog ε Up Rep α) : Settles q [] q
  | op {o : Up} {k : Rep o → Prog ε Up Rep α} {out : Except ε (M.Value o)} {r : Rep o}
      {rest : Journal Rep} {q : Prog ε Up Rep α} (hmethod : M.method o = ofExcept out)
      (hreport : M.report o out = some r) (h : Settles (k r) rest q) :
      Settles (.op o k) (⟨o, r⟩ :: rest) q

/-- The journal below, taken apart into the runs of what the journal above asked. -/
inductive CarriedOut : Journal Ans → Journal Rep → Prop where
  | nil : CarriedOut [] []
  | op {log late : Journal Ans} {log' : Journal Rep} {o : Up} {out : Except ε (M.Value o)}
      {r : Rep o} (h : CarriedOut log log') (hrun : (M.method o).Runs (freely Ans) [] out late)
      (hreport : M.report o out = some r) : CarriedOut (log ++ late) (log' ++ [⟨o, r⟩])

variable {M}

/-! ## Programs that carry out programs

The relation is that of the two syntax trees: where the upper one calls a method, the lower one runs
its program and goes on in the same way with the outcome. -/

theorem carries_ret (a : α) : Carries M (.ret a) (.ret a) :=
  rfl

theorem carries_raise (e : ε) : Carries M (.raise e : Prog ε Up Rep α) (.raise e) :=
  rfl

theorem carries_ofExcept (out : Except ε α) : Carries M (ofExcept out) (ofExcept out) := by
  cases out with
  | ok a => exact carries_ret a
  | error e => exact carries_raise e

def proceed (f : α → Prog ε Op Ans β) : Except ε α → Prog ε Op Ans β
  | .ok a => f a
  | .error e => .raise e

/-- An operation that one operation carries out, whose answer is its own. -/
theorem carries_one {o : Up} {b : Op} (w : Ans b → M.Value o) (v : M.Value o → Ans b)
    (hmethod : M.method o = .op b fun x => .ret (w x)) (hv : ∀ x, v (w x) = x)
    {k : Rep o → Prog ε Up Rep α} {f : Ans b → Prog ε Op Ans α}
    (hvalue : ∀ a r, M.report o (.ok a) = some r → Carries M (k r) (f (v a)))
    (herror : ∀ e, M.report o (.error e) = none) : Carries M (.op o k) (.op b f) := by
  refine ⟨proceed fun a => f (v a), ?_, ?_⟩
  · rw [hmethod]
    show Prog.op b f = .op b fun x => f (v (w x))
    simp only [hv]
  · intro out r hreport
    cases out with
    | ok a => exact hvalue a r hreport
    | error e =>
      rw [herror e] at hreport
      cases hreport

/-- Sequences are carried out part by part. -/
theorem carries_bind {q : Prog ε Up Rep α} {p : Prog ε Op Ans α} {g : α → Prog ε Up Rep β}
    {f : α → Prog ε Op Ans β} (h : Carries M q p) (hf : ∀ a, Carries M (g a) (f a)) :
    Carries M (q.bind g) (p.bind f) := by
  induction q generalizing p with
  | ret a =>
    obtain rfl : p = .ret a := h
    exact hf a
  | raise e =>
    obtain rfl : p = .raise e := h
    exact carries_raise e
  | op o k ih =>
    obtain ⟨f', rfl, hk⟩ := h
    refine ⟨fun out => (f' out).bind f, bind_assoc _ _ _, ?_⟩
    intro out r hreport
    exact ih r (hk out r hreport)

/-- An attempt carries out an attempt. -/
theorem carries_attempt {q : Prog ε Up Rep α} {p : Prog ε Op Ans α} (h : Carries M q p) :
    Carries M q.attempt p.attempt := by
  induction q generalizing p with
  | ret a =>
    obtain rfl : p = .ret a := h
    exact carries_ret _
  | raise e =>
    obtain rfl : p = .raise e := h
    exact carries_ret _
  | op o k ih =>
    obtain ⟨f', rfl, hk⟩ := h
    refine ⟨fun out => (f' out).attempt, attempt_attempt_bind _ _, ?_⟩
    intro out r hreport
    exact ih r (hk out r hreport)

/-- A handler carries out a handler. -/
theorem carries_handle {q : Prog ε Up Rep α} {p : Prog ε Op Ans α} {g : ε → Prog ε Up Rep α}
    {f : ε → Prog ε Op Ans α} (h : Carries M q p) (hf : ∀ e, Carries M (g e) (f e)) :
    Carries M (q.handle g) (p.handle f) := by
  apply carries_bind (carries_attempt h)
  intro out
  cases out with
  | ok a => exact carries_ret a
  | error e => exact hf e

theorem carries_finallyDo {q : Prog ε Up Rep α} {p : Prog ε Op Ans α} {g : Prog ε Up Rep Unit}
    {f : Prog ε Op Ans Unit} (h : Carries M q p) (hf : Carries M g f) :
    Carries M (q.finallyDo g) (p.finallyDo f) := by
  apply carries_bind (carries_attempt h)
  intro out
  apply carries_bind hf
  intro _
  exact carries_ofExcept out

/-! ## One step

A lower step either stays within the method that is under way, or ends it, which is the step of the
upper level. -/

/-- The run of a single operation. -/
theorem runs_one {b : Op} {out : Except ε (Ans b)} {late : Journal Ans}
    (h : (Prog.op b .ret).Runs (freely Ans) [] out late) :
    ∃ x, out = .ok x ∧ late = [⟨b, x⟩] := by
  cases h with
  | op hl hx rest =>
    cases hl
    cases hx
    cases rest with
    | ret hl =>
      cases hl
      exact ⟨_, rfl, rfl⟩

/-- A run of one operation ends with its answer. -/
theorem runs_one_last {b : Op} {out : Except ε (Ans b)} {late : Journal Ans}
    {e : (o : Op) × Ans o} (h : (Prog.op b .ret).Runs (freely Ans) [] out (late ++ [e])) :
    ∃ x, out = .ok x ∧ e = ⟨b, x⟩ := by
  obtain ⟨x, rfl, hlog⟩ := runs_one h
  have hlast := congrArg List.getLast? hlog
  rw [List.getLast?_concat] at hlast
  exact ⟨x, rfl, Option.some.inj hlast⟩

/-- It is not stopped within. -/
theorem not_reaches_one {b b' : Op} {m : Ans b' → Prog ε Op Ans (Ans b)} {log late : Journal Ans}
    {x : (o : Op) × Ans o} :
    ¬(Prog.op b .ret).Reaches (freely Ans) log (.op b' m) (log ++ x :: late) := by
  intro h
  cases h with
  | refl hl =>
    have hnil : x :: late = [] := List.append_cancel_left (hl.symm.trans (List.append_nil log).symm)
    exact absurd hnil (List.cons_ne_nil x late)
  | op _ _ rest => cases rest

/-- One more answer brings a run one operation further. -/
theorem Reaches.concat {p : Prog ε Op Ans α} {b : Op} {m : Ans b → Prog ε Op Ans α}
    {log late : Journal Ans} (h : p.Reaches (freely Ans) log (.op b m) late) (x : Ans b) :
    p.Reaches (freely Ans) log (m x) (late ++ [⟨b, x⟩]) := by
  generalize hleft : Prog.op b m = left at h
  induction h with
  | refl hl =>
    cases hl
    subst hleft
    exact .op rfl rfl (.refl rfl)
  | op hl hx _ ih => exact .op hl hx (ih hleft)

/-- What starts below is under way, once the operations that ask nothing are done above. -/
theorem settles_of_carries {ok : (o : Op) → Ans o → Prop} (hM : Answering M ok)
    {q : Prog ε Up Rep α} {p : Prog ε Op Ans α} (h : Carries M q p) :
    ∃ rest q', Settles M q rest q' ∧ Underway M p q' [] := by
  induction q generalizing p with
  | ret a =>
    obtain rfl : p = .ret a := h
    exact ⟨[], _, .done _, .ret a⟩
  | raise e =>
    obtain rfl : p = .raise e := h
    exact ⟨[], _, .done _, .raise e⟩
  | op o k ih =>
    obtain ⟨f, rfl, hk⟩ := h
    -- a method that asks nothing has come to its outcome at once
    have immediate : ∀ out : Except ε (M.Value o), M.method o = ofExcept out →
        ∃ rest q', Settles M (.op o k) rest q' ∧
          Underway M ((M.method o).attempt.bind f) q' [] := by
      intro out hmethod
      have hrun : (M.method o).Runs (freely Ans) [] out [] := by
        rw [hmethod]
        cases out with
        | ok a => exact .ret rfl
        | error e => exact .raise rfl
      obtain ⟨r, hr⟩ := hM o out [] hrun (fun e he => absurd he List.not_mem_nil)
      obtain ⟨rest, q', hsettles, hunderway⟩ := ih r (hk out r hr)
      refine ⟨_, q', .op hmethod hr hsettles, ?_⟩
      rw [hmethod]
      cases out with
      | ok a => exact hunderway
      | error e => exact hunderway
    cases hmethod : M.method o with
    | ret a =>
      rw [← hmethod]
      exact immediate (.ok a) hmethod
    | raise e =>
      rw [← hmethod]
      exact immediate (.error e) hmethod
    | op b m =>
      refine ⟨[], _, .done _, .within ?_ hk⟩
      rw [hmethod]
      exact .refl rfl

/-- **One step below.** The operation under way goes on, or it ends: then its run is complete, the
program above has its answer and settles what asks nothing. -/
theorem underway_step {ok : (o : Op) → Ans o → Prop} (hM : Answering M ok) {b : Op}
    {p : Ans b → Prog ε Op Ans α} {q : Prog ε Up Rep α} {late : Journal Ans}
    (h : Underway M (.op b p) q late) (hlate : ∀ e ∈ late, ok e.1 e.2) {x : Ans b} (hx : ok b x) :
    Underway M (p x) q (late ++ [⟨b, x⟩]) ∨
      ∃ (o : Up) (k : Rep o → Prog ε Up Rep α) (out : Except ε (M.Value o)) (r : Rep o)
        (rest : Journal Rep) (q' : Prog ε Up Rep α), q = .op o k ∧
        (M.method o).Runs (freely Ans) [] out (late ++ [⟨b, x⟩]) ∧ M.report o out = some r ∧
        Settles M (k r) rest q' ∧ Underway M (p x) q' [] := by
  cases h with
  | @within o k _ m f _ hreach hcarries =>
    have hreach' := hreach.concat x
    have hok : ∀ e ∈ late ++ [⟨b, x⟩], ok e.1 e.2 := by
      intro e he
      rcases List.mem_append.mp he with hold | hnew
      · exact hlate e hold
      · rw [List.mem_singleton.mp hnew]
        exact hx
    -- the method has come to its outcome
    have ends : ∀ out : Except ε (M.Value o), m x = ofExcept out →
        ∃ (o' : Up) (k' : Rep o' → Prog ε Up Rep α) (out : Except ε (M.Value o')) (r : Rep o')
          (rest : Journal Rep) (q' : Prog ε Up Rep α), Prog.op o k = .op o' k' ∧
          (M.method o').Runs (freely Ans) [] out (late ++ [⟨b, x⟩]) ∧
          M.report o' out = some r ∧ Settles M (k' r) rest q' ∧
          Underway M ((m x).attempt.bind f) q' [] := by
      intro out hm
      have hrun : (M.method o).Runs (freely Ans) [] out (late ++ [⟨b, x⟩]) := by
        apply hreach'.runs
        rw [hm]
        cases out with
        | ok a => exact .ret rfl
        | error e => exact .raise rfl
      obtain ⟨r, hr⟩ := hM o out _ hrun hok
      obtain ⟨rest, q', hsettles, hunderway⟩ := settles_of_carries hM (hcarries out r hr)
      refine ⟨o, k, out, r, rest, q', rfl, hrun, hr, hsettles, ?_⟩
      rw [hm]
      cases out with
      | ok a => exact hunderway
      | error e => exact hunderway
    dsimp only
    cases hm : m x with
    | ret a =>
      right
      rw [← hm]
      exact ends (.ok a) hm
    | raise e =>
      right
      rw [← hm]
      exact ends (.error e) hm
    | op b' m' =>
      left
      rw [hm] at hreach'
      exact .within hreach' hcarries

/-! ## The journals

What the lower level has recorded is cut into one piece for each method that has ended, and one for
the method that is under way. -/

/-- Methods that are over add their pieces. -/
theorem CarriedOut.settles {q q' : Prog ε Up Rep α} {rest : Journal Rep}
    (hsettles : Settles M q rest q') {log : Journal Ans} {log' : Journal Rep}
    (h : CarriedOut M log log') : CarriedOut M log (log' ++ rest) := by
  induction hsettles generalizing log' with
  | done q => rwa [List.append_nil]
  | @op o k out r rest q hmethod hreport _ ih =>
    have hrun : (M.method o).Runs (freely Ans) [] out [] := by
      rw [hmethod]
      cases out with
      | ok a => exact .ret rfl
      | error e => exact .raise rfl
    have hone := h.op hrun hreport
    rw [List.append_nil] at hone
    rw [List.append_cons]
    exact ih hone

end Prog

end Rave
