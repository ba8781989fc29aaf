import RaveDeployment.Lib.Prog
import RaveDeployment.Lib.System
import Mathlib.Logic.Function.Basic

/-!
# Programs that run in parallel

Any number of processes over one shared state, each serving a call with a program. A step is one
operation of one process, answered as the surroundings choose, the start of a process, or its end:
a process may end between any two operations.

Rely and guarantee: each process is verified alone, in surroundings that drift as the others may
make them (`Contract.env`); `Sound` says that what a contract lets one process do is what it lets
the others expect. `safe_step` composes them.
-/

namespace Rave

namespace Parallel

/-- What processes `ι` share: how an operation works, given a choice of the surroundings, and what
becomes of the state when a process ends. -/
structure Machine (ι Op : Type) (Ans : Op → Type) (Choice σ : Type) where
  exec : ι → (o : Op) → Choice → σ → Option (Ans o × σ)
  leave : ι → σ → σ

/-- The shared state, and for each process the call it serves with what is left to do. -/
structure Config (ι κ ε Op : Type) (Ans : Op → Type) (α σ : Type) where
  state : σ
  procs : ι → Option (κ × Prog ε Op Ans α)

inductive Event (ι κ Choice : Type) where
  | start (i : ι) (call : κ)
  | op (i : ι) (choice : Choice)
  | leave (i : ι)

variable {ι κ ε Op : Type} {Ans : Op → Type} {α Choice σ : Type} [DecidableEq ι]

def system (S : Machine ι Op Ans Choice σ) (serve : κ → Prog ε Op Ans α) (init : σ) :
    System (Config ι κ ε Op Ans α σ) (Event ι κ Choice) where
  init := ⟨init, fun _ => none⟩
  step
    | .start i call, c =>
      match c.procs i with
      | none => some { c with procs := Function.update c.procs i (some (call, serve call)) }
      | some _ => none
    | .op i choice, c =>
      match c.procs i with
      | some (call, .op o k) =>
        (S.exec i o choice c.state).map fun (r, s) =>
          { state := s, procs := Function.update c.procs i (some (call, k r)) }
      | _ => none
    | .leave i, c =>
      match c.procs i with
      | none => none
      | some _ => some { state := S.leave i c.state, procs := Function.update c.procs i none }

/-- What a process may expect of the others, and what it may do itself while it serves a call.
`idle` holds of a process that is not running. -/
structure Contract (ι κ Op σ : Type) where
  rely : ι → σ → σ → Prop
  rely_refl : ∀ i s, rely i s s
  rely_trans : ∀ {i s t w}, rely i s t → rely i t w → rely i s w
  pre : κ → ι → Op → σ → Prop
  idle : ι → σ → Prop

def Contract.env (C : Contract ι κ Op σ) (S : Machine ι Op Ans Choice σ) (call : κ) (i : ι) :
    Env Op Ans σ where
  later := C.rely i
  later_refl := C.rely_refl i
  later_trans := C.rely_trans
  pre := C.pre call i
  exec o s r t := ∃ choice, S.exec i o choice s = some (r, t)

/-- What one process does is what the others rely on. -/
structure Contract.Sound (C : Contract ι κ Op σ) (S : Machine ι Op Ans Choice σ) : Prop where
  op : ∀ {call i j o choice s r t}, i ≠ j → C.pre call j o s →
    S.exec j o choice s = some (r, t) → C.rely i s t
  leave : ∀ {i j s}, i ≠ j → C.rely i s (S.leave j s)
  idle_rely : ∀ {i s t}, C.idle i s → C.rely i s t → C.idle i t
  idle_leave : ∀ i s, C.idle i (S.leave i s)

/-- Every process is verified for what is left of it. -/
def Safe (C : Contract ι κ Op σ) (S : Machine ι Op Ans Choice σ)
    (c : Config ι κ ε Op Ans α σ) : Prop :=
  ∀ i, match c.procs i with
    | none => C.idle i c.state
    | some (call, p) => p.wp (C.env S call i) (fun _ _ => True) (fun _ _ => True) c.state

section

variable {C : Contract ι κ Op σ} {S : Machine ι Op Ans Choice σ} {serve : κ → Prog ε Op Ans α}
  {init : σ} {c w : Config ι κ ε Op Ans α σ}

omit [DecidableEq ι] in
/-- A process that the step is not about is carried along by what it relies on. -/
theorem Safe.other (hsound : C.Sound S) (h : Safe C S c) {i : ι} {s : σ}
    (hprocs : w.procs i = c.procs i) (hstate : w.state = s) (hrely : C.rely i c.state s) :
    match w.procs i with
    | none => C.idle i w.state
    | some (call, p) => p.wp (C.env S call i) (fun _ _ => True) (fun _ _ => True) w.state := by
  have hi := h i
  rw [hprocs, hstate]
  cases hp : c.procs i with
  | none =>
    rw [hp] at hi
    exact hsound.idle_rely hi hrely
  | some entry =>
    rw [hp] at hi
    exact Prog.wp_later hi hrely

omit [DecidableEq ι] in
/-- The operation a process issues is one its contract allows in that state. -/
theorem Safe.pre (h : Safe C S c) {i : ι} {call : κ} {o : Op} {k : Ans o → Prog ε Op Ans α}
    (hp : c.procs i = some (call, .op o k)) : C.pre call i o c.state := by
  have hi := h i
  rw [hp] at hi
  exact (hi c.state (C.rely_refl i c.state)).1

theorem safe_step (hsound : C.Sound S)
    (hserve : ∀ i call s, C.idle i s →
      (serve call).wp (C.env S call i) (fun _ _ => True) (fun _ _ => True) s)
    (h : Safe C S c) {e : Event ι κ Choice} (hs : (system S serve init).step e c = some w) :
    Safe C S w := by
  intro j
  cases e with
  | start i call =>
    simp only [system] at hs
    split at hs
    · next hnone =>
      rw [← Option.some.inj hs]
      by_cases hij : j = i
      · subst hij
        have hidle := h j
        rw [hnone] at hidle
        simp only [Function.update_self]
        exact hserve j call c.state hidle
      · exact h.other hsound (Function.update_of_ne hij _ _) rfl (C.rely_refl j c.state)
    · exact absurd hs (by simp)
  | op i choice =>
    simp only [system] at hs
    split at hs
    · next call o k hp =>
      obtain ⟨⟨r, t⟩, hexec, hw⟩ := Option.map_eq_some_iff.mp hs
      rw [← hw]
      -- the process that moves keeps its contract, the others rely on it
      by_cases hij : j = i
      · subst hij
        have hj := h j
        rw [hp] at hj
        simp only [Function.update_self]
        exact (hj c.state (C.rely_refl j c.state)).2 r t ⟨choice, hexec⟩
      · exact h.other hsound (Function.update_of_ne hij _ _) rfl (hsound.op hij (h.pre hp) hexec)
    · exact absurd hs (by simp)
  | leave i =>
    simp only [system] at hs
    split at hs
    · exact absurd hs (by simp)
    · rw [← Option.some.inj hs]
      by_cases hij : j = i
      · subst hij
        simp only [Function.update_self]
        exact hsound.idle_leave j c.state
      · exact h.other hsound (Function.update_of_ne hij _ _) rfl (hsound.leave hij)

/-- A step leaves the state as it is, is an operation that its process may issue, or is the end of
a process. -/
theorem Safe.step_cases (h : Safe C S c) {e : Event ι κ Choice}
    (hs : (system S serve init).step e c = some w) :
    w.state = c.state ∨
    (∃ i call o choice r k, e = .op i choice ∧ c.procs i = some (call, .op o k)
      ∧ C.pre call i o c.state ∧ S.exec i o choice c.state = some (r, w.state)) ∨
    ∃ i, e = .leave i ∧ w.state = S.leave i c.state := by
  cases e with
  | start i call =>
    left
    simp only [system] at hs
    split at hs
    · rw [← Option.some.inj hs]
    · exact absurd hs (by simp)
  | op i choice =>
    right
    left
    simp only [system] at hs
    split at hs
    · next call o k hp =>
      obtain ⟨⟨r, t⟩, hexec, hw⟩ := Option.map_eq_some_iff.mp hs
      rw [← hw]
      exact ⟨i, call, o, choice, r, k, rfl, hp, h.pre hp, hexec⟩
    · exact absurd hs (by simp)
  | leave i =>
    right
    right
    simp only [system] at hs
    -- a process leaves only where it is in a call
    split at hs
    · exact absurd hs (by simp)
    · rw [← Option.some.inj hs]
      exact ⟨i, rfl, rfl⟩

end

/-- What a program does alone, one process of the system may do while the others stand still. -/
theorem run_of_runs {S : Machine ι Op Ans Choice σ} {serve : κ → Prog ε Op Ans α} {init s t : σ}
    {pre : Op → σ → Prop} {ok : Op → Choice → Prop} {i : ι} {call : κ} {p : Prog ε Op Ans α}
    {out : Except ε α}
    (h : p.Runs (Env.sequential pre fun o s r t => ∃ choice, ok o choice ∧
      S.exec i o choice s = some (r, t)) s out t)
    (procs : ι → Option (κ × Prog ε Op Ans α)) :
    ∃ as, (system S serve init).Run (fun _ _ => True)
      ⟨s, Function.update procs i (some (call, p))⟩ as
      ⟨t, Function.update procs i (some (call, Prog.ofExcept out))⟩ := by
  induction h with
  | ret hl =>
    cases hl
    exact ⟨[], .refl⟩
  | raise hl =>
    cases hl
    exact ⟨[], .refl⟩
  | op hl hx _ ih =>
    cases hl
    obtain ⟨choice, -, hexec⟩ := hx
    obtain ⟨as, hrest⟩ := ih
    refine ⟨[.op i choice] ++ as, System.Run.trans (.step .refl trivial ?_) hrest⟩
    simp only [system, Function.update_self, hexec, Option.map_some, Function.update_idem]

end Parallel

end Rave
