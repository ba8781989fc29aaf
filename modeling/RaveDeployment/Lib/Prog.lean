import Mathlib.Logic.Basic
import Mathlib.Tactic.Common

/-!
# Interaction programs

A program that may raise an exception and that talks to its environment through operations
`o : Op`, each answered by a value of `Ans o`. The continuation after an operation is a Lean
function of the answer, so a program is the tree of everything it may go on to do.

* `Prog` is the tree, a monad with `throw`, `tryCatch` and a `finally`.
* `Env` says what the surroundings do: how an operation answers and changes the state
  (`exec`), what must hold when it is issued (`pre`), and how the state may drift while the
  program is between two operations (`later`; equality for a program that runs alone).
* `wp` is the weakest precondition, by recursion on the tree; `Runs` and `Reaches` are the
  operational counterparts (a complete run, a run stopped between two operations).

`wp_runs` connects the two sides.
-/

namespace Rave

universe u v

/-- A program over operations `Op`: it returns, raises, or issues an operation and goes on
with the answer. -/
inductive Prog (ε : Type) (Op : Type u) (Ans : Op → Type) (α : Type) : Type u where
  | ret (a : α)
  | raise (e : ε)
  | op (o : Op) (k : Ans o → Prog ε Op Ans α)

namespace Prog

variable {ε : Type} {Op : Type u} {Ans : Op → Type} {α β γ : Type}

/-- Sequencing: an exception of the first program skips the second. -/
def bind : Prog ε Op Ans α → (α → Prog ε Op Ans β) → Prog ε Op Ans β
  | .ret a, f => f a
  | .raise e, _ => .raise e
  | .op o k, f => .op o fun r => (k r).bind f

/-- Run a program and hand its outcome over as a value. -/
def attempt : Prog ε Op Ans α → Prog ε Op Ans (Except ε α)
  | .ret a => .ret (.ok a)
  | .raise e => .ret (.error e)
  | .op o k => .op o fun r => (k r).attempt

/-- Go on with an outcome as if it had just happened. -/
def ofExcept : Except ε α → Prog ε Op Ans α
  | .ok a => .ret a
  | .error e => .raise e

instance : Monad (Prog ε Op Ans) where
  pure := ret
  bind := bind

/-- `try p except e: h e`. -/
def handle (p : Prog ε Op Ans α) (h : ε → Prog ε Op Ans α) : Prog ε Op Ans α :=
  p.attempt.bind fun
    | .ok a => .ret a
    | .error e => h e

/-- `try: p finally: c`. -/
def finallyDo (p : Prog ε Op Ans α) (c : Prog ε Op Ans Unit) : Prog ε Op Ans α :=
  p.attempt.bind fun r => c.bind fun _ => ofExcept r

instance : MonadExceptOf ε (Prog ε Op Ans) where
  throw := raise
  tryCatch := handle

@[simp] theorem pure_eq (a : α) : (pure a : Prog ε Op Ans α) = .ret a := rfl

@[simp] theorem throw_eq (e : ε) : (throw e : Prog ε Op Ans α) = .raise e := rfl

@[simp] theorem bind_eq (p : Prog ε Op Ans α) (f : α → Prog ε Op Ans β) :
    p >>= f = p.bind f := rfl

@[simp] theorem tryCatch_eq (p : Prog ε Op Ans α) (h : ε → Prog ε Op Ans α) :
    tryCatch p h = p.handle h := rfl

@[simp] theorem map_eq (f : α → β) (p : Prog ε Op Ans α) :
    f <$> p = p.bind fun a => .ret (f a) := rfl

end Prog

/-! ## Environments

An environment says which operations may be asked for, how each is answered, and what may happen in
between. -/

/-- What surrounds a program with states `σ`. -/
structure Env (Op : Type u) (Ans : Op → Type) (σ : Type v) where
  /-- The state may change from the first to the second between two operations. -/
  later : σ → σ → Prop
  later_refl : ∀ s, later s s
  later_trans : ∀ {s t w}, later s t → later t w → later s w
  /-- What must hold of the state in which an operation is issued. -/
  pre : Op → σ → Prop
  /-- The operation, issued in the first state, may answer so and leave the second state. -/
  exec : (o : Op) → σ → Ans o → σ → Prop

def Env.sequential {Op : Type u} {Ans : Op → Type} {σ : Type v} (pre : Op → σ → Prop)
    (exec : (o : Op) → σ → Ans o → σ → Prop) : Env Op Ans σ where
  later := Eq
  later_refl := Eq.refl
  later_trans := Eq.trans
  pre := pre
  exec := exec

namespace Prog

variable {ε : Type} {Op : Type u} {Ans : Op → Type} {α β : Type} {σ : Type v}
  (E : Env Op Ans σ)

/-- The weakest precondition: from `s`, every operation is issued in a state that allows it,
a value is returned in a state satisfying `Q`, an exception raised in one satisfying `R`. -/
def wp : Prog ε Op Ans α → (α → σ → Prop) → (ε → σ → Prop) → σ → Prop
  | .ret a, Q, _, s => ∀ t, E.later s t → Q a t
  | .raise e, _, R, s => ∀ t, E.later s t → R e t
  | .op o k, Q, R, s =>
      ∀ t, E.later s t → E.pre o t ∧ ∀ r w, E.exec o t r w → (k r).wp Q R w

/-- A complete run: from `s` to the outcome and the state it is reached in. -/
inductive Runs : Prog ε Op Ans α → σ → Except ε α → σ → Prop where
  | ret {a : α} {s t : σ} (h : E.later s t) : Runs (.ret a) s (.ok a) t
  | raise {e : ε} {s t : σ} (h : E.later s t) : Runs (.raise e) s (.error e) t
  | op {o : Op} {k : Ans o → Prog ε Op Ans α} {s t w v : σ} {r : Ans o} {out : Except ε α}
      (h : E.later s t) (hx : E.exec o t r w) (rest : Runs (k r) w out v) :
      Runs (.op o k) s out v

/-- A run stopped between two operations: `p'` is what was left to do. -/
inductive Reaches : Prog ε Op Ans α → σ → Prog ε Op Ans α → σ → Prop where
  | refl {p : Prog ε Op Ans α} {s t : σ} (h : E.later s t) : Reaches p s p t
  | op {o : Op} {k : Ans o → Prog ε Op Ans α} {p' : Prog ε Op Ans α} {s t w v : σ} {r : Ans o}
      (h : E.later s t) (hx : E.exec o t r w) (rest : Reaches (k r) w p' v) :
      Reaches (.op o k) s p' v

variable {E}

/-- A stopped run goes on with a run of what was left. -/
theorem Reaches.runs {p p' : Prog ε Op Ans α} {s t v : σ} {out : Except ε α}
    (h : p.Reaches E s p' t) (rest : p'.Runs E t out v) : p.Runs E s out v := by
  induction h with
  | refl hl =>
    cases rest with
    | ret hl' => exact .ret (E.later_trans hl hl')
    | raise hl' => exact .raise (E.later_trans hl hl')
    | op hl' hx rest => exact .op (E.later_trans hl hl') hx rest
  | op hl hx _ ih => exact .op hl hx (ih rest)

/-- A run of a sequence from the runs of its parts. -/
theorem Runs.bind {p : Prog ε Op Ans α} {f : α → Prog ε Op Ans β} {a : α} {s t v : σ}
    {out : Except ε β} (h : p.Runs E s (.ok a) t) (rest : (f a).Runs E t out v) :
    (p.bind f).Runs E s out v := by
  generalize hok : Except.ok a = first at h
  induction h with
  | ret hl =>
    cases hok
    exact (Reaches.refl hl).runs rest
  | raise hl => exact absurd hok (by simp)
  | op hl hx _ ih => exact .op hl hx (ih rest hok)

/-! ## Rules of the weakest precondition

One rule for each way to build a program, and the consequence rule. -/

variable {Q Q' : α → σ → Prop} {R R' : ε → σ → Prop} {s t : σ}

/-- What the surroundings may do before a program does not matter. -/
theorem wp_later {p : Prog ε Op Ans α} (h : p.wp E Q R s) (hst : E.later s t) :
    p.wp E Q R t := by
  cases p with
  | ret a => exact fun w hw => h w (E.later_trans hst hw)
  | raise e => exact fun w hw => h w (E.later_trans hst hw)
  | op o k => exact fun w hw => h w (E.later_trans hst hw)

/-- The rule of consequence, for both ways to end. -/
theorem wp_mono {p : Prog ε Op Ans α} (h : p.wp E Q R s) (hQ : ∀ a t, Q a t → Q' a t)
    (hR : ∀ e t, R e t → R' e t) : p.wp E Q' R' s := by
  induction p generalizing s with
  | ret a => exact fun t ht => hQ _ _ (h t ht)
  | raise e => exact fun t ht => hR _ _ (h t ht)
  | op o k ih =>
    intro t ht
    obtain ⟨hpre, hk⟩ := h t ht
    exact ⟨hpre, fun r w hx => ih r (hk r w hx)⟩

/-- Sequencing: the second program starts in whatever state the first one returns in. -/
theorem wp_bind {p : Prog ε Op Ans α} {f : α → Prog ε Op Ans β} {Q : β → σ → Prop} :
    (p.bind f).wp E Q R s ↔ p.wp E (fun a t => (f a).wp E Q R t) R s := by
  induction p generalizing s with
  | ret a => exact ⟨fun h t ht => wp_later h ht, fun h => h s (E.later_refl s)⟩
  | raise e => exact Iff.rfl
  | op o k ih =>
    refine forall_congr' fun t => imp_congr Iff.rfl (and_congr Iff.rfl ?_)
    exact forall_congr' fun r => forall_congr' fun w => imp_congr Iff.rfl (ih r)

/-- An attempt returns either way. -/
theorem wp_attempt {p : Prog ε Op Ans α} {Q : Except ε α → σ → Prop} :
    p.attempt.wp E Q R s ↔ p.wp E (fun a => Q (.ok a)) (fun e => Q (.error e)) s := by
  induction p generalizing s with
  | ret a => exact Iff.rfl
  | raise e => exact Iff.rfl
  | op o k ih =>
    refine forall_congr' fun t => imp_congr Iff.rfl (and_congr Iff.rfl ?_)
    exact forall_congr' fun r => forall_congr' fun w => imp_congr Iff.rfl (ih r)

/-- `try p except e: h e`: the handler starts in the state the exception was raised in. -/
theorem wp_handle {p : Prog ε Op Ans α} {h : ε → Prog ε Op Ans α} :
    (p.handle h).wp E Q R s ↔
      p.wp E (fun a => (ret a : Prog ε Op Ans α).wp E Q R) (fun e => (h e).wp E Q R) s := by
  rw [handle, wp_bind, wp_attempt]

/-- `try: p finally: c`: the clean-up runs after either outcome, and its own exception wins. -/
theorem wp_finallyDo {p : Prog ε Op Ans α} {c : Prog ε Op Ans Unit} :
    (p.finallyDo c).wp E Q R s ↔
      p.wp E (fun a => c.wp E (fun _ => (ret a : Prog ε Op Ans α).wp E Q R) R)
        (fun e => c.wp E (fun _ => (raise e : Prog ε Op Ans α).wp E Q R) R) s := by
  rw [finallyDo, wp_bind, wp_attempt]
  simp only [wp_bind, ofExcept]

/-- Two facts about one program. -/
theorem wp_and {p : Prog ε Op Ans α} (h : p.wp E Q R s) (h' : p.wp E Q' R' s) :
    p.wp E (fun a t => Q a t ∧ Q' a t) (fun e t => R e t ∧ R' e t) s := by
  induction p generalizing s with
  | ret a => exact fun t ht => ⟨h t ht, h' t ht⟩
  | raise e => exact fun t ht => ⟨h t ht, h' t ht⟩
  | op o k ih =>
    intro t ht
    exact ⟨(h t ht).1, fun r w hx => ih r ((h t ht).2 r w hx) ((h' t ht).2 r w hx)⟩

/-! ## Programs that keep an assertion

An assertion that no operation breaks holds at the end of every run, and also at the end of one that
raises. -/

def Stable (E : Env Op Ans σ) (P : σ → Prop) : Prop :=
  ∀ s t, P s → E.later s t → P t

/-- Started where `P` holds, the program issues only what it may, and leaves `P` behind however it
ends. -/
def Keeps (E : Env Op Ans σ) (P : σ → Prop) (p : Prog ε Op Ans α) : Prop :=
  ∀ s, P s → p.wp E (fun _ => P) (fun _ => P) s

/-- Nothing happens in between where there is no one else. -/
theorem stable_sequential {pre : Op → σ → Prop} {exec : (o : Op) → σ → Ans o → σ → Prop}
    (P : σ → Prop) : Stable (Env.sequential pre exec) P := by
  rintro s t hs rfl
  exact hs

section

variable {P : σ → Prop} (hP : Stable E P)
include hP

theorem keeps_ret (a : α) : Keeps E P (ret a : Prog ε Op Ans α) :=
  fun s hs t ht => hP s t hs ht

theorem keeps_raise (e : ε) : Keeps E P (raise e : Prog ε Op Ans α) :=
  fun s hs t ht => hP s t hs ht

theorem keeps_ofExcept (r : Except ε α) : Keeps E P (ofExcept r : Prog ε Op Ans α) := by
  cases r with
  | ok a => exact keeps_ret hP a
  | error e => exact keeps_raise hP e

/-- An operation keeps what every answer keeps. -/
theorem keeps_op {o : Op} {k : Ans o → Prog ε Op Ans α} (hpre : ∀ s, P s → E.pre o s)
    (hexec : ∀ s r t, P s → E.exec o s r t → P t) (hk : ∀ r, Keeps E P (k r)) :
    Keeps E P (.op o k) := by
  intro s hs t ht
  have ht' := hP s t hs ht
  exact ⟨hpre t ht', fun r w hx => hk r w (hexec t r w ht' hx)⟩

/-- A handler keeps what the program and the handler keep. -/
theorem keeps_handle {p : Prog ε Op Ans α} {h : ε → Prog ε Op Ans α} (hp : Keeps E P p)
    (hh : ∀ e, Keeps E P (h e)) : Keeps E P (p.handle h) :=
  fun s hs => wp_handle.mpr (wp_mono (hp s hs) (fun a t ht => keeps_ret hP a t ht)
    fun e t ht => hh e t ht)

theorem keeps_finallyDo {p : Prog ε Op Ans α} {c : Prog ε Op Ans Unit} (hp : Keeps E P p)
    (hc : Keeps E P c) : Keeps E P (p.finallyDo c) :=
  fun s hs => wp_finallyDo.mpr (wp_mono (hp s hs)
    (fun a t ht => wp_mono (hc t ht) (fun _ w hw => keeps_ret hP a w hw) fun _ _ h => h)
    fun e t ht => wp_mono (hc t ht) (fun _ w hw => keeps_raise hP e w hw) fun _ _ h => h)

end

theorem keeps_bind {P : σ → Prop} {p : Prog ε Op Ans α} {f : α → Prog ε Op Ans β}
    (hp : Keeps E P p) (hf : ∀ a, Keeps E P (f a)) : Keeps E P (p.bind f) :=
  fun s hs => wp_bind.mpr (wp_mono (hp s hs) (fun a t ht => hf a t ht) fun _ _ h => h)

/-! ## Programs whose operations may answer anything

What a program returns can be bounded by the operations it asks for alone. No assertion about the
state is needed then. -/

/-- Surroundings without a state, in which an operation may be issued when it satisfies `ok` and is
answered by anything. -/
def anyAnswer (Ans : Op → Type) (ok : Op → Prop) : Env Op Ans Unit where
  later _ _ := True
  later_refl _ := trivial
  later_trans _ _ := trivial
  pre o _ := ok o
  exec _ _ _ _ := True

/-- Whatever the answers, every operation issued satisfies `ok` and a value returned satisfies
`Q`. -/
def Within (ok : Op → Prop) (p : Prog ε Op Ans α) (Q : α → Prop) : Prop :=
  p.wp (anyAnswer Ans ok) (fun a _ => Q a) (fun _ _ => True) ()

section

variable {ok : Op → Prop} {Q Q' : α → Prop}

theorem within_ret {a : α} (h : Q a) : Within ok (ret a : Prog ε Op Ans α) Q :=
  fun _ _ => h

/-- An exception asks for nothing, and returns nothing. -/
theorem within_raise (e : ε) : Within ok (raise e : Prog ε Op Ans α) Q :=
  fun _ _ => trivial

/-- An operation that is allowed, whatever it answers. -/
theorem within_op {o : Op} {k : Ans o → Prog ε Op Ans α} (ho : ok o)
    (hk : ∀ r, Within ok (k r) Q) : Within ok (.op o k) Q :=
  fun _ _ => ⟨ho, fun r _ _ => hk r⟩

/-- An outcome asks for nothing and returns its value. -/
theorem within_ofExcept {r : Except ε α} (h : ∀ a, r = .ok a → Q a) :
    Within ok (ofExcept r : Prog ε Op Ans α) Q := by
  cases r with
  | ok a => exact within_ret (h a rfl)
  | error e => exact within_raise e

/-- Where nothing is asked of the operations and the value, there is nothing to show. -/
theorem within_true (p : Prog ε Op Ans α) : Within (fun _ => True) p fun _ => True := by
  induction p with
  | ret a => exact within_ret trivial
  | raise e => exact within_raise e
  | op o k ih => exact within_op trivial ih

theorem Within.mono {p : Prog ε Op Ans α} (h : Within ok p Q) (hQ : ∀ a, Q a → Q' a) :
    Within ok p Q' :=
  wp_mono h (fun a _ ha => hQ a ha) fun _ _ h => h

/-- The second part may use what is known of the first one's value. -/
theorem within_bind {p : Prog ε Op Ans α} {f : α → Prog ε Op Ans β} {Q : α → Prop} {Q' : β → Prop}
    (hp : Within ok p Q) (hf : ∀ a, Q a → Within ok (f a) Q') : Within ok (p.bind f) Q' :=
  wp_bind.mpr (wp_mono hp (fun a _ ha => hf a ha) fun _ _ h => h)

/-- An attempt asks for what the program does. -/
theorem within_attempt {p : Prog ε Op Ans α} (hp : Within ok p Q) :
    Within ok p.attempt fun r => ∀ a, r = .ok a → Q a :=
  wp_attempt.mpr (wp_mono hp (fun _ _ ha _ heq => Except.ok.inj heq ▸ ha)
    fun _ _ _ _ heq => absurd heq (by simp))

/-- A handler returns what the program or the handler does. -/
theorem within_handle {p : Prog ε Op Ans α} {h : ε → Prog ε Op Ans α} (hp : Within ok p Q)
    (hh : ∀ e, Within ok (h e) Q) : Within ok (p.handle h) Q :=
  wp_handle.mpr (wp_mono hp (fun _ _ ha => within_ret ha) fun e _ _ => hh e)

/-- A clean-up does not change what is returned. -/
theorem within_finallyDo {p : Prog ε Op Ans α} {c : Prog ε Op Ans Unit} (hp : Within ok p Q)
    (hc : Within ok c fun _ => True) : Within ok (p.finallyDo c) Q :=
  wp_finallyDo.mpr (wp_mono hp
    (fun _ _ ha => wp_mono hc (fun _ _ _ => within_ret ha) fun _ _ h => h)
    fun e _ _ => wp_mono hc (fun _ _ _ => within_raise e) fun _ _ h => h)

/-- What holds whatever the answers holds in any surroundings. -/
theorem Within.wp {p : Prog ε Op Ans α} (h : Within ok p Q) (hpre : ∀ o s, ok o → E.pre o s)
    (s : σ) : p.wp E (fun a _ => Q a) (fun _ _ => True) s := by
  induction p generalizing s with
  | ret a => exact fun _ _ => h () trivial
  | raise e => exact fun _ _ => trivial
  | op o k ih =>
    intro t _
    obtain ⟨ho, hk⟩ := h () trivial
    exact ⟨hpre o t ho, fun r w _ => ih r (hk r () trivial) w⟩

/-- A program that asks only some operations asks only these and more. -/
theorem Within.weaken {ok' : Op → Prop} {p : Prog ε Op Ans α} (hp : Within ok p Q)
    (h : ∀ o, ok o → ok' o) : Within ok' p Q :=
  hp.wp (E := anyAnswer Ans ok') (fun o _ ho => h o ho) ()

/-- An assertion that every operation keeps survives the program. -/
theorem Within.keeps {P : σ → Prop} (hP : Stable E P) {p : Prog ε Op Ans α} (h : Within ok p Q)
    (hpre : ∀ o s, ok o → P s → E.pre o s)
    (hexec : ∀ o s r t, ok o → P s → E.exec o s r t → P t) : Keeps E P p := by
  induction p with
  | ret a => exact keeps_ret hP a
  | raise e => exact keeps_raise hP e
  | op o k ih =>
    obtain ⟨ho, hk⟩ := h () trivial
    exact keeps_op hP (fun s hs => hpre o s ho hs) (fun s r t hs hx => hexec o s r t ho hs hx)
      fun r => ih r (hk r () trivial)

end

/-! ## Soundness

A weakest precondition is about runs: every run ends in the postcondition, and there is a run where
the environment answers. -/

/-- What a complete run ends in. -/
theorem wp_runs {p : Prog ε Op Ans α} {out : Except ε α} (h : p.wp E Q R s)
    (hr : p.Runs E s out t) : (∀ a, out = .ok a → Q a t) ∧ ∀ e, out = .error e → R e t := by
  induction hr with
  | ret hl =>
    refine ⟨?_, by simp⟩
    rintro a ⟨⟩
    exact h _ hl
  | raise hl =>
    refine ⟨by simp, ?_⟩
    rintro e ⟨⟩
    exact h _ hl
  | op hl hx _ ih => exact ih ((h _ hl).2 _ _ hx)

/-- Where every operation that may be issued is answered, a program comes to an end. -/
theorem wp_exists_runs (hlive : ∀ o s, E.pre o s → ∃ r t, E.exec o s r t) {p : Prog ε Op Ans α}
    (h : p.wp E Q R s) : ∃ out t, p.Runs E s out t := by
  induction p generalizing s with
  | ret a => exact ⟨_, s, .ret (E.later_refl s)⟩
  | raise e => exact ⟨_, s, .raise (E.later_refl s)⟩
  | op o k ih =>
    obtain ⟨hpre, hk⟩ := h s (E.later_refl s)
    obtain ⟨r, t, hx⟩ := hlive o s hpre
    obtain ⟨out, w, hrun⟩ := ih r (hk r t hx)
    exact ⟨out, w, .op (E.later_refl s) hx hrun⟩

/-! ## Where a run is stopped

The rest of the program is the state of a run that has not ended. A killed process is such a rest.
-/

/-- A run of a sequence is stopped in its first part, or after a complete run of it. -/
theorem reaches_bind {p : Prog ε Op Ans α} {f : α → Prog ε Op Ans β} {q : Prog ε Op Ans β}
    (h : (p.bind f).Reaches E s q t) :
    (∃ p', p.Reaches E s p' t ∧ q = p'.bind f) ∨
      ∃ a w, p.Runs E s (.ok a) w ∧ (f a).Reaches E w q t := by
  induction p generalizing s with
  | ret a =>
    right
    exact ⟨a, s, .ret (E.later_refl s), h⟩
  | raise e =>
    left
    cases h with
    | refl hl => exact ⟨.raise e, .refl hl, rfl⟩
  | op o k ih =>
    cases h with
    | refl hl => exact Or.inl ⟨.op o k, .refl hl, rfl⟩
    | op hl hx rest =>
      rcases ih _ rest with ⟨p', hp, hq⟩ | ⟨a, w, hrun, hrest⟩
      · exact Or.inl ⟨p', .op hl hx hp, hq⟩
      · exact Or.inr ⟨a, w, .op hl hx hrun, hrest⟩

/-- An assertion that every operation keeps holds wherever the program is stopped. -/
theorem Within.reaches {ok : Op → Prop} {P : σ → Prop} (hP : Stable E P) {p p' : Prog ε Op Ans α}
    {Q : α → Prop} (h : Within ok p Q)
    (hexec : ∀ o s r t, ok o → P s → E.exec o s r t → P t) (hr : p.Reaches E s p' t)
    (hs : P s) : P t := by
  induction hr with
  | refl hl => exact hP _ _ hs hl
  | op hl hx _ ih =>
    obtain ⟨ho, hk⟩ := h () trivial
    exact ih (hk _ () trivial) (hexec _ _ _ _ ho (hP _ _ hs hl) hx)

/-- The same for a complete run, with what is known of its value. -/
theorem Within.runs {ok : Op → Prop} {P : σ → Prop} (hP : Stable E P) {p : Prog ε Op Ans α}
    {Q : α → Prop} {a : α} (h : Within ok p Q)
    (hexec : ∀ o s r t, ok o → P s → E.exec o s r t → P t) (hr : p.Runs E s (.ok a) t)
    (hs : P s) : P t ∧ Q a := by
  generalize hout : Except.ok a = out at hr
  induction hr with
  | ret hl =>
    cases hout
    exact ⟨hP _ _ hs hl, h () trivial⟩
  | raise hl => exact absurd hout (by simp)
  | op hl hx _ ih =>
    obtain ⟨ho, hk⟩ := h () trivial
    exact ih (hk _ () trivial) (hexec _ _ _ _ ho (hP _ _ hs hl) hx) hout

/-- The run in which a list decides the operations, up to its end. -/
def follow {χ : Type} (exec : χ → (o : Op) → σ → Ans o × σ) :
    List χ → Prog ε Op Ans α → σ → Prog ε Op Ans α × σ
  | c :: cs, .op o k, s => follow exec cs (k (exec c o s).1) (exec c o s).2
  | _, p, s => (p, s)

/-- Following a list of answers is a run of the environment, as far as the list goes. -/
theorem reaches_follow {χ : Type} {exec : χ → (o : Op) → σ → Ans o × σ}
    (hexec : ∀ c o s, E.exec o s (exec c o s).1 (exec c o s).2) (cs : List χ)
    (p : Prog ε Op Ans α) (s : σ) :
    p.Reaches E s (follow exec cs p s).1 (follow exec cs p s).2 := by
  induction cs generalizing p s with
  | nil => exact .refl (E.later_refl s)
  | cons c cs ih =>
    cases p with
    | ret a => exact .refl (E.later_refl s)
    | raise e => exact .refl (E.later_refl s)
    | op o k => exact .op (E.later_refl s) (hexec c o s) (ih _ _)

def returned : Prog ε Op Ans α → Option α
  | .ret a => some a
  | _ => none

/-- If it returns, it is a run to the end. -/
theorem runs_follow {χ : Type} {exec : χ → (o : Op) → σ → Ans o × σ}
    (hexec : ∀ c o s, E.exec o s (exec c o s).1 (exec c o s).2) {cs : List χ}
    {p : Prog ε Op Ans α} {a : α} (h : (follow exec cs p s).1.returned = some a) :
    p.Runs E s (.ok a) (follow exec cs p s).2 := by
  have hreaches := reaches_follow hexec cs p s
  apply hreaches.runs
  cases hleft : (follow exec cs p s).1 with
  | ret b =>
    rw [hleft] at h
    rw [← Option.some.inj h]
    exact .ret (E.later_refl _)
  | raise e =>
    rw [hleft] at h
    exact absurd h (by simp [returned])
  | op o k =>
    rw [hleft] at h
    exact absurd h (by simp [returned])

/-- The complete run in which a list decides the operations, where the list is long enough and the
surroundings do what it asks for. -/
def execute {χ : Type} (exec : χ → (o : Op) → σ → Option (Ans o × σ)) :
    List χ → Prog ε Op Ans α → σ → Option (Except ε α × σ)
  | _, .ret a, s => some (.ok a, s)
  | _, .raise e, s => some (.error e, s)
  | [], .op _ _, _ => none
  | c :: cs, .op o k, s => (exec c o s).bind fun x => execute exec cs (k x.1) x.2

/-- Executing with answers that may be missing is a run to the end, if none was. -/
theorem runs_execute {χ : Type} {exec : χ → (o : Op) → σ → Option (Ans o × σ)}
    (hexec : ∀ c o s r t, exec c o s = some (r, t) → E.exec o s r t) {cs : List χ}
    {p : Prog ε Op Ans α} {out : Except ε α} (h : execute exec cs p s = some (out, t)) :
    p.Runs E s out t := by
  induction cs generalizing p s with
  | nil =>
    cases p with
    | ret a =>
      obtain ⟨rfl, rfl⟩ := Prod.mk.inj (Option.some.inj h)
      exact .ret (E.later_refl s)
    | raise e =>
      obtain ⟨rfl, rfl⟩ := Prod.mk.inj (Option.some.inj h)
      exact .raise (E.later_refl s)
    | op o k => cases h
  | cons c cs ih =>
    cases p with
    | ret a =>
      obtain ⟨rfl, rfl⟩ := Prod.mk.inj (Option.some.inj h)
      exact .ret (E.later_refl s)
    | raise e =>
      obtain ⟨rfl, rfl⟩ := Prod.mk.inj (Option.some.inj h)
      exact .raise (E.later_refl s)
    | op o k =>
      obtain ⟨x, hx, hrest⟩ := Option.bind_eq_some_iff.mp h
      exact .op (E.later_refl s) (hexec c o s x.1 x.2 hx) (ih hrest)

end Prog

end Rave
