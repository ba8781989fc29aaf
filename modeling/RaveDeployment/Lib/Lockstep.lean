import RaveDeployment.Lib.Prog

/-!
# Two programs in lockstep

A `Pairing` says which operations two programs may issue at the same time, and how the answers they
get are then related. Two programs are in `Lockstep` when they issue paired operations one after the
other, whatever related answers they get, and end alike: with the same value or the same exception.

The rules follow the combinators of `Prog`. `lockstep_of_within` makes a program keep step with
itself where its operations may be paired with themselves.
-/

namespace Rave

universe u

/-- Which operations may be issued together, and how their answers are related. -/
abbrev Pairing (Op : Type u) (Ans : Op → Type) : Type u :=
  (o o' : Op) → (Ans o → Ans o' → Prop) → Prop

section

variable {α β γ δ : Type*} {R : α → β → Prop} {S : γ → δ → Prop} {x : Option α} {y : Option β}

theorem optionRel_cases (h : Option.Rel R x y) :
    (x = none ∧ y = none) ∨ ∃ a b, x = some a ∧ y = some b ∧ R a b := by
  cases h with
  | none => exact .inl ⟨rfl, rfl⟩
  | some h => exact .inr ⟨_, _, rfl, rfl, h⟩

/-- Related values are mapped to related ones. -/
theorem optionRel_map {f : α → γ} {g : β → δ} (h : Option.Rel R x y)
    (hfg : ∀ a b, R a b → S (f a) (g b)) : Option.Rel S (x.map f) (y.map g) := by
  cases h with
  | none => exact .none
  | some h => exact .some (hfg _ _ h)

/-- What goes on with related values goes on in a related way. -/
theorem optionRel_bind {f : α → Option γ} {g : β → Option δ} (h : Option.Rel R x y)
    (hfg : ∀ a b, R a b → Option.Rel S (f a) (g b)) : Option.Rel S (x.bind f) (y.bind g) := by
  cases h with
  | none => exact .none
  | some h => exact hfg _ _ h

end

namespace Prog

variable {ε : Type} {Op : Type u} {Ans : Op → Type} {α β : Type}

/-- The programs keep step with each other. -/
inductive Lockstep (P : Pairing Op Ans) : Prog ε Op Ans α → Prog ε Op Ans α → Prop where
  | ret (a : α) : Lockstep P (.ret a) (.ret a)
  | raise (e : ε) : Lockstep P (.raise e) (.raise e)
  | op {o o' : Op} {A : Ans o → Ans o' → Prop} {k : Ans o → Prog ε Op Ans α}
      {k' : Ans o' → Prog ε Op Ans α} (ho : P o o' A)
      (hk : ∀ r r', A r r' → Lockstep P (k r) (k' r')) : Lockstep P (.op o k) (.op o' k')

variable {P : Pairing Op Ans}

/-- An outcome needs no operation. -/
theorem lockstep_ofExcept (r : Except ε α) :
    Lockstep P (ofExcept r : Prog ε Op Ans α) (ofExcept r) := by
  cases r with
  | ok a => exact .ret a
  | error e => exact .raise e

/-- Sequences go in step where their parts do. -/
theorem lockstep_bind {p p' : Prog ε Op Ans α} {f f' : α → Prog ε Op Ans β}
    (hp : Lockstep P p p') (hf : ∀ a, Lockstep P (f a) (f' a)) :
    Lockstep P (p.bind f) (p'.bind f') := by
  induction hp with
  | ret a => exact hf a
  | raise e => exact .raise e
  | op ho _ ih => exact .op ho fun r r' hr => ih r r' hr

/-- Attempts go in step where the programs do. -/
theorem lockstep_attempt {p p' : Prog ε Op Ans α} (hp : Lockstep P p p') :
    Lockstep P p.attempt p'.attempt := by
  induction hp with
  | ret a => exact .ret _
  | raise e => exact .ret _
  | op ho _ ih => exact .op ho fun r r' hr => ih r r' hr

/-- Handlers go in step where the programs and the handlers do. -/
theorem lockstep_handle {p p' : Prog ε Op Ans α} {h h' : ε → Prog ε Op Ans α}
    (hp : Lockstep P p p') (hh : ∀ e, Lockstep P (h e) (h' e)) :
    Lockstep P (p.handle h) (p'.handle h') := by
  apply lockstep_bind (lockstep_attempt hp)
  intro r
  cases r with
  | ok a => exact .ret a
  | error e => exact hh e

theorem lockstep_finallyDo {p p' : Prog ε Op Ans α} {c c' : Prog ε Op Ans Unit}
    (hp : Lockstep P p p') (hc : Lockstep P c c') :
    Lockstep P (p.finallyDo c) (p'.finallyDo c') := by
  apply lockstep_bind (lockstep_attempt hp)
  intro r
  exact lockstep_bind hc fun _ => lockstep_ofExcept r

/-- A program whose operations may be paired with themselves keeps step with itself. -/
theorem lockstep_of_within {ok : Op → Prop} (hP : ∀ o, ok o → P o o Eq) {p : Prog ε Op Ans α}
    {Q : α → Prop} (hp : Within ok p Q) : Lockstep P p p := by
  induction p with
  | ret a => exact .ret a
  | raise e => exact .raise e
  | op o k ih =>
    obtain ⟨ho, hk⟩ := hp () trivial
    apply Lockstep.op (hP o ho)
    rintro r r' rfl
    exact ih r (hk r () trivial)

end Prog

end Rave
