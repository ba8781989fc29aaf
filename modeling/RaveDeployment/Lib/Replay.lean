import RaveDeployment.Lib.Prog

/-!
# Runs with their answers

A complete run of a program that runs alone, with the list of what decided each operation and the
list of the operations. The answers fix the run, so that a second run can be given the answers of
a first one, in another order and from another state.

* `answered_bind` takes the run of a sequence apart, `Answered.bind` puts it together, and so on
  for the other combinators.
* `Answered.replay`: a program that only looks returns the same on the same answers, from any state.
* `Asks` counts the answers of a run that returns.
* `runs_iff_answered` relates them to the runs of an environment.
* `outcome`: what a program that only looks comes to.
-/

namespace Rave

namespace Prog

universe u v

variable {ε : Type} {Op : Type u} {Ans : Op → Type} {σ : Type v} {χ α β γ : Type}

theorem ret_bind (a : α) (f : α → Prog ε Op Ans β) : (ret a).bind f = f a := rfl

/-- Sequences can be put together in either way. -/
theorem bind_assoc (p : Prog ε Op Ans α) (f : α → Prog ε Op Ans β) (g : β → Prog ε Op Ans γ) :
    (p.bind f).bind g = p.bind fun a => (f a).bind g := by
  induction p with
  | ret a => rfl
  | raise e => rfl
  | op o k ih =>
    show Prog.op o (fun r => ((k r).bind f).bind g) = .op o fun r => (k r).bind fun a => (f a).bind g
    simp only [ih]

section

variable (exec : χ → (o : Op) → σ → Ans o × σ)

/-- Answered by `cs`, one after the other, the program asks `ops` and returns. -/
inductive Answered : Prog ε Op Ans α → σ → List χ → List Op → α → σ → Prop where
  | ret (a : α) (s : σ) : Answered (.ret a) s [] [] a s
  | op {o : Op} {k : Ans o → Prog ε Op Ans α} {s t : σ} {c : χ} {cs : List χ} {ops : List Op} {a : α}
      (rest : Answered (k (exec c o s).1) (exec c o s).2 cs ops a t) :
      Answered (.op o k) s (c :: cs) (o :: ops) a t

end

variable {exec : χ → (o : Op) → σ → Ans o × σ} {s t w : σ} {cs ds : List χ} {ops more : List Op}

/-- The answers of a sequence are those of its parts, one after another. -/
theorem Answered.bind {p : Prog ε Op Ans α} {f : α → Prog ε Op Ans β} {a : α} {b : β}
    (hp : p.Answered exec s cs ops a w) (hf : (f a).Answered exec w ds more b t) :
    (p.bind f).Answered exec s (cs ++ ds) (ops ++ more) b t := by
  induction hp with
  | ret => exact hf
  | op _ ih => exact .op (ih hf)

/-- The run of a sequence is a run of its first part and then one of its second. -/
theorem answered_bind {p : Prog ε Op Ans α} {f : α → Prog ε Op Ans β} {b : β}
    (h : (p.bind f).Answered exec s cs ops b t) :
    ∃ a w cs₁ cs₂ ops₁ ops₂, cs = cs₁ ++ cs₂ ∧ ops = ops₁ ++ ops₂ ∧
      p.Answered exec s cs₁ ops₁ a w ∧ (f a).Answered exec w cs₂ ops₂ b t := by
  induction p generalizing s cs ops with
  | ret a => exact ⟨a, s, [], cs, [], ops, rfl, rfl, .ret a s, h⟩
  | raise e => cases h
  | op o k ih =>
    cases h with
    | op rest =>
      obtain ⟨a, w, cs₁, cs₂, ops₁, ops₂, hcs, hops, hp, hf⟩ := ih _ rest
      refine ⟨a, w, _ :: cs₁, cs₂, o :: ops₁, ops₂, ?_, ?_, .op hp, hf⟩
      · rw [hcs, List.cons_append]
      · rw [hops, List.cons_append]

theorem answered_ret {a b : α} (h : (ret a : Prog ε Op Ans α).Answered exec s cs ops b t) :
    cs = [] ∧ ops = [] ∧ a = b ∧ s = t := by
  cases h
  exact ⟨rfl, rfl, rfl, rfl⟩

/-- What a program asks and returns, where that is known whatever the answers. -/
theorem Answered.within {ok : Op → Prop} {Q : α → Prop} {p : Prog ε Op Ans α} {a : α}
    (hp : Within ok p Q) (h : p.Answered exec s cs ops a t) : Q a ∧ ∀ o ∈ ops, ok o := by
  induction h with
  | ret a s => exact ⟨hp () trivial, List.forall_mem_nil _⟩
  | op _ ih =>
    obtain ⟨ho, hk⟩ := hp () trivial
    have hrest := ih (hk _ () trivial)
    exact ⟨hrest.1, List.forall_mem_cons.mpr ⟨ho, hrest.2⟩⟩

/-- Where the operations answer the same in every state and change none, a program returns the same
on the same answers. -/
theorem Answered.replay {ok : Op → Prop} {p : Prog ε Op Ans α} {a : α}
    (hkeeps : ∀ c o s, ok o → (exec c o s).2 = s)
    (hblind : ∀ c o s s', ok o → (exec c o s).1 = (exec c o s').1)
    (h : p.Answered exec s cs ops a t) (hops : ∀ o ∈ ops, ok o) :
    t = s ∧ ∀ s', p.Answered exec s' cs ops a s' := by
  induction h with
  | ret a s => exact ⟨rfl, fun s' => .ret a s'⟩
  | @op o k s t c cs ops a rest ih =>
    have ho : ok o := hops o List.mem_cons_self
    obtain ⟨ht, hagain⟩ := ih fun o' ho' => hops o' (List.mem_cons_of_mem _ ho')
    refine ⟨ht.trans (hkeeps c o s ho), fun s' => .op ?_⟩
    rw [hkeeps c o s' ho, hblind c o s' s ho]
    exact hagain s'

/-! ## Outcomes

What an outcome or an attempt was answered with is what the program was. -/

/-- An attempt that returns a value has been answered as the program. -/
theorem answered_attempt {p : Prog ε Op Ans α} {a : α}
    (h : p.attempt.Answered exec s cs ops (.ok a) t) : p.Answered exec s cs ops a t := by
  induction p generalizing s cs ops with
  | ret b =>
    cases h
    exact .ret _ _
  | raise e => cases h
  | op o k ih =>
    cases h with
    | op rest => exact .op (ih _ rest)

/-- An outcome takes no answer. -/
theorem answered_ofExcept {r : Except ε α} {a : α}
    (h : (ofExcept r : Prog ε Op Ans α).Answered exec s cs ops a t) :
    r = .ok a ∧ cs = [] ∧ ops = [] ∧ s = t := by
  cases r with
  | error e => cases h
  | ok b =>
    cases h
    exact ⟨rfl, rfl, rfl, rfl⟩

/-- A run that returns from `try: p finally: c` is a run of `p` and then one of `c`. -/
theorem answered_finallyDo {p : Prog ε Op Ans α} {c : Prog ε Op Ans Unit} {a : α}
    (h : (p.finallyDo c).Answered exec s cs ops a t) :
    ∃ w cs₁ cs₂ ops₁ ops₂, cs = cs₁ ++ cs₂ ∧ ops = ops₁ ++ ops₂ ∧
      p.Answered exec s cs₁ ops₁ a w ∧ c.Answered exec w cs₂ ops₂ () t := by
  obtain ⟨r, w, cs₁, rest, ops₁, asked, rfl, rfl, hp, hrest⟩ := answered_bind h
  obtain ⟨_, v, cs₂, none, ops₂, unasked, rfl, rfl, hc, hr⟩ := answered_bind hrest
  obtain ⟨rfl, rfl, rfl, rfl⟩ := answered_ofExcept hr
  exact ⟨w, cs₁, cs₂, ops₁, ops₂, by simp, by simp, answered_attempt hp, hc⟩

/-! ## The number of answers

How many answers a program needs at most. A list that is long enough decides the run. -/

/-- A run of the program that returns takes `n` answers. -/
def Asks (exec : χ → (o : Op) → σ → Ans o × σ) (p : Prog ε Op Ans α) (n : Nat) : Prop :=
  ∀ s cs ops a t, p.Answered exec s cs ops a t → cs.length = n

theorem asks_ret (a : α) : Asks exec (ret a : Prog ε Op Ans α) 0 := by
  intro s cs ops b t h
  rw [(answered_ret h).1]
  rfl

/-- An exception needs none, and any number bounds that. -/
theorem asks_raise (e : ε) (n : Nat) : Asks exec (raise e : Prog ε Op Ans α) n := by
  intro s cs ops b t h
  cases h

/-- An operation needs one and what follows it. -/
theorem asks_op {o : Op} {k : Ans o → Prog ε Op Ans α} {n : Nat} (h : ∀ r, Asks exec (k r) n) :
    Asks exec (.op o k) (n + 1) := by
  intro s cs ops a t hrun
  cases hrun with
  | op rest => rw [List.length_cons, h _ _ _ _ _ _ rest]

/-- A sequence needs what its parts do. -/
theorem asks_bind {p : Prog ε Op Ans α} {f : α → Prog ε Op Ans β} {m n : Nat}
    (hp : Asks exec p m) (hf : ∀ a, Asks exec (f a) n) : Asks exec (p.bind f) (m + n) := by
  intro s cs ops b t h
  obtain ⟨a, w, cs₁, cs₂, ops₁, ops₂, rfl, -, h₁, h₂⟩ := answered_bind h
  rw [List.length_append, hp _ _ _ _ _ h₁, hf a _ _ _ _ _ h₂]

theorem asks_finallyDo {p : Prog ε Op Ans α} {c : Prog ε Op Ans Unit} {m n : Nat}
    (hp : Asks exec p m) (hc : Asks exec c n) : Asks exec (p.finallyDo c) (m + n) := by
  intro s cs ops a t h
  obtain ⟨w, cs₁, cs₂, ops₁, ops₂, rfl, -, h₁, h₂⟩ := answered_finallyDo h
  rw [List.length_append, hp _ _ _ _ _ h₁, hc _ _ _ _ _ h₂]

/-! ## Runs of an environment

Being answered by a list of answers is one run of the environment that gives them. -/

/-- Such a list is a run to the end. -/
theorem Answered.runs {E : Env Op Ans σ} (hexec : ∀ c o s, E.exec o s (exec c o s).1 (exec c o s).2)
    {p : Prog ε Op Ans α} {a : α} (h : p.Answered exec s cs ops a t) : p.Runs E s (.ok a) t := by
  induction h with
  | ret a s => exact .ret (E.later_refl s)
  | op _ ih => exact .op (E.later_refl _) (hexec _ _ _) ih

theorem Answered.reaches {E : Env Op Ans σ}
    (hexec : ∀ c o s, E.exec o s (exec c o s).1 (exec c o s).2) {p : Prog ε Op Ans α} {a : α}
    (h : p.Answered exec s cs ops a t) : p.Reaches E s (.ret a) t := by
  induction h with
  | ret a s => exact .refl (E.later_refl s)
  | op _ ih => exact .op (E.later_refl _) (hexec _ _ _) ih

/-- The complete runs of a program alone are the runs with some answers. -/
theorem runs_iff_answered {pre : Op → σ → Prop} {p : Prog ε Op Ans α} {a : α} :
    p.Runs (Env.sequential pre fun o s r t => ∃ c, exec c o s = (r, t)) s (.ok a) t ↔
      ∃ cs ops, p.Answered exec s cs ops a t := by
  constructor
  · intro h
    generalize hout : Except.ok a = out at h
    induction h with
    | ret hl =>
      cases hout
      cases hl
      exact ⟨[], [], .ret _ _⟩
    | raise => cases hout
    | op hl hx _ ih =>
      cases hl
      obtain ⟨c, hc⟩ := hx
      obtain ⟨cs, ops, hrest⟩ := ih hout
      refine ⟨c :: cs, _ :: ops, .op ?_⟩
      rw [hc]
      exact hrest
  · intro h
    obtain ⟨cs, ops, h⟩ := h
    refine Answered.runs ?_ h
    intro c o s
    exact ⟨c, rfl⟩

/-! ## A world that stays as it is

Where every operation has one answer, a program is a function. -/

/-- What a program comes to where every operation has one answer. -/
def outcome (world : (o : Op) → Ans o) : Prog ε Op Ans α → Except ε α
  | .ret a => .ok a
  | .raise e => .error e
  | .op o k => (k (world o)).outcome world

/-- A sequence returns where its parts do. -/
theorem outcome_bind_eq_ok {world : (o : Op) → Ans o} {p : Prog ε Op Ans α}
    {f : α → Prog ε Op Ans β} {b : β} :
    (p.bind f).outcome world = .ok b ↔ ∃ a, p.outcome world = .ok a ∧ (f a).outcome world = .ok b := by
  induction p with
  | ret a => simp [Prog.bind, outcome]
  | raise e => simp [Prog.bind, outcome]
  | op o k ih => exact ih (world o)

/-- An outcome is the same in every world. -/
theorem outcome_ofExcept (world : (o : Op) → Ans o) (r : Except ε α) :
    (ofExcept r : Prog ε Op Ans α).outcome world = r := by
  cases r with
  | ok a => rfl
  | error e => rfl

/-! ## The operation a run is stopped before

A run that is stopped is stopped before an operation of the program. -/

/-- A program asks only what it is known to ask. -/
theorem Within.reaches_op {E : Env Op Ans σ} {ok : Op → Prop} {Q : α → Prop} {p : Prog ε Op Ans α}
    {o : Op} {k : Ans o → Prog ε Op Ans α} (hp : Within ok p Q) (h : p.Reaches E s (.op o k) t) :
    ok o := by
  generalize hleft : Prog.op o k = left at h
  induction h with
  | refl =>
    subst hleft
    exact (hp () trivial).1
  | op _ _ _ ih => exact ih ((hp () trivial).2 _ () trivial) hleft

/-- An operation of a sequence is asked by its first part, or after a complete run of it. -/
theorem reaches_op_bind {E : Env Op Ans σ} {p : Prog ε Op Ans α} {f : α → Prog ε Op Ans β} {o : Op}
    {k : Ans o → Prog ε Op Ans β} (h : (p.bind f).Reaches E s (.op o k) t) :
    (∃ k', p.Reaches E s (.op o k') t) ∨
      ∃ a w, p.Runs E s (.ok a) w ∧ (f a).Reaches E w (.op o k) t := by
  rcases reaches_bind h with ⟨p', hp, hleft⟩ | hrest
  · cases p' with
    | ret a =>
      right
      refine ⟨a, t, hp.runs (.ret (E.later_refl t)), ?_⟩
      rw [hleft]
      exact .refl (E.later_refl t)
    | raise e => cases hleft
    | op o' k' =>
      cases hleft
      exact Or.inl ⟨k', hp⟩
  · exact Or.inr hrest

end Prog

end Rave
