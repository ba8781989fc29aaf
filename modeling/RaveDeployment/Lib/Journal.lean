import RaveDeployment.Lib.Replay
import RaveDeployment.Lib.Trace

/-!
# Programs with a journal

A program that runs alone and is answered anything, with the journal of what it has asked and how it
was answered. A rule says which operation may follow a journal; `clean_of_reaches`: where the
weakest precondition takes the rule for what must hold of an operation, every journal keeps it.

* `Returned`: what the journal of a program that has returned can be.
* `Ran`: a journal holds the answers that a program returned on.
* `Within.journal`: a program that only asks what the rule always allows adds to the journal, and has
  run there.
-/

namespace Rave

namespace Prog

universe u

variable {ε : Type} {Op : Type u} {Ans : Op → Type} {α β : Type}

/-- The operations with their answers, in the order in which they were made. -/
abbrev Journal (Ans : Op → Type) : Type u :=
  List ((o : Op) × Ans o)

def journal (Ans : Op → Type) (rule : Journal Ans → Op → Prop) : Env Op Ans (Journal Ans) :=
  Env.sequential (fun o log => rule log o) fun o log r log' => log' = log ++ [⟨o, r⟩]

abbrev freely (Ans : Op → Type) : Env Op Ans (Journal Ans) :=
  journal Ans fun _ _ => True

variable {rule : Journal Ans → Op → Prop} {log late : Journal Ans}

/-- **A journal keeps the rule that the weakest precondition asks for.** -/
theorem clean_of_reaches {Op : Type} {Ans : Op → Type} {rule : Journal Ans → Op → Prop}
    {log log' : Journal Ans} {p p' : Prog ε Op Ans α} {Q : α → Journal Ans → Prop}
    {R : ε → Journal Ans → Prop} (h : p.wp (journal Ans rule) Q R log)
    (hclean : Clean (fun before e => rule before e.1) log)
    (hr : p.Reaches (freely Ans) log p' log') : Clean (fun before e => rule before e.1) log' := by
  induction hr with
  | refl hl =>
    cases hl
    exact hclean
  | op hl hx _ ih =>
    cases hl
    cases hx
    obtain ⟨hrule, hk⟩ := h _ rfl
    exact ih (hk _ _ rfl) (hclean.concat hrule)

/-- A complete run with its answers is one that writes the journal of what it asked. -/
theorem Answered.journal {σ χ : Type} {exec : χ → (o : Op) → σ → Ans o × σ} {s t : σ} {cs : List χ}
    {ops : List Op} {p : Prog ε Op Ans α} {a : α} (h : p.Answered exec s cs ops a t)
    (log : Journal Ans) :
    ∃ late, p.Reaches (freely Ans) log (.ret a) (log ++ late) ∧ late.map Sigma.fst = ops := by
  induction h generalizing log with
  | ret a s =>
    refine ⟨[], ?_, rfl⟩
    rw [List.append_nil]
    exact .refl rfl
  | @op o k s t c cs ops a rest ih =>
    obtain ⟨late, hrest, hlate⟩ := ih (log ++ [⟨o, (exec c o s).1⟩])
    refine ⟨⟨o, (exec c o s).1⟩ :: late, ?_, by rw [List.map_cons, hlate]⟩
    rw [List.append_assoc] at hrest
    exact .op rfl rfl hrest

/-! ## What has run

`Returned` is about the whole log of a program. `Ran` is about a log that has its operations among
others, in any order, which is what a later check may look at. -/

def Returned (p : Prog ε Op Ans α) (a : α) (late : Journal Ans) : Prop :=
  p.Runs (freely Ans) [] (.ok a) late

/-- What stands in the journal before a program does not change how it runs. -/
theorem runs_log_append {p : Prog ε Op Ans α} {out : Except ε α} {log' : Journal Ans}
    (h : p.Runs (freely Ans) log out log') (before : Journal Ans) :
    p.Runs (freely Ans) (before ++ log) out (before ++ log') := by
  induction h with
  | ret hl =>
    cases hl
    exact .ret rfl
  | raise hl =>
    cases hl
    exact .raise rfl
  | op hl hx _ ih =>
    cases hl
    cases hx
    exact .op rfl (List.append_assoc _ _ _).symm ih

/-- An operation with its answer comes before what follows it. -/
theorem Returned.op {o : Op} {k : Ans o → Prog ε Op Ans α} {r : Ans o} {a : α}
    (h : Returned (k r) a late) : Returned (.op o k) a (⟨o, r⟩ :: late) :=
  Runs.op rfl rfl (runs_log_append h [⟨o, r⟩])

/-- A program that begins with an operation leaves that one first. -/
theorem returned_op {o : Op} {k : Ans o → Prog ε Op Ans α} {a : α}
    (h : Returned (.op o k) a late) : ∃ r rest, late = ⟨o, r⟩ :: rest ∧ Returned (k r) a rest := by
  -- the answers to the rest do not depend on what the journal held before
  have shift : ∀ (p : Prog ε Op Ans α) (log log' : Journal Ans), p.Runs (freely Ans) log (.ok a) log' →
      ∃ rest, log' = log ++ rest ∧ Returned p a rest := by
    intro p
    induction p with
    | ret b =>
      intro log log' h
      cases h with
      | ret hl =>
        cases hl
        exact ⟨[], (List.append_nil _).symm, .ret rfl⟩
    | raise e =>
      intro log log' h
      cases h
    | op o k ih =>
      intro log log' h
      cases h with
      | op hl hx rest =>
        cases hl
        cases hx
        obtain ⟨rest', hlog, hreturned⟩ := ih _ _ _ rest
        refine ⟨⟨o, _⟩ :: rest', ?_, hreturned.op⟩
        rw [hlog, List.append_assoc]
        rfl
  cases h with
  | op hl hx rest =>
    cases hl
    cases hx
    obtain ⟨rest', hlog, hreturned⟩ := shift _ _ _ rest
    exact ⟨_, rest', hlog, hreturned⟩

/-- A sequence leaves the journals of its two parts one after another. -/
theorem returned_bind {p : Prog ε Op Ans α} {f : α → Prog ε Op Ans β} {b : β}
    (h : Returned (p.bind f) b late) :
    ∃ a early rest, late = early ++ rest ∧ Returned p a early ∧ Returned (f a) b rest := by
  induction p generalizing late with
  | ret a => exact ⟨a, [], late, rfl, .ret rfl, h⟩
  | raise e => cases h
  | op o k ih =>
    obtain ⟨r, rest, rfl, hrest⟩ := returned_op h
    obtain ⟨a, early, rest', rfl, hp, hf⟩ := ih r hrest
    exact ⟨a, ⟨o, r⟩ :: early, rest', rfl, hp.op, hf⟩

def Ran (log : Journal Ans) (p : Prog ε Op Ans α) (a : α) : Prop :=
  ∃ late, Returned p a late ∧ late ⊆ log

theorem Ran.mono {p : Prog ε Op Ans α} {a : α} {log' : Journal Ans} (h : Ran log p a)
    (hlog : log ⊆ log') : Ran log' p a := by
  obtain ⟨late, hreturned, hlate⟩ := h
  exact ⟨late, hreturned, fun e he => hlog (hlate he)⟩

theorem Returned.ran {p : Prog ε Op Ans α} {a : α} (h : Returned p a late) : Ran late p a :=
  ⟨late, h, fun _ he => he⟩

theorem ran_bind {p : Prog ε Op Ans α} {f : α → Prog ε Op Ans β} {b : β}
    (h : Ran log (p.bind f) b) : ∃ a, Ran log p a ∧ Ran log (f a) b := by
  obtain ⟨late, hreturned, hlate⟩ := h
  obtain ⟨a, early, rest, rfl, hp, hf⟩ := returned_bind hreturned
  obtain ⟨hearly, hrest⟩ := List.append_subset.mp hlate
  exact ⟨a, ⟨early, hp, hearly⟩, rest, hf, hrest⟩

/-- The operation has been made, and what follows it has run. -/
theorem ran_op {o : Op} {k : Ans o → Prog ε Op Ans α} {a : α} (h : Ran log (.op o k) a) :
    ∃ r, (⟨o, r⟩ : (o : Op) × Ans o) ∈ log ∧ Ran log (k r) a := by
  obtain ⟨late, hreturned, hlate⟩ := h
  obtain ⟨r, rest, rfl, hrest⟩ := returned_op hreturned
  exact ⟨r, hlate List.mem_cons_self, rest, hrest, fun e he => hlate (List.mem_cons_of_mem _ he)⟩

/-- A program that returns at once returns its value. -/
theorem ran_ret {a b : α} (h : Ran log (ret a : Prog ε Op Ans α) b) : a = b := by
  obtain ⟨late, hreturned, -⟩ := h
  cases hreturned
  rfl

theorem not_ran_raise {e : ε} {a : α} : ¬ Ran log (raise e : Prog ε Op Ans α) a := by
  intro ⟨late, hreturned, _⟩
  cases hreturned

/-- A program that only asks what the rule always allows. -/
theorem Within.journal {ok : Op → Prop} {V : α → Prop} {p : Prog ε Op Ans α} (hp : Within ok p V)
    (hok : ∀ o, ok o → ∀ log, rule log o) {Q : α → Journal Ans → Prop}
    (hQ : ∀ a late, V a → (∀ e ∈ late, ok e.1) → Returned p a late → Q a (log ++ late)) :
    p.wp (journal Ans rule) Q (fun _ _ => True) log := by
  induction p generalizing log with
  | ret a =>
    intro log' hlog
    cases hlog
    have h := hQ a [] (hp () trivial) (by simp) (.ret rfl)
    rwa [List.append_nil] at h
  | raise e => exact fun _ _ => trivial
  | op o k ih =>
    intro log' hlog
    cases hlog
    obtain ⟨ho, hk⟩ := hp () trivial
    refine ⟨hok o ho log, ?_⟩
    intro r log' hlog
    cases hlog
    apply ih r (hk r () trivial)
    intro a late ha hlate hreturned
    have h := hQ a (⟨o, r⟩ :: late) ha (List.forall_mem_cons.mpr ⟨ho, hlate⟩) hreturned.op
    rwa [← List.append_cons]

end Prog

end Rave
