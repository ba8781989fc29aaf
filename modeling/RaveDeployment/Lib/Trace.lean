import Mathlib.Tactic.Common

/-!
# Rules on the entries of a log

A rule judges an entry by the entries before it. `Clean rule log` says that the rule holds of every
entry of `log`; a log is kept clean by appending what the rule allows.
-/

namespace Rave

variable {α β : Type}

def Clean (rule : List α → α → Prop) (log : List α) : Prop :=
  ∀ before a after, log = before ++ a :: after → rule before a

variable {rule : List α → α → Prop} {log : List α} {a : α}

theorem clean_nil : Clean rule [] := by
  intro before a after h
  exact absurd h (by simp)

/-- One more entry that obeys it. -/
theorem Clean.concat (h : Clean rule log) (ha : rule log a) : Clean rule (log ++ [a]) := by
  intro before b after hlog
  rcases List.eq_nil_or_concat after with rfl | ⟨after', last, rfl⟩
  · obtain ⟨rfl, hb⟩ := List.append_inj' hlog rfl
    rwa [← List.singleton_inj.mp hb]
  · have hlog' : log ++ [a] = (before ++ b :: after') ++ [last] := by simpa using hlog
    obtain ⟨rfl, -⟩ := List.append_inj' hlog' rfl
    exact h before b after' rfl

end Rave
