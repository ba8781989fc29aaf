import RaveDeployment.Profiles.Commands

/-!
# Replaying a method under fixed answers

A `Policy` fixes what is decided outside the program about every command. Under it a method has
one complete run, which `replay` computes. Two uses are made of this:

* a run stopped between two commands is completed by letting every later command fail
  (`exists_completion`), so that a killed call is a complete call whose last commands failed;
* a run on fixed inputs is evaluated.
-/

namespace Rave

open Prog

abbrev Policy : Type := Command → Choice

def Uuid.repeated (d : Fin 16) : Uuid where
  digits := List.replicate 32 d
  length_eq := rfl

namespace Policy

/-- The commands have these outcomes; `scan` is what the Wi-Fi list shows, and a profile that is
added gets the UUID `created`. -/
def withOutcomes (scan : String) (created : Uuid) (outcome : Command → Outcome) : Policy := fun c =>
  { outcome := outcome c
    created := created
    code := ⟨124, by decide⟩
    output := if c = .wifiList then scan else "" }

def always (o : Outcome) : Policy :=
  withOutcomes "" (.repeated 0) fun _ => o

end Policy

namespace Backend

/-- The outcome of a method under the policy, and the world it leaves. -/
def replay {α : Type} (policy : Policy) : Backend α → World → Except PyErr α × World
  | .ret a, w => (.ok a, w)
  | .raise e, w => (.error e, w)
  | .op call k, w =>
    let step := execute call.command (policy call.command) w
    replay policy (k (.ok step.1)) step.2

variable {α : Type} {policy : Policy} {w w' : World}

/-- What is replayed is a run. -/
theorem runs_replay (policy : Policy) (p : Backend α) (w : World) :
    p.Runs nmcli w (replay policy p w).1 (replay policy p w).2 := by
  induction p generalizing w with
  | ret a => exact .ret rfl
  | raise e => exact .raise rfl
  | op call k ih =>
    have hexec : nmcli.exec call w (.ok (execute call.command (policy call.command) w).1)
        (execute call.command (policy call.command) w).2 := ⟨policy call.command, rfl, rfl⟩
    exact .op rfl hexec (ih _ _)

/-- The commands replayed have the outcomes of the policy. -/
theorem replay_log (policy : Policy) (p : Backend α) (w : World) :
    ∃ l, (replay policy p w).2.log = w.log ++ l ∧
      ∀ e ∈ l, e.outcome = (policy e.command).outcome := by
  induction p generalizing w with
  | ret a => exact ⟨[], by simp [replay], by simp⟩
  | raise e => exact ⟨[], by simp [replay], by simp⟩
  | op call k ih =>
    rw [replay]
    set step := execute call.command (policy call.command) w with hstep
    obtain ⟨l, hlog, houtcomes⟩ := ih (.ok step.1) step.2
    have hext := execute_extends call.command (policy call.command) w
    refine ⟨⟨call.command, (policy call.command).outcome⟩ :: l, ?_, ?_⟩
    · rw [hlog, hext.log, List.append_assoc]
      rfl
    · intro e he
      rcases List.mem_cons.mp he with rfl | he
      · rfl
      · exact houtcomes e he

/-- Commands that fail without effect leave the profiles alone. -/
theorem replay_store (hfailed : ∀ c, (policy c).outcome = .failed) (p : Backend α) (w : World) :
    (replay policy p w).2.store = w.store := by
  induction p generalizing w with
  | ret a => rfl
  | raise e => rfl
  | op call k ih =>
    have hstep : (execute call.command (policy call.command) w).2.store = w.store := by
      rw [execute, hfailed]
    rw [replay, ih, hstep]

/-- What is left of a method after `n` commands, and the world it has reached. -/
def replayCommands (policy : Policy) : Nat → Backend α → World → Backend α × World
  | n + 1, .op call k, w =>
    let step := execute call.command (policy call.command) w
    replayCommands policy n (k (.ok step.1)) step.2
  | _, p, w => (p, w)

/-- A run that is cut off after some commands has reached what it reached. -/
theorem reaches_replayCommands (policy : Policy) (n : Nat) (p : Backend α) (w : World) :
    p.Reaches nmcli w (replayCommands policy n p w).1 (replayCommands policy n p w).2 := by
  induction n generalizing p w with
  | zero => exact .refl rfl
  | succ n ih =>
    cases p with
    | ret a => exact .refl rfl
    | raise e => exact .refl rfl
    | op call k =>
      have hexec : nmcli.exec call w (.ok (execute call.command (policy call.command) w).1)
          (execute call.command (policy call.command) w).2 := ⟨policy call.command, rfl, rfl⟩
      exact .op rfl hexec (ih _ _)

/-- A stopped run is completed by letting everything that was left to do fail. -/
theorem exists_completion {p p' : Backend α} (stopped : p.Reaches nmcli w p' w') :
    ∃ out w'' l, p.Runs nmcli w out w'' ∧ w''.log = w'.log ++ l ∧
      (∀ e ∈ l, e.outcome = .failed) ∧ w''.store = w'.store := by
  obtain ⟨l, hlog, houtcomes⟩ := replay_log (.always .failed) p' w'
  have hrest := runs_replay (.always .failed) p' w'
  exact ⟨_, _, l, stopped.runs hrest, hlog, houtcomes, replay_store (fun _ => rfl) p' w'⟩

end Backend

end Rave
