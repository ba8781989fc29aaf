import RaveDeployment.Network.Secrets
import RaveDeployment.Python.Utf8

/-!
# `SubprocessRunner`

The runner of `rave_networkd/backend.py` as a program over the calls of the operating system. A
password reaches the child through an anonymous file that it inherits; `lockstep_runWithSecret` says
that two passwords make no other difference than the bytes written to that file.
-/

namespace Rave

open Prog

/-- What the runner asks of the operating system. -/
inductive OsOp where
  /-- `os.memfd_create(name, flags=0)`. -/
  | memfdCreate (name : String)
  | write (descriptor : Nat) (data : List UInt8)
  /-- `os.lseek(descriptor, 0, os.SEEK_SET)`. -/
  | rewind (descriptor : Nat)
  /-- `subprocess.run(argv, timeout=timeout, pass_fds=passFds)`. -/
  | spawn (argv : List String) (timeout : Nat) (passFds : List Nat)
  | close (descriptor : Nat)

/-- `spawn` answers no result on `subprocess.TimeoutExpired`. -/
def OsOp.Ans : OsOp → Type
  | .memfdCreate _ => Except PyErr Nat
  | .write _ _ => Except PyErr Nat
  | .rewind _ => Except PyErr Nat
  | .spawn _ _ _ => Except PyErr (Option CommandResult)
  | .close _ => Except PyErr Unit

abbrev OsProg (α : Type) : Type := Prog PyErr OsOp OsOp.Ans α

namespace SubprocessRunner

/-- `os.memfd_create`. -/
def memfdCreate (name : String) : OsProg Nat :=
  .op (.memfdCreate name) Prog.ofExcept

/-- `os.write`. -/
def write (descriptor : Nat) (data : List UInt8) : OsProg Nat :=
  .op (.write descriptor data) Prog.ofExcept

/-- `os.lseek`, to the beginning. -/
def rewind (descriptor : Nat) : OsProg Nat :=
  .op (.rewind descriptor) Prog.ofExcept

/-- `subprocess.run`. -/
def spawn (argv : List String) (timeout : Nat) (passFds : List Nat) :
    OsProg (Option CommandResult) :=
  .op (.spawn argv timeout passFds) Prog.ofExcept

/-- `os.close`. -/
def close (descriptor : Nat) : OsProg Unit :=
  .op (.close descriptor) Prog.ofExcept

/-- `_run`. -/
def runCommand (argv : List String) (timeout : Nat) (passFds : List Nat) :
    OsProg CommandResult :=
  if ¬(0 < timeout ∧ timeout ≤ COMMAND_TIMEOUT_SECONDS) then
    throw (.valueError "command_timeout_out_of_policy")
  else
    (spawn argv timeout passFds).bind fun
      | none => .ret ⟨124, ""⟩
      | some result => .ret result

def run (c : Command) : OsProg CommandResult :=
  runCommand c.argv c.timeout []

def completeCommand (c : Command) (descriptor : Nat) : List String :=
  c.argv ++ ["passwd-file", "/proc/self/fd/" ++ toString descriptor]

def secretLine (password : String) : List UInt8 :=
  Py.encodeUtf8 ("802-11-wireless-security.psk:" ++ password ++ "\n").toList

/-- The body of the `try` of `run_with_secret`. -/
def runOnDescriptor (c : Command) (password : String) (descriptor : Nat) :
    OsProg CommandResult := do
  let password ← Prog.ofExcept (validatePassword password)
  let _ ← write descriptor (secretLine password)
  let _ ← rewind descriptor
  runCommand (completeCommand c descriptor) c.timeout [descriptor]

/-- `run_with_secret`. -/
def runWithSecret (c : Command) (password : String) : OsProg CommandResult :=
  (memfdCreate "rave-network-credential").bind fun descriptor =>
    (runOnDescriptor c password descriptor).finallyDo (close descriptor)

end SubprocessRunner

open SubprocessRunner

/-- Calls of the system that differ at most in what is written to a file, answered the same. -/
inductive OsPairing : Pairing OsOp OsOp.Ans where
  | same (o : OsOp) : OsPairing o o Eq
  | write (descriptor : Nat) (data data' : List UInt8) :
      OsPairing (.write descriptor data) (.write descriptor data') fun r r' => r = r'

theorem lockstep_os {α : Type} (p : OsProg α) : Lockstep OsPairing p p :=
  lockstep_of_within (fun o _ => .same o) (within_true p)

/-- **The commands of the runner do not depend on the password.** -/
theorem lockstep_runWithSecret (c : Command) {p p' : String} (hp : PasswordAccepted p)
    (hp' : PasswordAccepted p') :
    Lockstep OsPairing (runWithSecret c p) (runWithSecret c p') := by
  apply lockstep_bind (lockstep_os _)
  intro descriptor
  apply lockstep_finallyDo _ (lockstep_os _)
  have hp : validatePassword p = .ok p := hp
  have hp' : validatePassword p' = .ok p' := hp'
  unfold runOnDescriptor
  rw [hp, hp']
  have hwrite : Lockstep OsPairing (write descriptor (secretLine p))
      (write descriptor (secretLine p')) := by
    apply Lockstep.op (.write descriptor _ _)
    rintro r r' rfl
    exact lockstep_ofExcept r
  show Lockstep OsPairing ((write descriptor (secretLine p)).bind _)
    ((write descriptor (secretLine p')).bind _)
  exact lockstep_bind hwrite fun _ => lockstep_os _

/-- A child is started with the command and the path of a descriptor, and nothing else. -/
def SpawnsComplete (c : Command) (o : OsOp) : Prop :=
  ∀ argv timeout passFds, o = .spawn argv timeout passFds →
    timeout = c.timeout ∧ ∃ descriptor, argv = completeCommand c descriptor

/-- The command is started with the complete secret, or not at all. -/
theorem within_runWithSecret (c : Command) (password : String) :
    Within (SpawnsComplete c) (runWithSecret c password) fun _ => True := by
  -- an operation that starts no process is allowed as it is
  have hfree : ∀ (o : OsOp), (∀ argv timeout passFds, o ≠ .spawn argv timeout passFds) →
      SpawnsComplete c o := fun o ho argv timeout passFds heq => absurd heq (ho argv timeout passFds)
  apply within_bind (Q := fun _ => True)
  · exact within_op (hfree _ (by simp)) fun _ => within_ofExcept fun _ _ => trivial
  intro descriptor _
  -- the descriptor is closed whatever happens in between
  apply within_finallyDo
  · apply within_bind (Q := fun _ => True) (within_ofExcept fun _ _ => trivial)
    intro password _
    apply within_bind (Q := fun _ => True)
    · exact within_op (hfree _ (by simp)) fun _ => within_ofExcept fun _ _ => trivial
    intro _ _
    apply within_bind (Q := fun _ => True)
    · exact within_op (hfree _ (by simp)) fun _ => within_ofExcept fun _ _ => trivial
    intro _ _
    unfold runCommand
    split
    · exact within_raise _
    · apply within_bind (Q := fun _ => True)
      · apply within_op
        -- the one process it starts: the password is in the pipe and not among the arguments
        · rintro argv timeout passFds ⟨⟩
          exact ⟨rfl, descriptor, rfl⟩
        · exact fun _ => within_ofExcept fun _ _ => trivial
      · intro result _
        cases result with
        | none => exact within_ret trivial
        | some result => exact within_ret trivial
  · exact within_op (hfree _ (by simp)) fun _ => within_ofExcept fun _ _ => trivial

end Rave
