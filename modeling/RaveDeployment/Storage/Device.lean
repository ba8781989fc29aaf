import RaveDeployment.Lib.Prog
import RaveDeployment.Python.Str
import RaveDeployment.Python.Text

/-!
# The surroundings of the root expansion

What `rave_grow_rootfs.py` talks to: external commands, path resolution, and the steps that write
the completion record. A command may print anything or fail, and so may a resolution. A write goes
into the buffer of the open file, from where it reaches the file at any later time.
-/

namespace Rave

namespace Storage

/-- The exceptions that `rave_grow_rootfs.py` can end in. -/
inductive GrowError where
  | expansionError (message : String)
  | osError
  | valueError
  | runtimeError
  deriving DecidableEq

/-- `subprocess.CompletedProcess`. -/
structure CompletedProcess where
  returncode : Int
  stdout : String
  stderr : String

/-- The operations that it uses. -/
inductive GrowOp where
  /-- `COMPLETION_PATH.unlink(missing_ok=True)`. -/
  | unlink
  | run (arguments : List String)
  | resolve (path : PyStr) (strict : Bool)
  | mkdirParent (mode : Nat)
  | openTemporary
  | write (text : List Char)
  | flush
  | fsync
  | close
  | chmod (mode : Nat)
  /-- `os.replace(temporary, COMPLETION_PATH)`. -/
  | replace
  | openDirectory
  | fsyncDirectory
  | closeDirectory

def GrowOp.Result : GrowOp → Type
  | .run _ => CompletedProcess
  | .resolve _ _ => String
  | _ => Unit

abbrev GrowOp.Ans (o : GrowOp) : Type :=
  Except GrowError o.Result

abbrev GrowM := Prog GrowError GrowOp GrowOp.Ans

/-- The contents of `COMPLETION_PATH` and of the temporary file beside it, and what was written to
the temporary file but is still in the buffer. -/
structure Disk where
  record : Option (List Char)
  temporary : Option (List Char)
  buffered : List Char
  deriving DecidableEq

/-- What the surroundings decide of one operation. -/
structure Answer where
  fails : Option GrowError := none
  process : CompletedProcess := ⟨0, "", ""⟩
  path : String := ""
  /-- How much of the buffer reaches the file. -/
  flushed : Nat := 0

def noDisk : Disk :=
  ⟨none, none, []⟩

namespace Disk

/-- Some of what is buffered reaches the file. -/
def flush (s : Disk) (n : Nat) : Disk :=
  { s with temporary := s.temporary.map (· ++ s.buffered.take n), buffered := s.buffered.drop n }

/-- A text is buffered. -/
def write (s : Disk) (text : List Char) : Disk :=
  { s with buffered := s.buffered ++ text }

@[simp] theorem flush_record (s : Disk) (n : Nat) : (s.flush n).record = s.record := rfl

@[simp] theorem write_record (s : Disk) (text : List Char) : (s.write text).record = s.record := rfl

end Disk

/-- An operation that succeeds as far as the surroundings go. -/
def effect (c : Answer) (s : Disk) : (o : GrowOp) → o.Ans × Disk
  | .unlink => (.ok (), { s with record := none })
  | .run _ => (.ok c.process, s)
  | .resolve _ _ => (.ok c.path, s)
  | .openTemporary => (.ok (), { s with temporary := some [], buffered := [] })
  | .write text => (.ok (), (s.write text).flush c.flushed)
  | .flush => (.ok (), s.flush s.buffered.length)
  | .close => (.ok (), s.flush s.buffered.length)
  | .replace =>
    match s.temporary with
    | some text => (.ok (), { s with record := some text, temporary := none })
    | none => (.error .osError, s)
  | .mkdirParent _ => (.ok (), s)
  | .fsync => (.ok (), s)
  | .chmod _ => (.ok (), s)
  | .openDirectory => (.ok (), s)
  | .fsyncDirectory => (.ok (), s)
  | .closeDirectory => (.ok (), s)

/-- What an operation that fails leaves behind: part of what was written, no more. -/
def failed (c : Answer) (s : Disk) : GrowOp → Disk
  | .write text => (s.write text).flush c.flushed
  | .flush => s.flush c.flushed
  | .close => { s.flush c.flushed with buffered := [] }
  | _ => s

def exec (c : Answer) (o : GrowOp) (s : Disk) : o.Ans × Disk :=
  match c.fails with
  | some e => (.error e, failed c s o)
  | none => effect c s o

def surroundings : Env GrowOp GrowOp.Ans Disk :=
  Env.sequential (fun _ _ => True) fun o s r t => ∃ c, exec c o s = (r, t)

def perform (o : GrowOp) : GrowM o.Result :=
  .op o fun
    | .ok a => .ret a
    | .error e => .raise e

/-- `require`: an `ExpansionError` where the condition fails. -/
def require (condition : Prop) [Decidable condition] (message : String) : GrowM Unit :=
  if condition then .ret () else .raise (.expansionError message)

/-- `Path.resolve`. -/
def resolve (path : PyStr) (strict : Bool) : GrowM String :=
  perform (.resolve path strict)

/-- `run`, with what it raises. -/
def command (arguments : List String) : GrowM String := do
  let result : CompletedProcess ← perform (.run arguments)
  if result.returncode ≠ 0 then
    let detail := Py.orElse (some (Py.strip result.stderr))
      (Py.orElse (some (Py.strip result.stdout)) ("exit " ++ toString result.returncode))
    throw (.expansionError ("command failed: " ++ arguments.headD "" ++ ": " ++ detail))
  else
    return Py.strip result.stdout

/-- `int(text)`. -/
def toInt [PyUnicode] (text : String) : GrowM Int :=
  match Py.int? text with
  | some n => .ret n
  | none => .raise .valueError

/-! ## Rules

What the programs issue and what they return, for one operation at a time. -/

/-- The operations that only look, or act on the device. -/
def Observes : GrowOp → Prop
  | .run _ => True
  | .resolve _ _ => True
  | _ => False

/-- Whatever only looks is allowed. -/
class Looks (ok : GrowOp → Prop) : Prop where
  resolve (path : PyStr) (strict : Bool) : ok (.resolve path strict)
  run (program : String) (arguments : List String) (h : program ≠ "/usr/bin/growpart") :
    ok (.run (program :: arguments))

instance : Looks Observes := ⟨fun _ _ => trivial, fun _ _ _ => trivial⟩

section

variable {ok : GrowOp → Prop}

/-- A single operation that is allowed. -/
theorem within_perform {o : GrowOp} (ho : ok o) : Prog.Within ok (perform o) fun _ => True := by
  apply Prog.within_op ho
  intro r
  cases r with
  | ok a => exact Prog.within_ret trivial
  | error e => exact Prog.within_raise e

/-- A check, and what it checks. -/
theorem within_require {condition : Prop} [Decidable condition] {message : String} :
    Prog.Within ok (require condition message) fun _ => condition := by
  unfold require
  split
  · next h => exact Prog.within_ret h
  · exact Prog.within_raise _

/-- Resolving a path is allowed where looking is. -/
theorem within_resolve [Looks ok] (path : PyStr) (strict : Bool) :
    Prog.Within ok (resolve path strict) fun _ => True :=
  within_perform (o := .resolve path strict) (Looks.resolve path strict)

theorem within_run {arguments : List String} (h : ok (.run arguments)) :
    Prog.Within ok (command arguments) fun _ => True := by
  apply Prog.within_bind (within_perform (o := .run arguments) h)
  intro result _
  split
  · exact Prog.within_raise _
  · exact Prog.within_ret trivial

theorem within_command [Looks ok] {program : String} {arguments : List String}
    (h : program ≠ "/usr/bin/growpart") :
    Prog.Within ok (command (program :: arguments)) fun _ => True :=
  within_run (Looks.run program arguments h)

/-- Reading a number asks nothing. -/
theorem within_toInt [PyUnicode] (text : String) :
    Prog.Within ok (toInt text) fun _ => True := by
  unfold toInt
  split
  · exact Prog.within_ret trivial
  · exact Prog.within_raise _

end

/-- An operation fails as the surroundings choose, or has its effect. -/
theorem exec_cases {c : Answer} {o : GrowOp} {s t : Disk} {r : o.Ans} (h : exec c o s = (r, t)) :
    (∃ e, r = .error e ∧ t = failed c s o) ∨ effect c s o = (r, t) := by
  unfold exec at h
  split at h
  · next e _ => exact Or.inl ⟨e, (Prod.mk.inj h).1.symm, (Prod.mk.inj h).2.symm⟩
  · exact Or.inr h

/-- What only looks leaves everything as it is. -/
theorem exec_observes {c : Answer} {o : GrowOp} {s t : Disk} {r : o.Ans} (ho : Observes o)
    (h : exec c o s = (r, t)) : t = s := by
  rcases exec_cases h with ⟨e, -, ht⟩ | heffect
  · rw [ht]
    cases o <;> first | rfl | exact absurd ho (by simp [Observes])
  · rw [← (Prod.mk.inj heffect).2]
    cases o <;> first | rfl | exact absurd ho (by simp [Observes])

theorem exec_surroundings (c : Answer) (o : GrowOp) (s : Disk) :
    surroundings.exec o s (exec c o s).1 (exec c o s).2 :=
  ⟨c, rfl⟩

theorem stable_surroundings (P : Disk → Prop) : Prog.Stable surroundings P :=
  Prog.stable_sequential P

/-- An operation returns or raises, as the surroundings decide. -/
theorem wp_perform {o : GrowOp} {Q : o.Result → Disk → Prop} {R : GrowError → Disk → Prop}
    {s : Disk} (hok : ∀ c a t, exec c o s = (.ok a, t) → Q a t)
    (herror : ∀ c e t, exec c o s = (.error e, t) → R e t) :
    (perform o).wp surroundings Q R s := by
  intro t ht
  cases ht
  refine ⟨trivial, ?_⟩
  intro r w ⟨c, hexec⟩
  cases r with
  | ok a =>
    intro v hv
    cases hv
    exact hok c a w hexec
  | error e =>
    intro v hv
    cases hv
    exact herror c e w hexec

/-- An operation that returned was answered. -/
theorem runs_perform {o : GrowOp} {s t : Disk} {a : o.Result}
    (h : (perform o).Runs surroundings s (.ok a) t) : ∃ c, exec c o s = (.ok a, t) := by
  cases h with
  | op hl hx rest =>
    cases hl
    obtain ⟨c, hexec⟩ := hx
    rename_i r
    cases r with
    | error e => cases rest
    | ok b =>
      cases rest with
      | ret hl =>
        cases hl
        exact ⟨c, hexec⟩

/-- An operation that is not done yet, that has failed, or that has succeeded. -/
theorem reaches_perform {o : GrowOp} {s t : Disk} {left : GrowM o.Result}
    (h : (perform o).Reaches surroundings s left t) :
    (left = perform o ∧ t = s) ∨ (∃ c e, exec c o s = (.error e, t) ∧ left = .raise e) ∨
      ∃ c a, exec c o s = (.ok a, t) ∧ left = .ret a := by
  cases h with
  | refl hl => exact Or.inl ⟨rfl, hl.symm⟩
  | op hl hx rest =>
    right
    cases hl
    obtain ⟨c, hexec⟩ := hx
    rename_i r
    cases r with
    | error e =>
      cases rest with
      | refl hl =>
        cases hl
        exact Or.inl ⟨c, e, hexec, rfl⟩
    | ok a =>
      cases rest with
      | refl hl =>
        cases hl
        exact Or.inr ⟨c, a, hexec, rfl⟩

end Storage

end Rave
