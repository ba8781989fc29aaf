import RaveDeployment.ModelStore.FileSystem

/-!
# `install_model`, `activate_model`, `qualify_model` and `rollback_model`

The administration commands as programs over the operations on the store. The digest of the
selected artifact and the hash function are parameters.
-/

namespace Rave

namespace ModelStore

abbrev StoreM := Prog ModelError StoreOp StoreOp.Ans

def perform (o : StoreOp) : StoreM o.Result :=
  .op o fun
    | .ok a => .ret a
    | .error e => .raise (.osError e)

/-- `if not condition: raise ValueError(message)`. -/
def require (condition : Prop) [Decidable condition] (message : String) : StoreM Unit :=
  if condition then .ret () else .raise (.valueError message)

/-- A `for` loop. -/
def forEach {α : Type} : List α → (α → StoreM Unit) → StoreM Unit
  | [], _ => .ret ()
  | a :: as, f => do
    f a
    forEach as f

/-- A directory that holds an artifact. -/
inductive Directory where
  | outside (path : String)
  | entry (name : String)

/-- `directory / name`. -/
def Directory.file : Directory → String → Place
  | .outside path, name => .outside (path ++ "/" ++ name)
  | .entry folder, name => .inside folder name

section Validation

variable [Json.Nesting] (sha256 : List UInt8 → String) (digest : String)

/-- `load_manifest`. -/
def loadManifest (path : Place) : StoreM (List (PyStr × Json)) := do
  let kind : FileKind ← perform (.lstat path)
  require (kind = .regular) "manifest must be a regular file, not a symlink"
  let content : List UInt8 ← perform (.readFile path)
  Prog.ofExcept (checkManifest digest content)

/-- `sha256_file`. -/
def sha256File (path : Place) : StoreM String := do
  let content : List UInt8 ← perform (.readFile path)
  return sha256 content

/-- `validate_model`. -/
def validateModel (manifestPath : Place) (directory : Directory) :
    StoreM (List (PyStr × Json)) := do
  let manifest ← loadManifest digest manifestPath
  let artifact := directory.file (textField manifest "artifact")
  let kind : FileKind ← perform (.lstat artifact)
  require (kind = .regular) "HEF must be a regular file, not a symlink"
  let found ← sha256File sha256 artifact
  require (found = textField manifest "sha256") "HEF SHA256 mismatch"
  return manifest

/-- `_installed_version`, which returns the name of the version in the store. -/
def installedVersion (id : String) : StoreM String := do
  require (id = modelId) "unsupported model ID"
  let kind : FileKind ← perform (.lstat (.entry id))
  require (kind = .directory) "installed version must be a directory, not a symlink"
  let _ ← validateModel sha256 digest (.inside id "manifest.json") (.entry id)
  return id

end Validation

/-- `_store_lock` around a body. -/
def storeLock {α : Type} (body : StoreM α) : StoreM α := do
  let info : StoreInfo ← perform .storeInfo
  require (info.kind = .directory ∧ info.groupOtherWrite = false)
    "model store must be a real directory without group/other write access"
  require (info.owned = true) "model administration must run as the store owner"
  perform .openLock
  Prog.finallyDo (do perform .flock; body) (perform .closeLock)

/-- `FileNotFoundError` is passed over while a temporary directory is removed. -/
def ignoreMissing (p : StoreM Unit) : StoreM Unit :=
  p.handle fun
    | .osError .fileNotFound => .ret ()
    | e => .raise e

def cleanup (name : String) : StoreM Unit :=
  (perform (.listdir name)).attempt.bind fun
    | .ok items => do
      forEach items fun item => ignoreMissing (perform (.unlink name item))
      ignoreMissing (perform (.rmdir name))
    | .error (.osError .fileNotFound) => .ret ()
    | .error e => .raise e

/-- `with tempfile.TemporaryDirectory(prefix=start, dir=store)`. -/
def temporaryDirectory (start : String) (body : String → StoreM Unit) : StoreM Unit := do
  let name ← perform (.mkdtemp start)
  Prog.finallyDo (body name) (cleanup name)

/-- `shutil.copyfile`: the blocks arrive one by one. -/
def copyfile (source : Place) (folder name : String) : StoreM Unit := do
  perform (.openSource source)
  perform (.create folder name)
  let (chunks, broken) ← perform (.readChunks source)
  forEach chunks fun chunk => perform (.append folder name chunk)
  match broken with
  | none => return
  | some e => throw (.osError e)

/-- `Path.write_text`. -/
def writeText (folder name : String) (text : List Char) : StoreM Unit := do
  perform (.create folder name)
  perform (.append folder name (Py.encodeUtf8 text))

/-- `os.path.lexists`, which is false where `lstat` fails. -/
def lexists (path : Place) : StoreM Bool :=
  (perform (.lstat path)).attempt.bind fun
    | .ok _ => .ret true
    | .error _ => .ret false

section Commands

variable [Json.Nesting] (sha256 : List UInt8 → String) (digest : String)

/-- What `install_model` does with its staging directory. -/
def publish (manifest : List (PyStr × Json)) (source : Directory) (stage : String) :
    StoreM Unit := do
  let artifact := textField manifest "artifact"
  let kind : FileKind ← perform (.lstat (source.file artifact))
  require (kind = .regular) "HEF must be a regular file, not a symlink"
  copyfile (source.file artifact) stage artifact
  writeText stage "manifest.json" (Json.dumps ⟨true, 0, 1, some 2⟩ (.obj manifest) ++ ['\n'])
  let _ ← validateModel sha256 digest (.inside stage "manifest.json") (.entry stage)
  let items ← perform (.listdir stage)
  forEach items fun item => do
    perform (.chmod (.inside stage item) 0o644)
    perform (.fsync (.inside stage item))
  perform (.chmod (.entry stage) 0o755)
  perform (.fsync (.entry stage))
  perform (.rename stage (textField manifest "model_id"))
  perform (.fsync .root)

/-- `install_model`. -/
def installModel (manifestPath source : String) : StoreM String := do
  let manifest ← loadManifest digest (.outside manifestPath)
  let id := textField manifest "model_id"
  storeLock do
    let there ← lexists (.entry id)
    if there then
      let _ ← validateModel sha256 digest (.outside manifestPath) (.outside source)
      installedVersion sha256 digest id
    else
      temporaryDirectory ".stage-" (publish sha256 digest manifest (.outside source))
      return id

/-- `_replace_pointer`. -/
def replacePointer (name id : String) : StoreM String := do
  let version ← installedVersion sha256 digest id
  temporaryDirectory ".pointer-" fun temporary => do
    perform (.symlink temporary "link" version)
    perform (.replaceEntry temporary "link" name)
    perform (.fsync .root)
  return version

/-- `activate_model`. -/
def activateModel (id : String) : StoreM String :=
  storeLock (replacePointer sha256 digest "current" id)

/-- `qualify_model`. -/
def qualifyModel (id : String) : StoreM String :=
  storeLock (replacePointer sha256 digest "known-good" id)

/-- `rollback_model`. -/
def rollbackModel : StoreM String :=
  storeLock do
    let id ← perform (.readlink "known-good")
    replacePointer sha256 digest "current" id

/-- The commands of the tool that change the store. -/
inductive Call where
  | install (manifestPath source : String)
  | activate (id : String)
  | qualify (id : String)
  | rollback
  deriving DecidableEq

def serve : Call → StoreM String
  | .install manifestPath source => installModel sha256 digest manifestPath source
  | .activate id => activateModel sha256 digest id
  | .qualify id => qualifyModel sha256 digest id
  | .rollback => rollbackModel sha256 digest

def Call.pointer : Call → Option String
  | .install _ _ => none
  | .activate _ => some "current"
  | .qualify _ => some "known-good"
  | .rollback => some "current"

/-- Any number of administrators on a store that is empty at first. -/
def storeSystem (ι : Type) [DecidableEq ι] :
    System (Parallel.Config ι Call ModelError StoreOp StoreOp.Ans String (Store ι))
      (Parallel.Event ι Call Choice) :=
  Parallel.system machine (serve sha256 digest) ⟨fun _ => none, none⟩

end Commands

end ModelStore

end Rave
