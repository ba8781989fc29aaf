import RaveDeployment.ModelStore.Manifest
import RaveDeployment.Lib.Parallel

/-!
# The store directory

The directory `<store>` as the administration commands see it: entries that are files, links or
folders of files and links, and the lock on `.admin.lock`. An operation is one system call, or one
library call that makes a single change. Everything a call answers from beyond the store, and
whether it fails, is the choice of the surroundings; a path given by the caller is `outside`, also
where it happens to lead into the store.
-/

namespace Rave

namespace ModelStore

/-- What lies in a folder: a file or a link. -/
inductive Item where
  | file (content : List UInt8) (mode : Nat)
  | link (target : String)
  deriving DecidableEq

/-- A directory of files and links, with its mode. -/
structure Folder where
  items : List (String × Item)
  mode : Nat
  deriving DecidableEq

/-- An entry of the store: a file, a link or a folder. -/
inductive Node where
  | item (i : Item)
  | folder (f : Folder)
  deriving DecidableEq

def Folder.get (f : Folder) (name : String) : Option Item :=
  (f.items.find? fun i => i.1 = name).map Prod.snd

def Folder.remove (f : Folder) (name : String) : Folder :=
  { f with items := f.items.filter fun i => i.1 ≠ name }

/-- The folder with an item, in place of one of that name. -/
def Folder.put (f : Folder) (name : String) (item : Item) : Folder :=
  { f with items := (name, item) :: (f.remove name).items }

/-- The entries of the store, and the process that holds the lock. -/
structure Store (ι : Type) where
  entries : String → Option Node
  holder : Option ι

/-- The kinds that `lstat` tells apart. -/
inductive FileKind where
  | regular
  | directory
  | symlink
  deriving DecidableEq

/-- What `_store_lock` reads of the store's `lstat`. -/
structure StoreInfo where
  kind : FileKind
  groupOtherWrite : Bool
  owned : Bool
  deriving DecidableEq

/-- A path outside the store, the store itself, one of its entries, or a file in one of its folders.
-/
inductive Place where
  | outside (path : String)
  | root
  | entry (name : String)
  | inside (folder name : String)
  deriving DecidableEq

/-- The operations on the file system that `rave_model_store.py` uses. -/
inductive StoreOp where
  | lstat (p : Place)
  | readFile (p : Place)
  | openSource (p : Place)
  /-- The blocks that are read, and the failure that ends them. -/
  | readChunks (p : Place)
  | storeInfo
  | openLock
  | flock
  | closeLock
  | mkdtemp (start : String)
  | create (folder name : String)
  | append (folder name : String) (data : List UInt8)
  | chmod (p : Place) (mode : Nat)
  | fsync (p : Place)
  | listdir (folder : String)
  | rename (folder destination : String)
  | symlink (folder name target : String)
  | replaceEntry (folder name destination : String)
  | unlink (folder name : String)
  | rmdir (folder : String)
  | readlink (name : String)
  deriving DecidableEq

def StoreOp.Result : StoreOp → Type
  | .lstat _ => FileKind
  | .readFile _ => List UInt8
  | .readChunks _ => List (List UInt8) × Option OSError
  | .storeInfo => StoreInfo
  | .mkdtemp _ => String
  | .listdir _ => List String
  | .readlink _ => String
  | _ => Unit

abbrev StoreOp.Ans (o : StoreOp) : Type :=
  Except OSError o.Result

/-- What the surroundings decide of one operation. -/
structure Choice where
  fails : Option OSError := none
  kind : FileKind := .regular
  content : List UInt8 := []
  chunks : List (List UInt8) := []
  broken : Option OSError := none
  info : StoreInfo := ⟨.directory, false, true⟩
  /-- The end of a temporary name. -/
  suffix : String := ""
  /-- How much of a write that fails reaches the file. -/
  written : Nat := 0
  /-- The permissions that the umask leaves. -/
  mode : Nat := 0o644

namespace Store

variable {ι : Type}

def folder (s : Store ι) (name : String) : Option Folder :=
  match s.entries name with
  | some (.folder f) => some f
  | _ => none

def setEntry (s : Store ι) (name : String) (node : Option Node) : Store ι :=
  { s with entries := Function.update s.entries name node }

/-- Change one folder, if it is there and allows the change. -/
def inFolder (s : Store ι) (name : String) (change : Folder → Except OSError Folder) :
    Except OSError Unit × Store ι :=
  match s.folder name with
  | none => (.error .fileNotFound, s)
  | some f =>
    match change f with
    | .ok f' => (.ok (), s.setEntry name (some (.folder f')))
    | .error e => (.error e, s)

/-- The lock is given up, if the process holds it. -/
def release [DecidableEq ι] (s : Store ι) (i : ι) : Store ι :=
  if s.holder = some i then { s with holder := none } else s

end Store

def kindOf : Item → FileKind
  | .file _ _ => .regular
  | .link _ => .symlink

def lstat {ι : Type} (c : Choice) (s : Store ι) : Place → Except OSError FileKind
  | .outside _ => .ok c.kind
  | .root => .ok .directory
  | .entry name =>
    match s.entries name with
    | none => .error .fileNotFound
    | some (.item i) => .ok (kindOf i)
    | some (.folder _) => .ok .directory
  | .inside folder name =>
    match (s.folder folder).bind (·.get name) with
    | none => .error .fileNotFound
    | some i => .ok (kindOf i)

/-- A link may lead anywhere, so what is read through one is the choice of the surroundings. -/
def readItem (c : Choice) : Item → List UInt8
  | .file content _ => content
  | .link _ => c.content

def readFile {ι : Type} (c : Choice) (s : Store ι) : Place → Except OSError (List UInt8)
  | .outside _ => .ok c.content
  | .root => .error .other
  | .entry name =>
    match s.entries name with
    | none => .error .fileNotFound
    | some (.item i) => .ok (readItem c i)
    | some (.folder _) => .error .other
  | .inside folder name =>
    match (s.folder folder).bind (·.get name) with
    | none => .error .fileNotFound
    | some i => .ok (readItem c i)

def appendItem (data : List UInt8) (name : String) (f : Folder) : Except OSError Folder :=
  match f.get name with
  | some (.file content mode) => .ok (f.put name (.file (content ++ data) mode))
  | _ => .error .other

def chmodItem (mode : Nat) (name : String) (f : Folder) : Except OSError Folder :=
  match f.get name with
  | none => .error .fileNotFound
  | some (.file content _) => .ok (f.put name (.file content mode))
  | some (.link _) => .ok f

def symlinkItem (target name : String) (f : Folder) : Except OSError Folder :=
  match f.get name with
  | none => .ok (f.put name (.link target))
  | some _ => .error .other

def unlinkItem (name : String) (f : Folder) : Except OSError Folder :=
  match f.get name with
  | none => .error .fileNotFound
  | some _ => .ok (f.remove name)

/-- A directory may be moved onto nothing, or onto an empty directory. -/
def Store.free {ι : Type} (s : Store ι) (name : String) : Bool :=
  match s.entries name with
  | none => true
  | some (.folder g) => g.items.isEmpty
  | some (.item _) => false

/-- `os.rename` of a directory. -/
def renameFolder {ι : Type} (s : Store ι) (name destination : String) :
    Except OSError Unit × Store ι :=
  match s.folder name with
  | none => (.error .fileNotFound, s)
  | some f =>
    if s.free destination then
      (.ok (), (s.setEntry name none).setEntry destination (some (.folder f)))
    else (.error .other, s)

/-- `os.replace` of an item of a folder: onto anything but a directory. -/
def replaceEntry {ι : Type} (s : Store ι) (folder name destination : String) :
    Except OSError Unit × Store ι :=
  match s.folder folder with
  | none => (.error .fileNotFound, s)
  | some f =>
    match f.get name, s.entries destination with
    | none, _ => (.error .fileNotFound, s)
    | some _, some (.folder _) => (.error .other, s)
    | some i, _ =>
      (.ok (), (s.setEntry folder (some (.folder (f.remove name)))).setEntry destination
        (some (.item i)))

section

variable {ι : Type} [DecidableEq ι]

/-- A call that succeeds as far as the surroundings go. -/
def effect (i : ι) (c : Choice) (s : Store ι) : (o : StoreOp) → Option (o.Ans × Store ι)
  | .lstat p => some (lstat c s p, s)
  | .readFile p => some (readFile c s p, s)
  | .openSource _ => some (.ok (), s)
  | .readChunks _ => some (.ok (c.chunks, c.broken), s)
  | .storeInfo => some (.ok c.info, s)
  | .openLock =>
    match s.entries ".admin.lock" with
    | none => some (.ok (), s.setEntry ".admin.lock" (some (.item (.file [] 0o600))))
    | some (.item (.file _ _)) => some (.ok (), s)
    | some _ => some (.error .other, s)
  | .flock =>
    match s.holder with
    | none => some (.ok (), { s with holder := some i })
    | some _ => some (.error .other, s)
  | .closeLock => some (.ok (), s.release i)
  | .mkdtemp start =>
    match s.entries (start ++ c.suffix) with
    | none =>
      some (.ok (start ++ c.suffix),
        s.setEntry (start ++ c.suffix) (some (.folder ⟨[], 0o700⟩)))
    | some _ => none
  | .create folder name =>
    some (s.inFolder folder fun f => .ok (f.put name (.file [] c.mode)))
  | .append folder name data => some (s.inFolder folder (appendItem data name))
  | .chmod (.inside folder name) mode => some (s.inFolder folder (chmodItem mode name))
  | .chmod (.entry folder) mode => some (s.inFolder folder fun f => .ok { f with mode := mode })
  | .chmod _ _ => some (.error .other, s)
  | .fsync _ => some (.ok (), s)
  | .listdir folder =>
    match s.folder folder with
    | none => some (.error .fileNotFound, s)
    | some f => some (.ok (f.items.map Prod.fst), s)
  | .rename folder destination => some (renameFolder s folder destination)
  | .symlink folder name target => some (s.inFolder folder (symlinkItem target name))
  | .replaceEntry folder name destination => some (replaceEntry s folder name destination)
  | .unlink folder name => some (s.inFolder folder (unlinkItem name))
  | .rmdir folder =>
    match s.folder folder with
    | none => some (.error .fileNotFound, s)
    | some f =>
      if f.items.isEmpty then some (.ok (), s.setEntry folder none) else some (.error .other, s)
  | .readlink name =>
    match s.entries name with
    | none => some (.error .fileNotFound, s)
    | some (.item (.link target)) => some (.ok target, s)
    | some _ => some (.error .other, s)

/-- What a call that fails leaves behind: part of a write, and a descriptor closed all the same. -/
def failed (i : ι) (c : Choice) (s : Store ι) : StoreOp → Store ι
  | .append folder name data => (s.inFolder folder (appendItem (data.take c.written) name)).2
  | .closeLock => s.release i
  | _ => s

def exec (i : ι) (o : StoreOp) (c : Choice) (s : Store ι) : Option (o.Ans × Store ι) :=
  match c.fails with
  | some e => some (.error e, failed i c s o)
  | none => effect i c s o

/-- The processes that administer the store. The lock of a process goes when it ends. -/
def machine : Parallel.Machine ι StoreOp StoreOp.Ans Choice (Store ι) where
  exec := exec
  leave i s := s.release i

end

end ModelStore

end Rave
