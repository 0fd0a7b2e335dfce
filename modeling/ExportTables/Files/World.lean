import ExportTables.Files.Access
import ExportTables.Files.Tree

/-!
# File trees as file systems

A file tree together with a working directory offers all file operations, as computations that
pass the tree along. A temporary file gets a name that no entry of the tree has, and its path is
absolute, so that it means the same file for as long as no directory on the way is replaced.
-/

namespace ExportTables

/-- A file tree and the working directory in it. -/
structure World where
  tree : FileTree := {}
  here : WorkingDirectory := {}

namespace World

/-- The path of the working directory, unless that has been removed. -/
def herePath (w : World) : Except FileError String :=
  if w.here.removed then .error .notFound else .ok ("/" ++ "/".intercalate w.here.location)

/-- The world after an operation that yields a new tree, and whether it failed. -/
def update (w : World) (result : Except FileError FileTree) : Except FileError Unit × World :=
  match result with
  | .ok tree => (.ok (), { w with tree := tree })
  | .error e => (.error e, w)

/-- What a path leads to. -/
def kind (w : World) (path : String) : Except FileError FileKind :=
  (w.tree.lookup w.here path).map fun
    | .directory _ => .directory
    | .null => .other
    | _ => .file

/-- What a path names. -/
def entryKind (w : World) (path : String) : Except FileError EntryKind :=
  (w.tree.lookupEntry w.here path).map fun
    | .directory _ => .directory
    | .file _ readOnly => .file readOnly
    | .link _ => .link
    | .null => .other

/-- Creates a file at a path for temporary use. -/
def createTemporaryAt (w : World) (path : String) (contents : ByteArray) :
    Except TemporaryError String × World :=
  match w.tree.create w.here path (.file contents false) with
  | .ok tree => (.ok path, { w with tree := tree })
  | .error e => (.error (.notCreated (some path) e), w)

/-- The absolute path of a directory, which the paths of temporary files in it start with. -/
def temporaryBase (w : World) (directory : String) : Except FileError String :=
  if Path.isAbsolute directory then .ok directory
  else w.herePath.map fun here => Path.join here directory

/-- Creates a file with an unused name in a directory. -/
def createTemporary (w : World) (directory : String) (contents : ByteArray) :
    Except TemporaryError String × World :=
  match w.temporaryBase directory with
  | .ok base => w.createTemporaryAt (Path.join base w.tree.freshName) contents
  | .error e => (.error (.notCreated none e), w)

/-- Removes a file, if that is possible. -/
def remove (w : World) (path : String) : World :=
  match w.tree.remove w.here path with
  | .ok tree => { w with tree := tree }
  | .error _ => w

/-- The world with a tree from which directories have been removed, maybe the working directory. -/
def afterRemoval (w : World) (tree : FileTree) : World :=
  let remains := (tree.get? w.here.location).any Entry.isDirectory
  ⟨tree, { w.here with removed := w.here.removed || !remains }⟩

/-- Removes what a path names, a directory with all that is in it. A directory is emptied first and
then removed by the same path. If that leads nowhere any more, nothing is left to do; if it names
the directory in a way in which it cannot be removed, the empty directory stays. -/
def removeAll (w : World) (path : String) : Except FileError Unit × World :=
  match w.tree.resolveEntry w.here path, w.tree.lookupEntry w.here path with
  | .ok location, .ok (.directory _) =>
    if location.all w.tree.canClear then
      let emptied := w.afterRemoval (location.elim w.tree w.tree.clear)
      match emptied.tree.removeDirectory emptied.here path with
      | .ok tree => (.ok (), emptied.afterRemoval tree)
      | .error .notFound => (.ok (), emptied)
      | .error e => (.error e, emptied)
    else (.error .permissionDenied, w)
  | _, _ => w.update (w.tree.remove w.here path)

instance : FileSystem (StateM World) where
  workingDirectory := modifyGet fun w => (w.herePath, w)
  kind path := modifyGet fun w => (w.kind path, w)
  entryKind path := modifyGet fun w => (w.entryKind path, w)
  readBytes path := modifyGet fun w => (w.tree.read w.here path, w)
  writeBytes path contents := modifyGet fun w => w.update (w.tree.write w.here path contents)
  createDirectory path :=
    modifyGet fun w => w.update (w.tree.create w.here path (.directory true))
  createTemporary directory contents := modifyGet fun w => w.createTemporary directory contents
  rename source target := modifyGet fun w => w.update (w.tree.rename w.here source target)
  remove path := modify fun w => w.remove path

end World

end ExportTables
