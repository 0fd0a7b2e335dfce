import ExportTables.Files.Error
import ExportTables.Path

/-!
# Access to files

The program reads and writes files through the operations of this class. Everything built on them
runs on any system that offers them: on the files of the machine, and on a file tree that is a
value. An operation fails with a reason, never otherwise, so a caller decides what a failure means.
-/

namespace ExportTables

/-- What a path leads to. -/
inductive FileKind where
  | file | directory
  /-- A device. -/
  | other
  deriving DecidableEq, Repr

/-- What a path names, where a link stands for itself. -/
inductive EntryKind where
  | file (readOnly : Bool)
  | directory
  | link
  /-- A device. -/
  | other
  deriving DecidableEq, Repr

/-- A system of files. -/
class FileSystem (m : Type → Type) where
  /-- The working directory, as an absolute path, unless it has been removed. -/
  workingDirectory : m (Except FileError String)
  /-- What a path leads to. -/
  kind : (path : String) → m (Except FileError FileKind)
  /-- What a path names. -/
  entryKind : (path : String) → m (Except FileError EntryKind)
  /-- The bytes of a file. -/
  readBytes : (path : String) → m (Except FileError ByteArray)
  /-- Writes a file in place, through links, and creates it if there is none. -/
  writeBytes : (path : String) → (contents : ByteArray) → m (Except FileError Unit)
  /-- Creates a directory whose parent exists. -/
  createDirectory : (path : String) → m (Except FileError Unit)
  /-- Creates a file with an unused name in a directory, writes its contents and gives its path. -/
  createTemporary : (directory : String) → (contents : ByteArray) →
    m (Except TemporaryError String)
  /-- Moves a file over another file or link. -/
  rename : (source target : String) → m (Except FileError Unit)
  /-- Removes a file, if that is possible. -/
  remove : (path : String) → m Unit

namespace FileSystem

variable {m : Type → Type} [Monad m] [FileSystem m]

/-- Whether a path leads anywhere. -/
def pathExists (path : String) : m Bool := do
  match ← kind path with
  | .ok _ => return true
  | .error _ => return false

/-- Whether a path leads to a directory. -/
def isDirectory (path : String) : m Bool := do
  match ← kind path with
  | .ok .directory => return true
  | _ => return false

/-- Whether a path leads to a regular file. -/
def isFile (path : String) : m Bool := do
  match ← kind path with
  | .ok .file => return true
  | _ => return false

/-- The text of a file. -/
def readText (path : String) : m (Except FileError String) := do
  match ← readBytes path with
  | .error e => return .error e
  | .ok contents =>
    match String.fromUTF8? contents with
    | some text => return .ok text
    | none => return .error .invalidText

/-- The text of a file, or nothing if there is no file. -/
def readIfExists (path : String) : m (Except FileError (Option String)) := do
  if ← isFile path then
    match ← readText path with
    | .ok text => return .ok (some text)
    | .error e => return .error e
  else return .ok none

/-- Creates a directory with at most `fuel` directories above it, of which each is created only if
the one in it asks for it. -/
def createNestedUpTo : (fuel : Nat) → String → m (Except FileError Unit)
  | 0, _ => return .ok ()
  | fuel + 1, path => do
    if path = "" then return .ok ()
    else match ← createDirectory path with
      | .ok () => return .ok ()
      | .error .notFound =>
        match ← createNestedUpTo fuel ((Path.parent? path).getD "") with
        | .error e => return .error e
        | .ok () =>
          match ← createDirectory path with
          | .ok () => return .ok ()
          | .error e => if ← isDirectory path then return .ok () else return .error e
      | .error e => if ← isDirectory path then return .ok () else return .error e

/-- Creates a directory with the directories above it. The empty path asks for none, and no path
has more directories above it than characters. -/
def createNested (path : String) : m (Except FileError Unit) :=
  createNestedUpTo (path.length + 1) path

end FileSystem

end ExportTables
