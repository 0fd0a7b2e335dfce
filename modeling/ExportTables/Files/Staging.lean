import ExportTables.Files.Access
import ExportTables.Path

/-!
# Writing files together

Several files are written into a directory as one step. First the directory is made, then every
target is checked, then all contents go to temporary files in the directory, and only when all of
them are there are they moved over their targets. A failure before the first move changes no
target and leaves no temporary file.

A move that fails all the same ends the step: the targets before it have been replaced, and the
temporary files behind it are removed. The file that could not be moved stays for as long as
somebody holds the error; letting go of the error removes it (`release`). `placeFiles` is the step
as it returns, and `writeFiles` is the step after which its error has been let go.

A target that is a link is replaced itself; what it stands for stays as it is.
-/

namespace ExportTables

/-- Why files could not be written. -/
inductive StagingError where
  | directoryNotMade (path : String) (cause : FileError)
  | targetIsDirectory (path : String)
  | targetIsReadOnly (path : String)
  | temporaryNotMade (directory : String) (path : Option String) (cause : FileError)
  | temporaryNotWritten (target : String) (cause : FileError)
  /-- The temporary file that could not be moved belongs to the error. -/
  | targetNotReplaced (path temporary : String) (cause : FileError)
  deriving DecidableEq, Repr

namespace StagingError

/-- The failure and its causes in words. -/
def message : StagingError → String
  | directoryNotMade path cause => s!"failed to create directory: {path}: {cause.message}"
  | targetIsDirectory path => s!"cannot write file: {path} is a directory"
  | targetIsReadOnly path => s!"cannot write file: {path} is read-only"
  | temporaryNotMade directory path cause =>
    let place := path.elim "" fun path => s!" at path {Path.quoted path}"
    s!"failed to create temporary file in {directory}: {cause.message}{place}"
  | temporaryNotWritten target cause => s!"failed to write {target}: {cause.message}"
  | targetNotReplaced path _ cause =>
    s!"failed to write file: {path}: failed to persist temporary file: " ++
      s!"{cause.message}: {cause.message}"

/-- The reason that the system gave, if it was the system that refused. -/
def cause? : StagingError → Option FileError
  | directoryNotMade _ cause => some cause
  | targetIsDirectory _ => none
  | targetIsReadOnly _ => none
  | temporaryNotMade _ _ cause => some cause
  | temporaryNotWritten _ cause => some cause
  | targetNotReplaced _ _ cause => some cause

/-- The failure of a file that should have been staged for a target in a directory. -/
def ofTemporary (directory target : String) : TemporaryError → StagingError
  | .notCreated path cause => temporaryNotMade directory path cause
  | .notWritten cause => temporaryNotWritten target cause

end StagingError

namespace Staging

open FileSystem

variable {m : Type → Type} [Monad m] [FileSystem m]

/-- The targets in a directory, each with its contents, of files that are given by their names. -/
def changes (directory : String) (files : List (String × String)) : List (String × String) :=
  files.map fun file => (Path.join directory file.1, file.2)

/-- Makes a directory with its parents, unless the path leads somewhere already. -/
def ensureDirectory (path : String) : m (Except StagingError Unit) := do
  if ← pathExists path then return .ok ()
  else match ← createNested path with
    | .ok () => return .ok ()
    | .error e => return .error (.directoryNotMade path e)

/-- Checks that a file can be put at the target. -/
def checkTarget (target : String) : m (Except StagingError Unit) := do
  match ← entryKind target with
  | .ok .directory => return .error (.targetIsDirectory target)
  | .ok (.file true) => return .error (.targetIsReadOnly target)
  | _ => return .ok ()

/-- Checks targets in order, up to the first that is refused. -/
def checkTargets : List String → m (Except StagingError Unit)
  | [] => return .ok ()
  | target :: rest => do
    match ← checkTarget target with
    | .ok () => checkTargets rest
    | .error e => return .error e

/-- Removes temporary files. -/
def discard : List String → m Unit
  | [] => return ()
  | path :: rest => do
    remove path
    discard rest

/-- Writes the contents of changes to temporary files of a directory and gives the paths of these in
order. On failure those made so far, of which `made` are older than this call, are removed. -/
def stage (directory : String) (made : List String) :
    List (String × String) → m (Except StagingError (List String))
  | [] => return .ok made
  | (target, contents) :: rest => do
    match ← createTemporary directory contents.toUTF8 with
    | .ok path => stage directory (made ++ [path]) rest
    | .error e =>
      discard made
      return .error (.ofTemporary directory target e)

/-- Moves temporary files over their targets in order. After a failure the files behind the one that
could not be moved are removed. -/
def replaceTargets : List (String × String) → m (Except StagingError Unit)
  | [] => return .ok ()
  | (path, target) :: rest => do
    match ← rename path target with
    | .ok () => replaceTargets rest
    | .error e =>
      discard (rest.map Prod.fst)
      return .error (.targetNotReplaced target path e)

/-- Writes files, given by name and contents, into a directory and gives their paths. -/
def placeFiles (directory : String) (files : List (String × String)) :
    m (Except StagingError (List String)) := do
  let targets := (changes directory files).map Prod.fst
  match ← ensureDirectory directory with
  | .error e => return .error e
  | .ok () =>
    match ← checkTargets targets with
    | .error e => return .error e
    | .ok () =>
      match ← stage directory [] (changes directory files) with
      | .error e => return .error e
      | .ok made =>
        match ← replaceTargets (made.zip targets) with
        | .error e => return .error e
        | .ok () => return .ok targets

/-- Lets go of an error, and so removes the temporary file that belongs to it. -/
def release : StagingError → m Unit
  | .targetNotReplaced _ temporary _ => remove temporary
  | _ => return ()

/-- A step whose error has been let go. -/
def releasing {α : Type} (step : m (Except StagingError α)) : m (Except StagingError α) := do
  match ← step with
  | .ok a => return .ok a
  | .error e =>
    release e
    return .error e

/-- Writes files as `placeFiles` does and leaves no temporary file behind. -/
def writeFiles (directory : String) (files : List (String × String)) :
    m (Except StagingError (List String)) :=
  releasing (placeFiles directory files)

end Staging

end ExportTables
