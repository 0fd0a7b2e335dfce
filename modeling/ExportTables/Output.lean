import ExportTables.Artifact
import ExportTables.Files.Staging

/-!
# The output directory

The generated files are written into the output directory together, or compared with what is there.
A comparison looks at whole texts and writes nothing. It lists a file as stale if it is missing or
differs, and fails if a file is there but holds no text.
-/

namespace ExportTables

/-- Why generated files could not be written or compared. -/
inductive OutputError where
  | notWritten (directory : String) (cause : StagingError)
  | unreadable (path : String) (cause : FileError)
  deriving DecidableEq, Repr

namespace OutputError

/-- The failure and its causes in words. -/
def message : OutputError → String
  | notWritten directory cause => s!"failed to write artifacts to {directory}: {cause.message}"
  | unreadable path cause => s!"failed to read file: {path}: {cause.message}"

/-- The reason that the system gave, if it was the system that refused. -/
def cause? : OutputError → Option FileError
  | notWritten _ cause => cause.cause?
  | unreadable _ cause => some cause

end OutputError

namespace Output

open FileSystem

variable {m : Type → Type} [Monad m] [FileSystem m]

/-- The text of a file, or nothing if there is no file. -/
def currentText (path : String) : m (Except OutputError (Option String)) := do
  match ← readIfExists path with
  | .ok text => return .ok text
  | .error e => return .error (.unreadable path e)

/-- The names of the generated files that are missing in a directory or differ there, in order. -/
def staleIn (directory : String) : List Artifact → m (Except OutputError (List String))
  | [] => return .ok []
  | a :: rest => do
    match ← currentText (Path.join directory a.fileName) with
    | .error e => return .error e
    | .ok current =>
      match ← staleIn directory rest with
      | .error e => return .error e
      | .ok names =>
        return .ok (if current = some a.contents then names else a.fileName :: names)

/-- Writes generated files into a directory and gives their paths. An error keeps the temporary file
that belongs to it. -/
def writeAll (directory : String) (artifacts : List Artifact) :
    m (Except OutputError (List String)) := do
  match ← Staging.placeFiles directory (artifacts.map fun a => (a.fileName, a.contents)) with
  | .ok written => return .ok written
  | .error e => return .error (.notWritten directory e)

end Output

end ExportTables
