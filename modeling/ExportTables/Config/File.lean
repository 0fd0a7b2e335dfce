import ExportTables.Config.Reading
import ExportTables.Config.Writing
import ExportTables.Files.Access
import ExportTables.Path

/-!
# Configuration files

A configuration file is read as a whole or not at all. A file that is missing stands for the
built-in defaults only where nobody asked for it by name.
-/

namespace ExportTables

/-- Why a configuration could not be read or written. -/
inductive ConfigError where
  | unreadable (path : String) (cause : FileError)
  | malformed (path : String)
  | directoryNotMade (path : String) (cause : FileError)
  | unwritable (path : String) (cause : FileError)
  deriving DecidableEq, Repr

namespace ConfigError

/-- The failure and its causes in words. Of a text that is malformed only the path is told: what the
reader of the text has to say about it is left out. -/
def message : ConfigError → String
  | unreadable path cause => s!"failed to read config: {path}: {cause.message}"
  | malformed path => s!"failed to parse config: {path}"
  | directoryNotMade path cause => s!"failed to create config directory: {path}: {cause.message}"
  | unwritable path cause => s!"failed to write config: {path}: {cause.message}"

/-- The reason that the system gave, if it was the system that refused. -/
def cause? : ConfigError → Option FileError
  | unreadable _ cause => some cause
  | malformed _ => none
  | directoryNotMade _ cause => some cause
  | unwritable _ cause => some cause

end ConfigError

namespace Config

open FileSystem

variable {m : Type → Type} [Monad m] [FileSystem m]

/-- Reads a configuration file. -/
def load (path : String) : m (Except ConfigError Config) := do
  match ← readText path with
  | .error e => return .error (.unreadable path e)
  | .ok text =>
    match ofText? text with
    | some config => return .ok config
    | none => return .error (.malformed path)

/-- Reads a configuration file, or gives the defaults if there is nothing at the path. -/
def loadOrDefault (path : String) : m (Except ConfigError Config) := do
  if ← pathExists path then load path else return .ok {}

/-- Writes a configuration file, and makes its directory if need be. -/
def save (config : Config) (path : String) : m (Except ConfigError Unit) := do
  let directory := (Path.parent? path).getD ""
  match ← createNested directory with
  | .error e => return .error (.directoryNotMade directory e)
  | .ok () =>
    match ← writeBytes path config.toText.toUTF8 with
    | .ok () => return .ok ()
    | .error e => return .error (.unwritable path e)

end Config

end ExportTables
