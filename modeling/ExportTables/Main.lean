import ExportTables.CommandLine.Run

/-!
# The command

The command runs on the files of the machine. This module names the operations that the system
offers for each access to files, and hands the arguments over.
-/

namespace ExportTables.Main

/-- The reason with the system's number and words. -/
def reason (code : UInt32) (details : String) : FileError :=
  match code.toNat with
  | 2 => .notFound
  | 13 => .permissionDenied
  | 17 => .alreadyExists
  | 20 => .notADirectory
  | 21 => .isADirectory
  | 22 => .invalidArgument
  | 36 => .nameTooLong
  | 40 => .tooManyLinks
  | n => .other s!"{details} (os error {n})"

/-- The reason of a failed operation. -/
def reasonOf : IO.Error → FileError
  | .alreadyExists _ code details | .inappropriateType _ code details
  | .invalidArgument _ code details | .noSuchThing _ code details
  | .permissionDenied _ code details | .resourceExhausted _ code details
  | .interrupted _ code details | .noFileOrDirectory _ code details
  | .otherError code details | .resourceBusy code details | .resourceVanished code details
  | .unsupportedOperation code details | .hardwareFault code details
  | .unsatisfiedConstraints code details | .illegalOperation code details
  | .protocolError code details | .timeExpired code details => reason code details
  | .unexpectedEof => .other "unexpected end of file"
  | .userError message => .other message

/-- An operation whose failure is a value. -/
def attempt {α : Type} (operation : IO α) : IO (Except FileError α) := do
  try return .ok (← operation)
  catch e => return .error (reasonOf e)

/-- Checks that a file can be opened in a mode. -/
def probe (path : String) (mode : IO.FS.Mode) : IO (Except FileError Unit) :=
  attempt do
    let _ ← IO.FS.Handle.mk path mode

/-- What a path leads to. A directory is what has an entry `.` of its own, and whatever else can be
read counts as a file. -/
def kind (path : String) : IO (Except FileError FileKind) := do
  match ← probe path .read with
  | .error e => return .error e
  | .ok () =>
    match ← probe (path ++ "/.") .read with
    | .ok () => return .ok .directory
    | .error _ => return .ok .file

/-- Whether a path names a link, which is somewhere else than its name tells. -/
def isLink (path : String) : IO Bool := do
  match (Path.components path).getLast? with
  | some (.name name) =>
    let directory := (Path.parent? path).filter (· != "")
    let place ← attempt (IO.FS.realPath (directory.getD "."))
    let target ← attempt (IO.FS.realPath path)
    match place, target with
    | .ok place, .ok target => return Path.join place.toString name != target.toString
    | _, _ => return false
  | _ => return false

/-- What a path names. A file counts as read-only if it cannot be opened for writing. -/
def entryKind (path : String) : IO (Except FileError EntryKind) := do
  if ← isLink path then return .ok .link
  else match ← kind path with
    | .error e => return .error e
    | .ok .directory => return .ok .directory
    | .ok .other => return .ok .other
    | .ok .file =>
      match ← probe path .readWrite with
      | .ok () => return .ok (.file false)
      | .error _ => return .ok (.file true)

/-- A letter or digit at random. -/
def randomChar : IO Char := do
  let n ← IO.rand 0 61
  return Char.ofNat (if n < 10 then 48 + n else if n < 36 then 55 + n else 61 + n)

/-- Removes a file, if that is possible. -/
def remove (path : String) : IO Unit := do
  let _ ← attempt (IO.FS.removeFile path)

/-- Creates a file with a random name, in as many attempts as it takes to find one that is not in
use but at most in `attempts`. A file that cannot be written is removed again. -/
def createTemporary (directory : String) (contents : ByteArray) :
    (attempts : Nat) → IO (Except TemporaryError String)
  | 0 => return .error (.notCreated (some directory) .alreadyExists)
  | attempts + 1 => do
    let letters ← (List.replicate 6 ()).mapM fun _ => randomChar
    let path := Path.join directory (".tmp" ++ String.ofList letters)
    match ← probe path .writeNew with
    | .error .alreadyExists => createTemporary directory contents attempts
    | .error e => return .error (.notCreated (some path) e)
    | .ok () =>
      match ← attempt (IO.FS.writeBinFile path contents) with
      | .ok () => return .ok path
      | .error e =>
        remove path
        return .error (.notWritten e)

instance : FileSystem IO where
  workingDirectory := attempt do return (← IO.currentDir).toString
  kind := kind
  entryKind := entryKind
  readBytes path := attempt (IO.FS.readBinFile path)
  writeBytes path contents := attempt (IO.FS.writeBinFile path contents)
  createDirectory path := attempt (IO.FS.createDir path)
  createTemporary directory contents := do
    if Path.isAbsolute directory then createTemporary directory contents 100
    else match ← attempt IO.currentDir with
      | .ok here => createTemporary (Path.join here.toString directory) contents 100
      | .error e => return .error (.notCreated none e)
  rename source target := attempt (IO.FS.rename source target)
  remove := remove

end ExportTables.Main

/-- Answers one call of the command. -/
def main (arguments : List String) : IO UInt32 := do
  let includeVariable ← IO.getEnv "QPDF_INCLUDE"
  let terminal ← (← IO.getStderr).isTty
  let outcome ← ExportTables.CommandLine.call includeVariable arguments terminal
  IO.eprint outcome.stderr
  IO.print outcome.stdout
  return UInt32.ofNat outcome.exitCode
