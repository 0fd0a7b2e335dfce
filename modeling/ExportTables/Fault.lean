import ExportTables.Diagnostic
import ExportTables.Files.Error

/-!
# Faults of a run

A run can fail for reasons that the user is expected to meet: the header is missing or cannot be
read, or a check finds generated files that are not up to date. Each of them is explained by a
diagnostic with a hint. Whatever else goes wrong is told in one line.
-/

namespace ExportTables

/-- A failure that is explained to the user. -/
inductive Fault where
  | headerNotFound (path : String)
  | headerUnreadable (path : String) (cause : FileError)
  /-- Generated files in the directory are missing or differ; these are their names. -/
  | staleArtifacts (directory : String) (names : List String)
  deriving DecidableEq, Repr

namespace Fault

/-- The failure in one line, without its cause. -/
def headline : Fault → String
  | headerNotFound path => s!"header not found: {path}"
  | headerUnreadable path _ => s!"failed to read header: {path}"
  | staleArtifacts directory names => s!"{names.length} artifact(s) out of date in {directory}"

/-- The reason that the system gave, if there is one. -/
def cause? : Fault → Option FileError
  | headerUnreadable _ cause => some cause
  | _ => none

/-- The failure and its cause in one line. -/
def message (fault : Fault) : String :=
  match fault.cause? with
  | some cause => s!"{fault.headline}: {cause.message}"
  | none => fault.headline

/-- The name under which the failure is documented. -/
def code : Fault → String
  | headerNotFound _ => "qpdf_exports::header::not_found"
  | headerUnreadable _ _ => "qpdf_exports::header::unreadable"
  | staleArtifacts _ _ => "qpdf_exports::check::stale"

/-- What the user can do about the failure. -/
def help : Fault → String
  | headerNotFound _ => "Pass the qpdf include directory with `--qpdf-include <DIR>`"
  | headerUnreadable _ _ => "Check that the header is a readable UTF-8 file"
  | staleArtifacts _ _ => "Run `qpdf-exports` without `--check` to regenerate them"

/-- The note of every failure that comes before any file is written. -/
def nothingWritten : String := "no output files were written"

/-- The failure in full. -/
def diagnostic (fault : Fault) : Diagnostic :=
  let described : Diagnostic := match fault with
    | headerNotFound path =>
      { severity := .error
        message := s!"could not find the qpdf C header at `{path}`"
        location := some path
        notes := [nothingWritten] }
    | headerUnreadable path cause =>
      { severity := .error
        message := s!"could not read `{path}`"
        location := some path
        notes := [cause.message, nothingWritten] }
    | staleArtifacts directory names =>
      { severity := .error
        message := s!"generated exports in `{directory}` are out of date"
        notes := names.map fun name => s!"{name} does not match the header" }
  described.withHelp fault.help

end Fault

end ExportTables
