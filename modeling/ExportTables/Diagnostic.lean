/-!
# Diagnostics

A diagnostic tells the user about one failure or one suspicious thing: a line with the severity and
the message, the file it is about, notes and a hint. Only the severity is coloured.
-/

namespace ExportTables

/-- How bad the matter is. -/
inductive Severity where
  | error | warning
  deriving DecidableEq, Repr

/-- A message for the user. -/
structure Diagnostic where
  severity : Severity
  message : String
  location : Option String := none
  notes : List String := []
  help : Option String := none
  deriving DecidableEq, Repr

/-- The name of a severity, in bold red or yellow if colour is wanted. -/
def Severity.label (s : Severity) (color : Bool) : String :=
  match s, color with
  | .error, false => "error"
  | .warning, false => "warning"
  | .error, true => "\x1b[1;31merror\x1b[0m"
  | .warning, true => "\x1b[1;33mwarning\x1b[0m"

namespace Diagnostic

/-- The diagnostic with this location instead of the one it had. -/
def withLocation (d : Diagnostic) (path : String) : Diagnostic := { d with location := some path }

/-- The diagnostic with one more note at the end. -/
def withNote (d : Diagnostic) (note : String) : Diagnostic := { d with notes := d.notes ++ [note] }

/-- The diagnostic with this hint instead of the one it had. -/
def withHelp (d : Diagnostic) (help : String) : Diagnostic := { d with help := some help }

/-- The lines of a diagnostic, each with its newline. -/
def render (d : Diagnostic) (color : Bool) : String :=
  let location := d.location.elim "" fun path => s!"  --> {path}\n"
  let notes := String.join (d.notes.map fun note => s!"  = note: {note}\n")
  let help := d.help.elim "" fun help => s!"  = help: {help}\n"
  s!"{d.severity.label color}: {d.message}\n" ++ location ++ notes ++ help

end Diagnostic

end ExportTables
