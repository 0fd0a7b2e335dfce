import ExportTables.CommandLine.Arguments
import ExportTables.Config.File
import ExportTables.Generate
import ExportTables.Text.Line

/-!
# Running the command

A call of the command ends with an exit code and with two texts: the summary of a run that has
succeeded, and everything else, which is the log followed by diagnostics. The code is 0 for success,
1 for a run that has failed and 2 for a call that cannot be understood.

The log and the diagnostics are coloured if they go to a terminal, unless the call asks for no
colour. The help, the version and what is said about a mistake in the arguments are given as they
are printed where there is no terminal.

A call whose run has failed ends without letting go of the error, so a temporary file that belongs
to the error stays.
-/

namespace ExportTables.CommandLine

open FileSystem

/-- How a call of the command has ended. -/
structure Outcome where
  exitCode : Nat := 0
  stdout : String := ""
  stderr : String := ""
  deriving DecidableEq, Repr

/-! ## Texts -/

/-- What the command says about its version. -/
def versionText : String := "qpdf-exports 0.1.0\n"

/-- The column in which the help text explains options. -/
def helpColumn : Nat := 28

/-- The help on the variable that names an include directory, up to the name of the next option.
The lines of its value stay in their column. Names of options are set off by control sequences,
which also end a sequence that the value leaves open. -/
def variableHelp (includeVariable : Option String) : String :=
  let value := Text.indentFollowing (List.replicate helpColumn ' ') (includeVariable.getD "").toList
  String.ofList (Text.visible (value ++ "]\n      ".toList))

/-- What the command says about its use, where `includeVariable` is the include directory that the
environment names. -/
def helpText (includeVariable : Option String) : String :=
  "Generates Emscripten export manifests and a typed mirror from the qpdf C API header\n\n" ++
  "Usage: qpdf-exports [OPTIONS] [OUTPUT_DIR]\n\n" ++
  "Arguments:\n" ++
  "  [OUTPUT_DIR]  Directory the generated files are written to [default: generated]\n\n" ++
  "Options:\n" ++
  "      --qpdf-include <DIR>  qpdf include directory containing qpdf/qpdf-c.h " ++
    "[env: QPDF_INCLUDE=" ++ variableHelp includeVariable ++
  "--config <FILE>       Configuration file overriding the built-in export tables\n" ++
  "      --check               Fail if the generated files are missing or out of date, " ++
    "without writing\n" ++
  "      --dry-run             Show what would be generated without writing anything\n" ++
  "  -v, --verbose             Enable verbose output\n" ++
  "      --no-color            Disable colored output\n" ++
  "  -h, --help                Print help\n" ++
  "  -V, --version             Print version\n"

/-- How the log shows a character: a control character that a terminal might obey is spelled out. -/
def logChar (c : Char) : String :=
  match c.toNat with
  | 0x07 => "\\x07"
  | 0x08 => "\\x08"
  | 0x0C => "\\x0c"
  | 0x1B => "\\x1b"
  | 0x7F => "\\x7f"
  | n =>
    if 0x80 ≤ n ∧ n < 0xA0 then
      "\\u\x7b" ++ String.ofList (Nat.toDigits 16 n) ++ "\x7d"
    else c.toString

/-- The name of a level, right-aligned, in blue, green or yellow if colour is wanted. -/
def levelName (level : Level) (color : Bool) : String :=
  match level, color with
  | .debug, false => "DEBUG"
  | .info, false => " INFO"
  | .warning, false => " WARN"
  | .debug, true => "\x1b[34mDEBUG\x1b[0m"
  | .info, true => "\x1b[32m INFO\x1b[0m"
  | .warning, true => "\x1b[33m WARN\x1b[0m"

/-- The line of an event. -/
def logLine (color : Bool) (e : Event) : String :=
  levelName e.level color ++ " " ++ String.join (e.message.toList.map logChar) ++ "\n"

/-- The log as it is shown. -/
def logText (color verbose : Bool) (events : List Event) : String :=
  String.join ((events.filter fun e => verbose || e.level != .debug).map (logLine color))

/-- What is said about a name that is exported more than once. -/
def duplicateWarning (name : String) (count : Nat) : Diagnostic :=
  { severity := .warning
    message := s!"`{name}` appears {count} times in the export list"
    notes := ["it is declared more than once or is also a manual entry"] }

/-- The line of a file that would be written, with the names in a column of their own. -/
def plannedLine (a : Artifact) : String :=
  let gap := String.ofList (List.replicate (32 - a.fileName.length) ' ')
  s!"  {a.fileName}{gap} {a.fingerprint}\n"

/-- The last part of the summary. -/
def actionText (mode : Mode) (directory : String) (report : Report) : String :=
  match mode with
  | .write => s!"Wrote {report.written.length} files to {directory}\n"
  | .check => s!"Generated files in {directory} are up to date\n"
  | .dryRun =>
    s!"[dry-run] Would write to {directory}:\n" ++ String.join (report.artifacts.map plannedLine)

/-- The summary of a run, where the two paths are given as they are shown. -/
def summary (mode : Mode) (header directory : String) (report : Report) : String :=
  let m := report.manifest
  s!"Discovered {m.discoveredCount} functions in {header} ({m.excludedCount} excluded)\n" ++
  s!"Manual entries: {m.manualCount}\n" ++
  s!"Total exports:  {m.exports.length}\n" ++
  actionText mode directory report

/-! ## Running -/

/-- What a call asks to be done with the rendered files. -/
def Invocation.mode (i : Invocation) : Mode :=
  if i.check then .check else if i.dryRun then .dryRun else .write

/-- What a call asks a run to do under a configuration. -/
def Invocation.options (i : Invocation) (config : Config) : Options :=
  { outputDir := i.outputDir, includeDir := i.includeDir, config := config, mode := i.mode }

/-- Whether what a call says is coloured, where `terminal` tells whether it goes to a terminal. -/
def Invocation.color (i : Invocation) (terminal : Bool) : Bool := !i.noColor && terminal

/-- The line of a failure that has no diagnostic. -/
def errorLine (message : String) : String := s!"error: {message}\n"

/-- What is said about a failed run. -/
def failureText (color : Bool) : RunError → String
  | .fault f => f.diagnostic.render color
  | .output e => errorLine e.message

/-- What is said about a mistake in the arguments, of which the first line is enough. -/
def usageText (e : UsageError) : String :=
  errorLine (String.ofList (Text.firstLine e.message.toList))

variable {m : Type → Type} [Monad m] [FileSystem m]

/-- The configuration of a call, and what the log says about it. -/
def Invocation.loadConfig (i : Invocation) : m (List Event × Except ConfigError Config) := do
  match i.config with
  | some path => return ([], ← Config.load path)
  | none =>
    let events ← do
      if ← pathExists Config.fileName then
        pure [⟨.debug, s!"loading config from {Config.fileName}"⟩]
      else pure []
    return (events, ← Config.loadOrDefault Config.fileName)

/-- Does what a call asks for, where `terminal` tells whether the log goes to a terminal. -/
def Invocation.run (i : Invocation) (terminal : Bool) : m Outcome := do
  let color := i.color terminal
  let (loading, loaded) ← i.loadConfig
  match loaded with
  | .error e =>
    return { exitCode := 1, stderr := logText color i.verbose loading ++ errorLine e.message }
  | .ok config =>
    let (events, result) ← generate (i.options config)
    let log := logText color i.verbose (loading ++ events)
    match result with
    | .error e => return { exitCode := 1, stderr := log ++ failureText color e }
    | .ok report =>
      let here := (← workingDirectory).toOption
      let warnings := report.manifest.duplicates.map fun (name, count) =>
        (duplicateWarning name count).render color
      return {
        stdout := summary i.mode (Path.display here report.header)
          (Path.display here i.outputDir) report
        stderr := log ++ String.join warnings }

/-- Answers a call of the command, where `includeVariable` is the include directory that the
environment names and `terminal` tells whether the log goes to a terminal. -/
def call (includeVariable : Option String) (arguments : List String) (terminal : Bool := false) :
    m Outcome := do
  match Invocation.ofArguments includeVariable arguments with
  | .ok i => i.run terminal
  | .error .help => return { stdout := helpText includeVariable }
  | .error .version => return { stdout := versionText }
  | .error (.usage e) => return { exitCode := 2, stderr := usageText e }

end ExportTables.CommandLine
