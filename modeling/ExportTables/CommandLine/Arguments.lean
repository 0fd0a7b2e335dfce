import ExportTables.Text.ControlSequence

/-!
# The arguments of the command

The command takes one positional argument, two options with a value, and flags. An option takes its
value from behind an equals sign or from the next argument, unless that is an option or a flag
itself; short flags can be joined; and behind `--` every argument is positional.

An argument whose value comes separately is checked only when the next argument has been understood,
so of two mistakes the later one can be reported: one that cannot be understood at all goes before
the check. Nothing may be given twice.
-/

namespace ExportTables.CommandLine

/-- What can be given to the command. -/
inductive Argument where
  | outputDir | includeDir | config | check | dryRun | verbose | noColor
  deriving DecidableEq, Repr

/-- How a message names an argument. -/
def Argument.usage : Argument → String
  | outputDir => "[OUTPUT_DIR]"
  | includeDir => "--qpdf-include <DIR>"
  | config => "--config <FILE>"
  | check => "--check"
  | dryRun => "--dry-run"
  | verbose => "--verbose"
  | noColor => "--no-color"

/-- Whether an argument has a value. -/
def Argument.hasValue : Argument → Bool
  | outputDir | includeDir | config => true
  | check | dryRun | verbose | noColor => false

/-- What a name behind hyphens can stand for. -/
inductive Switch where
  | argument (a : Argument)
  | help
  | version
  deriving DecidableEq, Repr

/-- How a message names a switch. -/
def Switch.usage : Switch → String
  | argument a => a.usage
  | help => "--help"
  | version => "--version"

/-- What a name behind two hyphens stands for. -/
def Switch.ofName? : String → Option Switch
  | "qpdf-include" => some (argument .includeDir)
  | "config" => some (argument .config)
  | "check" => some (argument .check)
  | "dry-run" => some (argument .dryRun)
  | "verbose" => some (argument .verbose)
  | "no-color" => some (argument .noColor)
  | "help" => some help
  | "version" => some version
  | _ => none

/-- What a letter behind one hyphen stands for. -/
def Switch.ofLetter? : Char → Option Switch
  | 'v' => some (argument .verbose)
  | 'h' => some help
  | 'V' => some version
  | _ => none

/-- A mistake in the arguments. -/
inductive UsageError where
  | unexpectedArgument (text : String)
  | unexpectedValue (value : String) (flag : Switch)
  | missingValue (a : Argument)
  | repeated (a : Argument)
  /-- Two arguments that exclude each other, in the order in which they are given. -/
  | conflict (first second : Argument)
  deriving DecidableEq, Repr

/-- The visible part of a text that has been given, so that it cannot act on the terminal. -/
def shown (given : String) : String := String.ofList (Text.visible given.toList)

/-- The mistake in words. -/
def UsageError.message : UsageError → String
  | unexpectedArgument text => s!"unexpected argument '{shown text}' found"
  | unexpectedValue value flag =>
    s!"unexpected value '{shown value}' for '{flag.usage}' found; no more were expected"
  | missingValue a => s!"a value is required for '{a.usage}' but none was supplied"
  | repeated a => s!"the argument '{a.usage}' cannot be used multiple times"
  | conflict first second =>
    s!"the argument '{first.usage}' cannot be used with '{second.usage}'"

/-- What ends the reading of the arguments early. -/
inductive Stop where
  | usage (error : UsageError)
  | help
  | version
  deriving DecidableEq, Repr

/-- What has been read of the arguments. -/
structure Reading where
  /-- The arguments that have been checked, in order; a flag has an empty value. -/
  given : List (Argument × String) := []
  /-- An argument that has not been checked yet, with its value if that has been read. -/
  pending : Option (Argument × Option String) := none
  /-- Whether every further argument is positional. -/
  positionalOnly : Bool := false

namespace Reading

/-- Whether an argument has been checked. -/
def has (r : Reading) (a : Argument) : Bool := (r.given.lookup a).isSome

/-- Adds an argument. -/
def add (r : Reading) (a : Argument) (value : String) : Except Stop Reading :=
  if r.has a then .error (.usage (.repeated a))
  else if a.hasValue ∧ value = "" then .error (.usage (.missingValue a))
  else .ok { r with given := r.given ++ [(a, value)] }

/-- Checks the pending argument. -/
def settle (r : Reading) : Except Stop Reading :=
  match r.pending with
  | none => .ok r
  | some (a, none) => .error (.usage (.missingValue a))
  | some (a, some value) => { r with pending := none }.add a value

/-- Reads a switch without an equals sign. -/
def readSwitch (r : Reading) (switch : Switch) : Except Stop Reading := do
  let r ← r.settle
  match switch with
  | .help => .error .help
  | .version => .error .version
  | .argument a => if a.hasValue then .ok { r with pending := some (a, none) } else r.add a ""

/-- Reads a switch with an equals sign and a value. -/
def readAssigned (r : Reading) (switch : Switch) (value : String) : Except Stop Reading := do
  match switch with
  | .argument a =>
    if a.hasValue then (← r.settle).add a value
    else .error (.usage (.unexpectedValue value switch))
  | _ => .error (.usage (.unexpectedValue value switch))

/-- Reads what stands behind two hyphens. -/
def readLong (r : Reading) (text : List Char) : Except Stop Reading :=
  let name := String.ofList (text.takeWhile (· != '='))
  match Switch.ofName? name, text.dropWhile (· != '=') with
  | none, _ => .error (.usage (.unexpectedArgument ("--" ++ name)))
  | some switch, [] => r.readSwitch switch
  | some switch, _ :: value => r.readAssigned switch (String.ofList value)

/-- Reads letters behind one hyphen. -/
def readLetters (r : Reading) : List Char → Except Stop Reading
  | [] => .ok r
  | c :: rest =>
    match Switch.ofLetter? c with
    | none => .error (.usage (.unexpectedArgument (String.ofList ['-', c])))
    | some switch => do (← r.readSwitch switch).readLetters rest

/-- Reads a positional argument, of which there is only one. -/
def readPositional (r : Reading) (text : String) : Except Stop Reading :=
  let isGiven := r.has .outputDir || r.pending.any fun (a, _) => a = .outputDir
  if isGiven then .error (.usage (.unexpectedArgument text))
  else do return { ← r.settle with pending := some (.outputDir, some text) }

/-- Reads an argument that is no switch: a value if one is due, else a positional argument. -/
def readPlain (r : Reading) (text : String) : Except Stop Reading :=
  match r.pending with
  | some (a, none) => .ok { r with pending := some (a, some text) }
  | _ => r.readPositional text

/-- Reads one argument. -/
def read (r : Reading) (text : String) : Except Stop Reading :=
  if r.positionalOnly then r.readPositional text
  else match text.toList with
    | ['-', '-'] => .ok { r with positionalOnly := true }
    | '-' :: '-' :: name => r.readLong name
    | '-' :: c :: letters => r.readLetters (c :: letters)
    | _ => r.readPlain text

/-- Takes the include directory from the environment if no argument names one. -/
def readEnvironment (r : Reading) : Option String → Except Stop Reading
  | none => .ok r
  | some value => if r.has .includeDir then .ok r else r.add .includeDir value

/-- Checks that a run is not asked both to check and to do nothing. -/
def checkConflicts (r : Reading) : Except Stop Reading :=
  match r.given.filter fun (a, _) => a = .check || a = .dryRun with
  | (first, _) :: (second, _) :: _ => .error (.usage (.conflict first second))
  | _ => .ok r

end Reading

/-- What a call of the command asks for. -/
structure Invocation where
  outputDir : String
  includeDir : Option String
  config : Option String
  check : Bool
  dryRun : Bool
  verbose : Bool
  noColor : Bool
  deriving DecidableEq, Repr

/-- Reads the arguments of the command, where `includeVariable` is the include directory that the
environment names. -/
def Invocation.ofArguments (includeVariable : Option String) (arguments : List String) :
    Except Stop Invocation := do
  let r ← arguments.foldlM Reading.read {}
  let r ← (← (← r.settle).readEnvironment includeVariable).checkConflicts
  return {
    outputDir := (r.given.lookup .outputDir).getD "generated"
    includeDir := r.given.lookup .includeDir
    config := r.given.lookup .config
    check := r.has .check
    dryRun := r.has .dryRun
    verbose := r.has .verbose
    noColor := r.has .noColor }

end ExportTables.CommandLine
