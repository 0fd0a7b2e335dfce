import ExportTables.Event
import ExportTables.Fault
import ExportTables.Header
import ExportTables.Output

/-!
# Generating the files

A run reads the header, assembles the manifest and renders all files before it touches the output
directory. Then it writes them, or compares them with what is there, or leaves it at that. A run
that cannot read the header therefore changes nothing.

A run gives its log together with its outcome, since the log of a run that fails is wanted too.
-/

namespace ExportTables

/-- What is done with the rendered files. -/
inductive Mode where
  | write
  | check
  | dryRun
  deriving DecidableEq, Repr

/-- What a run is asked to do. -/
structure Options where
  outputDir : String := "generated"
  /-- The include directory that takes the place of the configured one. -/
  includeDir : Option String := none
  config : Config := {}
  mode : Mode := .write
  deriving DecidableEq, Repr

/-- The path of the header. -/
def Options.headerPath (o : Options) : String :=
  Path.join (o.includeDir.getD o.config.header.includeDir) o.config.header.file

/-- Which declarations of the header are exported. -/
def HeaderConfig.rule (c : HeaderConfig) : Header.ExportRule := ⟨c.marker, c.namePrefix⟩

/-- What a run has found and done. -/
structure Report where
  header : String
  manifest : Manifest
  artifacts : List Artifact
  written : List String
  deriving DecidableEq, Repr

/-- Why a run has failed. -/
inductive RunError where
  /-- A failure that is explained to the user. -/
  | fault (fault : Fault)
  | output (error : OutputError)
  deriving DecidableEq, Repr

/-- The failure and its causes in words. -/
def RunError.message : RunError → String
  | fault f => f.message
  | output e => e.message

open FileSystem

variable {m : Type → Type} [Monad m] [FileSystem m]

/-- Reads the header at a path. -/
def Header.load (rule : ExportRule) (path : String) : m (Except Fault Header) := do
  if ← isFile path then
    match ← readText path with
    | .ok text => return .ok (Header.ofText rule path text)
    | .error e => return .error (.headerUnreadable path e)
  else return .error (.headerNotFound path)

/-- What the log says about the names found in a header. -/
def Header.findings (rule : ExportRule) (header : Header) : List Event :=
  header.symbols.map (fun name => ⟨.debug, s!"discovered {name}"⟩) ++
    if header.symbols.isEmpty then
      [⟨.warning, s!"no `{rule.marker}` declarations with prefix `{rule.namePrefix}` " ++
        s!"found in {header.source}"⟩]
    else []

/-- What the log says about the way from the names of a header to the manifest. -/
def Manifest.findings (m : Manifest) (exclude symbols : List String) : List Event :=
  (symbols.filter exclude.contains).map (fun name => ⟨.debug, s!"excluding {name}"⟩) ++
    [⟨.debug, s!"{m.manualCount} manual, {m.discoveredCount} discovered, " ++
      s!"{m.excludedCount} excluded"⟩]

/-- Does with the rendered files what the run is asked to do, and gives the paths written and what
the log says about it. -/
def Options.finish (o : Options) (artifacts : List Artifact) :
    m (Except RunError (List String × List Event)) := do
  match o.mode with
  | .dryRun => return .ok ([], [])
  | .check =>
    match ← Output.staleIn o.outputDir artifacts with
    | .error e => return .error (.output e)
    | .ok [] => return .ok ([], [⟨.info, s!"artifacts in {o.outputDir} are up to date"⟩])
    | .ok stale => return .error (.fault (.staleArtifacts o.outputDir stale))
  | .write =>
    match ← Output.writeAll o.outputDir artifacts with
    | .error e => return .error (.output e)
    | .ok written =>
      return .ok (written,
        artifacts.map fun a => ⟨.debug, s!"wrote {a.fileName} ({a.fingerprint})"⟩)

/-- Runs from the header to the output directory. -/
def generate (o : Options) : m (List Event × Except RunError Report) := do
  let path := o.headerPath
  let rule := o.config.header.rule
  let started : List Event := [⟨.info, s!"scanning {path}"⟩]
  match ← Header.load rule path with
  | .error fault => return (started, .error (.fault fault))
  | .ok header =>
    let manifest := Manifest.ofDiscovered header.symbols o.config
    let artifacts := manifest.artifacts
    let found := started ++ header.findings rule ++
      manifest.findings o.config.exports.exclude header.symbols
    match ← o.finish artifacts with
    | .error e => return (found, .error e)
    | .ok (written, events) =>
      return (found ++ events, .ok ⟨path, manifest, artifacts, written⟩)

end ExportTables
