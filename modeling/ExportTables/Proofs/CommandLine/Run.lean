import ExportTables.CommandLine.Run
import ExportTables.Proofs.Artifact
import ExportTables.Proofs.Config.File
import ExportTables.Proofs.Duplicates
import ExportTables.Proofs.Generate
import ExportTables.Proofs.Manifest

/-!
# What the command reports

A call that can be understood loads a configuration, runs, and reports. Each of the first two steps
can fail and then nothing is reported but the failure. What is reported of a run that succeeds is
told by its manifest, whatever the mode.
-/

namespace ExportTables

open FileSystem World

/-! ## The report of a run -/

namespace CommandLine

variable {i : Invocation} {w : World} {config : Config} {report : Report} {terminal : Bool}

/-- What a call loads: the configuration file that it names, or else the one of the project if there
is one. -/
def Invocation.loaded (i : Invocation) (w : World) : Except ConfigError Config :=
  match i.config with
  | some path => ((Config.load path : StateM World _).run w).1
  | none => ((Config.loadOrDefault Config.fileName : StateM World _).run w).1

end CommandLine

end ExportTables
