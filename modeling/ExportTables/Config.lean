/-!
# The configuration

The export tables follow from a header and from a few decisions that the header cannot tell:
which declarations count, what is exported besides them or never, and what the runtime offers.
Each decision has a built-in default.
-/

namespace ExportTables

/-- Where the header lies and which of its declarations are exported. -/
structure HeaderConfig where
  /-- The token that marks a declaration as exported. -/
  marker : String := "QPDF_DLL"
  /-- What the name of an exported function begins with. -/
  namePrefix : String := "qpdf_"
  /-- The path of the header below the include directory. -/
  file : String := "qpdf/qpdf-c.h"
  /-- The include directory of a run that names none. -/
  includeDir : String := "external/qpdf/include"
  deriving DecidableEq, Repr

/-- What is added to the exported functions and what is taken away from them. -/
structure ExportsConfig where
  /-- The names that stand first in the export list, whatever the header declares. -/
  manual : List String := ["malloc", "free"]
  /-- The declared names that are not exported: functions that take a callback. -/
  exclude : List String := ["qpdf_register_progress_reporter"]
  /-- What the compiler's list puts in front of each name. -/
  linkagePrefix : String := "_"
  deriving DecidableEq, Repr

/-- What the runtime exposes and accepts, independently of the header. -/
structure RuntimeConfig where
  methods : List String := ["ccall", "cwrap", "FS", "getValue", "setValue", "UTF8ToString",
    "stringToUTF8", "lengthBytesUTF8", "HEAPU8"]
  incoming : List String := ["locateFile", "print", "printErr", "onRuntimeInitialized",
    "noInitialRun", "wasmBinary"]
  deriving DecidableEq, Repr

/-- All decisions together. -/
structure Config where
  header : HeaderConfig := {}
  exports : ExportsConfig := {}
  runtime : RuntimeConfig := {}
  deriving DecidableEq, Repr

instance : Inhabited Config := ⟨{}⟩

/-- The file that holds the configuration of a project, in its working directory. -/
def Config.fileName : String := "qpdf-exports.toml"

end ExportTables
