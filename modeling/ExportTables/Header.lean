import ExportTables.Header.Comments
import ExportTables.Header.Declarations

/-!
# Headers

A header is known by the path that it was read from and by the names that it exports. The names
keep the order of the text, and a name that is declared twice stands twice.
-/

namespace ExportTables

/-- The exported names of one header file. -/
structure Header where
  source : String
  /-- The exported names, in the order of the text and with repetitions. -/
  symbols : List String
  deriving DecidableEq, Repr

namespace Header

/-- Reads the text of the header at a path. -/
def ofText (rule : ExportRule) (source text : String) : Header :=
  ⟨source, exportedNames rule (stripComments text.toList)⟩

end Header

end ExportTables
