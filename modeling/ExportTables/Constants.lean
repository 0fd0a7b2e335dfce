import ExportTables.Json.Literal
import ExportTables.Manifest

/-!
# The module of constants

The export list and the list of runtime methods are also given to the calling code, as a module of
typed constants that it can be checked against. A constant is an array of string literals, one to a
line and each with a comma behind it; an empty array stands on the line of its declaration.
-/

namespace ExportTables.Constants

/-- The lines at the top of the module. -/
def banner : String :=
  "// This file is generated by qpdf-exports. Do not edit it by hand.\n" ++
  "// Regenerate it by running the export generator against qpdf-c.h.\n\n"

/-- The line of one element of an array. -/
def element (name : String) : List Char :=
  ' ' :: ' ' :: Json.literal name.toList ++ [',', '\n']

/-- The declaration of a constant. -/
def constant (identifier : String) : List String → List Char
  | [] => ("export const " ++ identifier ++ " = [] as const;\n").toList
  | names =>
    ("export const " ++ identifier ++ " = [\n").toList ++ names.flatMap element ++
      "] as const;\n".toList

/-- The module of constants of a manifest. -/
def render (m : Manifest) : List Char :=
  banner.toList ++ constant "EXPORTED_FUNCTIONS" m.exports ++
    '\n' :: constant "EXPORTED_RUNTIME_METHODS" m.runtimeMethods

end ExportTables.Constants
