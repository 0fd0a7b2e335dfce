import ExportTables.Constants
import ExportTables.Digest
import ExportTables.Json.NameList
import ExportTables.Manifest

/-!
# The generated files

Four files are generated from a manifest: three lists that the compiler reads, and a module of
constants that gives two of them to the calling code. They are always rendered together and in one
order.
-/

namespace ExportTables

/-- The kinds of generated file. -/
inductive ArtifactKind where
  | exportedFunctions
  | runtimeMethods
  | incomingMethods
  | constants
  deriving DecidableEq, Repr

namespace ArtifactKind

/-- All kinds, in the order in which files are rendered and written. -/
def all : List ArtifactKind := [exportedFunctions, runtimeMethods, incomingMethods, constants]

/-- The name of the file in the output directory. -/
def fileName : ArtifactKind → String
  | exportedFunctions => "exported-functions.json"
  | runtimeMethods => "exported-runtime-methods.json"
  | incomingMethods => "incoming-module-js-api.json"
  | constants => "exports.generated.ts"

/-- The kind of file with this name. -/
def ofFileName? (name : String) : Option ArtifactKind := all.find? (·.fileName == name)

/-- What the file of this kind holds for a manifest. -/
def render (kind : ArtifactKind) (m : Manifest) : List Char :=
  match kind with
  | exportedFunctions => Json.nameList m.linkedExports
  | runtimeMethods => Json.nameList m.runtimeMethods
  | incomingMethods => Json.nameList m.incomingMethods
  | constants => Constants.render m

end ArtifactKind

/-- One generated file. -/
structure Artifact where
  kind : ArtifactKind
  contents : String
  deriving DecidableEq, Repr

namespace Artifact

/-- The name of the file in the output directory. -/
def fileName (a : Artifact) : String := a.kind.fileName

/-- The digest of the contents. -/
def digest (a : Artifact) : String := Digest.ofText a.contents

/-- The short form of the digest. -/
def fingerprint (a : Artifact) : String := (Digest.short? a.digest).getD a.digest

end Artifact

/-- The generated files of a manifest, in order. -/
def Manifest.artifacts (m : Manifest) : List Artifact :=
  ArtifactKind.all.map fun kind => ⟨kind, String.ofList (kind.render m)⟩

end ExportTables
