import ExportTables.Config

/-!
# The manifest

The manifest is what every generated file is a view of. Its export list has the manual names in
front, exactly as the configuration lists them, and behind them the names that the header exports,
less the excluded ones. Nothing is removed because it occurs twice: a name that is declared twice,
or is declared and manual, is exported twice and reported by `duplicates`.

The counts say how the list came about. They are data of their own, so a manifest from elsewhere
may claim more manual names than it has exports.
-/

namespace ExportTables

/-- The export list together with the fixed lists of the runtime. -/
structure Manifest where
  /-- The manual names, then the names from the header. -/
  exports : List String := []
  runtimeMethods : List String := []
  incomingMethods : List String := []
  linkagePrefix : String := ""
  /-- The number of manual names at the front of the export list. -/
  manualCount : Nat := 0
  /-- The number of names that the header exports, before any is excluded. -/
  discoveredCount : Nat := 0
  /-- The number of names of the header that were excluded. -/
  excludedCount : Nat := 0
  deriving DecidableEq, Repr

namespace Manifest

/-- The manual names followed by the discovered ones that are not excluded. -/
def assemble (discovered manual exclude : List String) : List String :=
  manual ++ discovered.filter (!exclude.contains ·)

/-- The manifest of the names found in a header. -/
def ofDiscovered (discovered : List String) (config : Config) : Manifest :=
  let exports := assemble discovered config.exports.manual config.exports.exclude
  let manualCount := config.exports.manual.length
  { exports := exports
    runtimeMethods := config.runtime.methods
    incomingMethods := config.runtime.incoming
    linkagePrefix := config.exports.linkagePrefix
    manualCount := manualCount
    discoveredCount := discovered.length
    excludedCount := discovered.length - (exports.length - manualCount) }

/-- The manual part of the export list, unless it is shorter than the manifest claims. -/
def manual? (m : Manifest) : Option (List String) :=
  if m.manualCount ≤ m.exports.length then some (m.exports.take m.manualCount) else none

/-- The part of the export list behind the manual names, unless there are too few of those. -/
def discovered? (m : Manifest) : Option (List String) :=
  if m.manualCount ≤ m.exports.length then some (m.exports.drop m.manualCount) else none

/-- The names as the compiler expects them. -/
def linkedExports (m : Manifest) : List String := m.exports.map (m.linkagePrefix ++ ·)

/-- The names that are exported more than once, in ascending order, each with its number of
occurrences. -/
def duplicates (m : Manifest) : List (String × Nat) :=
  let repeated := m.exports.eraseDups.filter (1 < m.exports.count ·)
  (repeated.mergeSort (· ≤ ·)).map fun name => (name, m.exports.count name)

end Manifest

end ExportTables
