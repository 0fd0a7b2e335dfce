import ExportTables.Config
import ExportTables.Toml.Document

/-!
# Reading a configuration

A configuration is a TOML document with one table for each section. A key that is missing has its
built-in default, and so has a section; a key that is there must have a value of its type. Keys
and sections with other names do not matter.

A section may also be written as an array of its values in the order of its keys, of which some at
the end may be missing, and a section that is written as a date or time has no keys.
-/

namespace ExportTables.Config

open Toml

/-- What the keys of a section stand for. -/
abbrev Fields := String → Option Value

/-- The keys of a section, whose names in order are `keys`. -/
def fields? (keys : List String) : Option Value → Option Fields
  | none => some fun _ => none
  | some (.table _ entries) => some (Table.get? entries)
  | some (.array items) => some (Table.get? (keys.zip items))
  | some .moment => some fun _ => none
  | some _ => none

/-- The text of a value. -/
def text? : Value → Option String
  | .string text => some text
  | _ => none

/-- The texts of an array. -/
def texts? : Value → Option (List String)
  | .array items => items.mapM text?
  | _ => none

/-- What a key stands for, or its default if it is missing. -/
def valueOr? {α : Type} (read? : Value → Option α) (default : α) : Option Value → Option α
  | none => some default
  | some value => read? value

/-- The keys of the section on the header. -/
def headerKeys : List String := ["marker", "prefix", "file", "include_dir"]

/-- The keys of the section on the export list. -/
def exportsKeys : List String := ["manual", "exclude", "linkage_prefix"]

/-- The keys of the section on the runtime. -/
def runtimeKeys : List String := ["methods", "incoming"]

/-- The section on the header. -/
def headerOf? (fields : Fields) : Option HeaderConfig := do
  let defaults : HeaderConfig := {}
  some {
    marker := ← valueOr? text? defaults.marker (fields "marker")
    namePrefix := ← valueOr? text? defaults.namePrefix (fields "prefix")
    file := ← valueOr? text? defaults.file (fields "file")
    includeDir := ← valueOr? text? defaults.includeDir (fields "include_dir") }

/-- The section on the export list. -/
def exportsOf? (fields : Fields) : Option ExportsConfig := do
  let defaults : ExportsConfig := {}
  some {
    manual := ← valueOr? texts? defaults.manual (fields "manual")
    exclude := ← valueOr? texts? defaults.exclude (fields "exclude")
    linkagePrefix := ← valueOr? text? defaults.linkagePrefix (fields "linkage_prefix") }

/-- The section on the runtime. -/
def runtimeOf? (fields : Fields) : Option RuntimeConfig := do
  let defaults : RuntimeConfig := {}
  some {
    methods := ← valueOr? texts? defaults.methods (fields "methods")
    incoming := ← valueOr? texts? defaults.incoming (fields "incoming") }

/-- The configuration that a table writes. -/
def ofTable? (t : Table) : Option Config := do
  some {
    header := ← (fields? headerKeys (t.get? "header")).bind headerOf?
    exports := ← (fields? exportsKeys (t.get? "exports")).bind exportsOf?
    runtime := ← (fields? runtimeKeys (t.get? "runtime")).bind runtimeOf? }

/-- The configuration that a document writes. -/
def ofText? (text : String) : Option Config := (Table.ofText? text.toList).bind ofTable?

end ExportTables.Config
