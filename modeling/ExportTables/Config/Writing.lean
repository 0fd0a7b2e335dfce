import ExportTables.Config
import ExportTables.Toml.Quoted

/-!
# Writing a configuration

A configuration is written with all its sections and keys, in a fixed order and with a blank line
between sections. A list with more than one element takes one line for each.
-/

namespace ExportTables.Config

open Toml

/-- The line of one element of a list. -/
def elementLine (text : String) : List Char :=
  [' ', ' ', ' ', ' '] ++ quote text.toList ++ [',', '\n']

/-- A list of texts. -/
def listText : List String → List Char
  | [] => ['[', ']']
  | [text] => '[' :: quote text.toList ++ [']']
  | texts => '[' :: '\n' :: texts.flatMap elementLine ++ [']']

/-- The entry of a key, where the value has been written. -/
def entryText (key : String) (value : List Char) : List Char :=
  key.toList ++ [' ', '=', ' '] ++ value ++ ['\n']

/-- The entry of a key that stands for a text. -/
def textEntry (key text : String) : List Char := entryText key (quote text.toList)

/-- The entry of a key that stands for a list of texts. -/
def listEntry (key : String) (texts : List String) : List Char := entryText key (listText texts)

/-- The line of a section's header. -/
def headerLine (name : String) : List Char := '[' :: name.toList ++ [']', '\n']

/-- The section on the header. -/
def headerText (c : HeaderConfig) : List Char :=
  headerLine "header" ++ textEntry "marker" c.marker ++ textEntry "prefix" c.namePrefix ++
    textEntry "file" c.file ++ textEntry "include_dir" c.includeDir

/-- The section on the export list. -/
def exportsText (c : ExportsConfig) : List Char :=
  headerLine "exports" ++ listEntry "manual" c.manual ++ listEntry "exclude" c.exclude ++
    textEntry "linkage_prefix" c.linkagePrefix

/-- The section on the runtime. -/
def runtimeText (c : RuntimeConfig) : List Char :=
  headerLine "runtime" ++ listEntry "methods" c.methods ++ listEntry "incoming" c.incoming

/-- The document that writes a configuration. -/
def toText (c : Config) : String :=
  String.ofList <|
    headerText c.header ++ '\n' :: exportsText c.exports ++ '\n' :: runtimeText c.runtime

end ExportTables.Config
