import ExportTables.Json.Token

/-!
# Lists of names

The compiler reads its export tables from files that hold one flat array of strings. The array is
laid out with one name on each line, indented by two spaces, between two lines that hold the
brackets; the empty array is `[]`. A newline ends the file.

`names?` reads an array of strings back from any layout and any choice of escapes.
-/

namespace ExportTables.Json

/-- The lines of the names, each with the comma that its successor asks for. -/
def nameLines : List String → List Char
  | [] => []
  | [name] => ' ' :: ' ' :: literal name.toList ++ ['\n']
  | name :: rest => ' ' :: ' ' :: literal name.toList ++ ',' :: '\n' :: nameLines rest

/-- The file that lists the names. -/
def nameList : List String → List Char
  | [] => ['[', ']', '\n']
  | names => '[' :: '\n' :: nameLines names ++ [']', '\n']

/-- The text of a string token. -/
def Token.text? : Token → Option String
  | .string units => (joinUnits units).map String.ofList
  | _ => none

/-- The strings of an array of which at least one string is still to come, and the tokens behind
its closing bracket. -/
def moreStrings? : List Token → Option (List String × List Token)
  | item :: .comma :: rest => do
    let name ← item.text?
    let (names, behind) ← moreStrings? rest
    some (name :: names, behind)
  | item :: .closeArray :: rest => item.text?.map fun name => ([name], rest)
  | _ => none

/-- The strings of an array at the head of a row of tokens, and the tokens behind it. -/
def strings? : List Token → Option (List String × List Token)
  | .openArray :: .closeArray :: rest => some ([], rest)
  | .openArray :: rest => moreStrings? rest
  | _ => none

/-- The names that a file lists. -/
def names? (text : List Char) : Option (List String) :=
  match (tokens? text).bind strings? with
  | some (names, []) => some names
  | _ => none

end ExportTables.Json
