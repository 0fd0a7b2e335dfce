import ExportTables.Text.CharClass

/-!
# Paths

A path is a text. Joining and taking the parent work on the text, so that a message shows a path
the way it was given; comparing paths works on their components, which are the same for all
spellings of a path that differ in repeated slashes, trailing slashes and inner `.` parts.

Nothing here looks at files, so `..` is never resolved.
-/

namespace ExportTables.Path

/-- The pieces of a text between its slashes, of which there is always at least one. -/
def pieces : List Char → List (List Char)
  | [] => [[]]
  | c :: rest =>
    if c = '/' then [] :: pieces rest
    else match pieces rest with
      | [] => [[c]]
      | piece :: more => (c :: piece) :: more

/-- The text of a row of pieces with slashes between them. -/
def joinPieces (parts : List (List Char)) : String :=
  String.ofList (['/'].intercalate parts)

/-- Whether a path starts at the root. -/
def isAbsolute (path : String) : Bool := path.toList.head? == some '/'

/-- A part of a path. -/
inductive Component where
  /-- The root, at the start of an absolute path. -/
  | root
  /-- The place the path starts from, at the start of a relative path. -/
  | current
  | parent
  | name (text : String)
  deriving DecidableEq, Repr

/-- The component that a piece behind the start of a path stands for, if any. -/
def Component.ofPiece? (piece : List Char) : Option Component :=
  if piece = [] ∨ piece = ['.'] then none
  else if piece = ['.', '.'] then some .parent
  else some (.name (String.ofList piece))

/-- The components of a path. -/
def components (path : String) : List Component :=
  match pieces path.toList with
  | [] => []
  | first :: rest =>
    let start :=
      if first = [] ∧ rest ≠ [] then some .root
      else if first = ['.'] then some .current
      else Component.ofPiece? first
    start.toList ++ rest.filterMap Component.ofPiece?

/-- The text of a component. -/
def Component.text : Component → String
  | .root => "/"
  | .current => "."
  | .parent => ".."
  | .name text => text

/-- The path that leads along `right` from where `left` leads. -/
def join (left right : String) : String :=
  if isAbsolute right then right
  else match left.toList.getLast? with
    | none => right
    | some '/' => left ++ right
    | some _ => left ++ "/" ++ right

/-- The path with these components, of which only the first may be the root. -/
def ofComponents : List Component → String
  | .root :: parts => "/" ++ "/".intercalate (parts.map Component.text)
  | parts => "/".intercalate (parts.map Component.text)

/-- The pieces up to the last one that stands for a component. -/
def trimPieces (parts : List (List Char)) : List (List Char) :=
  (parts.reverse.dropWhile fun piece => piece = [] || piece = ['.']).reverse

/-- The path without its last component, spelled as the path is. The root and the empty path have
no parent, and the parent of a single name is the empty path. -/
def parent? (path : String) : Option String :=
  match pieces path.toList with
  | [] => none
  | first :: rest =>
    let start := if first = [] ∨ first = ['.'] then [first] else []
    let body := trimPieces (if start = [] then first :: rest else rest)
    if body = [] then if first = ['.'] then some "" else none
    else
      let above := trimPieces body.dropLast
      if first = [] ∧ above = [] then some "/" else some (joinPieces (start ++ above))

/-- The way from where the components `base` lead to where the components `path` lead, once they
have parted. There is none if `base` goes up from a place that the way cannot name. -/
def wayAfterParting? : (path base : List Component) → Option (List Component)
  | path, [] => some path
  | [], _ :: base => (wayAfterParting? [] base).map (.parent :: ·)
  | part :: path, .current :: base => (wayAfterParting? path base).map (part :: ·)
  | _ :: _, .parent :: _ => none
  | part :: path, _ :: base => some (.parent :: base.map (fun _ => .parent) ++ part :: path)

/-- The way from where the components `base` lead to where the components `path` lead. -/
def way? : (path base : List Component) → Option (List Component)
  | part :: path, other :: base =>
    if part = other then way? path base else wayAfterParting? (part :: path) (other :: base)
  | path, base => wayAfterParting? path base

/-- The path from `base` to `path`, or `path` itself where there is no way between the two. -/
def relative (base path : String) : String :=
  if isAbsolute path != isAbsolute base then path
  else (way? (components path) (components base)).elim path ofComponents

/-- The path as it is shown to the user: relative if it leads into the working directory, as far as
that is known. -/
def display (workingDirectory : Option String) (path : String) : String :=
  match workingDirectory with
  | none => path
  | some here =>
    if isAbsolute path ∧ (components here).isPrefixOf (components path) then relative here path
    else path

/-- How one character is shown inside a quoted path. -/
def quoteChar (c : Char) : String :=
  match c with
  | '\n' => "\\n"
  | '\r' => "\\r"
  | '\t' => "\\t"
  | '"' => "\\\""
  | '\\' => "\\\\"
  | _ =>
    if c.toNat = 0 then "\\0"
    else if Text.isHidden c then
      "\\u\x7b" ++ String.ofList (Nat.toDigits 16 c.toNat) ++ "\x7d"
    else c.toString

/-- A path between quotes, with its hidden characters spelled out. -/
def quoted (path : String) : String :=
  "\"" ++ String.join (path.toList.map quoteChar) ++ "\""

end ExportTables.Path
