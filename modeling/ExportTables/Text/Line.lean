/-!
# Lines

A line ends with a line feed, to which a carriage return directly before it belongs.
-/

namespace ExportTables.Text

/-- The first line of a text, without its end. -/
def firstLine : List Char → List Char
  | [] => []
  | '\n' :: _ => []
  | '\r' :: '\n' :: _ => []
  | c :: rest => c :: firstLine rest

/-- The text with its lines after the first one indented by a margin. -/
def indentFollowing (margin : List Char) (text : List Char) : List Char :=
  text.flatMap fun c => if c = '\n' then '\n' :: margin else [c]

end ExportTables.Text
