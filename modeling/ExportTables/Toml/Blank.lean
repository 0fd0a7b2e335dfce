/-!
# Blanks, newlines and comments

A newline is a line feed, alone or behind a carriage return. A carriage return anywhere else is
refused, in strings too, so the whole text is brought to plain line feeds before it is read, and
every reader below refuses what carriage returns are left.

What may stand in a comment is also what may stand raw in a string: everything but the control
characters, of which only the tab is admitted.
-/

namespace ExportTables.Toml

/-- The text with a plain line feed for every newline. -/
def joinNewlines : List Char → List Char
  | '\r' :: '\n' :: rest => '\n' :: joinNewlines rest
  | c :: rest => c :: joinNewlines rest
  | [] => []

/-- Whether a character separates tokens on a line. -/
def isBlank (c : Char) : Bool := c == ' ' || c == '\t'

/-- Whether a character may stand in comments and, unescaped, in strings. -/
def isPlain (c : Char) : Bool := c == '\t' || (0x20 ≤ c.toNat && c.toNat != 0x7F)

/-- The text behind the blanks at its head. -/
def skipBlanks (text : List Char) : List Char := text.dropWhile isBlank

/-- The text behind the blanks, newlines and comments at its head; `inComment` says whether it
starts inside a comment. A character that no comment may hold ends the skipping, and nothing that
is read next begins with such a character. -/
def skipFiller : (inComment : Bool) → List Char → List Char
  | _, [] => []
  | false, c :: rest =>
    if isBlank c || c == '\n' then skipFiller false rest
    else if c == '#' then skipFiller true rest
    else c :: rest
  | true, c :: rest =>
    if c == '\n' then skipFiller false rest
    else if isPlain c then skipFiller true rest
    else c :: rest

/-- The text behind the rest of a line on which nothing but a comment may follow. -/
def endLine? (text : List Char) : Option (List Char) :=
  let behind := match skipBlanks text with
    | '#' :: comment => comment.dropWhile isPlain
    | others => others
  match behind with
  | [] => some []
  | '\n' :: rest => some rest
  | _ => none

end ExportTables.Toml
