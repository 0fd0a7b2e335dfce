/-!
# Removing comments

Comments are removed in two passes over the whole text: first every block comment becomes one
space, so that the tokens around it stay apart, and then every line comment disappears up to its
newline. Each pass is a scanner with one bit of state, the flag that says whether it stands inside
a comment, and recurses on the text alone.

The first pass does not know about line comments, nor either of them about string literals. A
block comment that is never closed is no comment, and neither is anything behind it.
-/

namespace ExportTables.Header

/-- Whether a block comment whose opening has just been read is closed later on. -/
def closesBlock : List Char → Bool
  | '*' :: '/' :: _ => true
  | _ :: rest => closesBlock rest
  | [] => false

/-- Replaces every block comment by one space; `inBlock` says whether the text starts inside a
block comment, whose space has then been written already. -/
def stripBlocks : (inBlock : Bool) → List Char → List Char
  | true, '*' :: '/' :: rest => stripBlocks false rest
  | true, _ :: rest => stripBlocks true rest
  | false, '/' :: '*' :: rest =>
    if closesBlock rest then ' ' :: stripBlocks true rest
    else '/' :: '*' :: rest
  | false, c :: rest => c :: stripBlocks false rest
  | _, [] => []

/-- Deletes every line comment, but not the newline that ends it; `inLine` says whether the text
starts inside a line comment. -/
def stripLines : (inLine : Bool) → List Char → List Char
  | true, '\n' :: rest => '\n' :: stripLines false rest
  | true, _ :: rest => stripLines true rest
  | false, '/' :: '/' :: rest => stripLines true rest
  | false, c :: rest => c :: stripLines false rest
  | _, [] => []

/-- The text without its comments: block comments first, then line comments. -/
def stripComments (text : List Char) : List Char := stripLines false (stripBlocks false text)

end ExportTables.Header
