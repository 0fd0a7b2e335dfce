import ExportTables.Text.HiddenTable
import ExportTables.Text.WordTable

/-!
# Character classes

The declaration scan reads a header as words, pointer stars, brackets and white space, so it rests
on two character classes. Both are classes of the whole of Unicode and not of ASCII alone: a
declaration may be laid out with a no-break space, and a name may hold any letter or mark.

A third class holds the characters that a reader could not see, or not tell apart.
-/

namespace ExportTables.Text

/-- Whether a number lies in one of the ranges, which stand in ascending order. -/
def inRanges (n : Nat) : List (Nat × Nat) → Bool
  | [] => false
  | (low, high) :: rest => if n < low then false else if n ≤ high then true else inRanges n rest

/-- Whether a character can stand inside an identifier. -/
def isWord (c : Char) : Bool := inRanges c.toNat wordRanges

/-- The closed ranges of code points of white space, in ascending order. -/
def spaceRanges : List (Nat × Nat) := [
  (0x9, 0xD), (0x20, 0x20), (0x85, 0x85), (0xA0, 0xA0), (0x1680, 0x1680), (0x2000, 0x200A),
  (0x2028, 0x2029), (0x202F, 0x202F), (0x205F, 0x205F), (0x3000, 0x3000)]

/-- Whether a character is white space. -/
def isSpace (c : Char) : Bool := inRanges c.toNat spaceRanges

/-- Whether a character shows nothing of its own. -/
def isHidden (c : Char) : Bool := inRanges c.toNat hiddenRanges

/-- Whether a word boundary lies between two neighbours, where an end of the text counts as a
neighbour that is no word character. -/
def isBoundary (before after : Option Char) : Bool :=
  before.any isWord != after.any isWord

end ExportTables.Text
