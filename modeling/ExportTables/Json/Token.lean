import ExportTables.Json.Literal

/-!
# Tokens

The reader of JSON texts works on tokens: the six marks, string literals and the scalars without
quotes. A literal keeps its units, since a string that nobody looks at may hold half a pair of
surrogates. White space between tokens is the space, the tab and the two newline characters.
-/

namespace ExportTables.Json

/-- One token of a JSON text. -/
inductive Token where
  | openObject | closeObject | openArray | closeArray | comma | colon
  | string (units : List Nat)
  | scalar
  deriving DecidableEq, Repr

/-- Whether a character may stand between tokens. -/
def isBlank (c : Char) : Bool := c == ' ' || c == '\t' || c == '\n' || c == '\r'

/-- The text behind a row of at least one digit. -/
def skipDigits? : List Char → Option (List Char)
  | c :: rest => if c.isDigit then some (rest.dropWhile Char.isDigit) else none
  | [] => none

/-- The text behind the integer part of a number, which has no leading zero. -/
def skipInteger? : List Char → Option (List Char)
  | '0' :: rest => some rest
  | text => skipDigits? text

/-- The text behind the fraction of a number, if there is one. -/
def skipFraction? : List Char → Option (List Char)
  | '.' :: rest => skipDigits? rest
  | text => some text

/-- The text behind the exponent of a number, if there is one. -/
def skipExponent? : List Char → Option (List Char)
  | c :: rest =>
    if c = 'e' ∨ c = 'E' then
      match rest with
      | '+' :: digits => skipDigits? digits
      | '-' :: digits => skipDigits? digits
      | digits => skipDigits? digits
    else some (c :: rest)
  | [] => some []

/-- The text behind a number. -/
def skipNumber? (text : List Char) : Option (List Char) :=
  let unsigned := match text with
    | '-' :: rest => rest
    | _ => text
  skipInteger? unsigned >>= skipFraction? >>= skipExponent?

/-- The first token of a text that does not start with white space, and the text behind it. -/
def nextToken? : List Char → Option (Token × List Char)
  | '\x7b' :: rest => some (.openObject, rest)
  | '\x7d' :: rest => some (.closeObject, rest)
  | '[' :: rest => some (.openArray, rest)
  | ']' :: rest => some (.closeArray, rest)
  | ',' :: rest => some (.comma, rest)
  | ':' :: rest => some (.colon, rest)
  | '"' :: rest => (readUnits rest).map fun (units, behind) => (.string units, behind)
  | 't' :: 'r' :: 'u' :: 'e' :: rest => some (.scalar, rest)
  | 'f' :: 'a' :: 'l' :: 's' :: 'e' :: rest => some (.scalar, rest)
  | 'n' :: 'u' :: 'l' :: 'l' :: rest => some (.scalar, rest)
  | text => (skipNumber? text).map fun behind => (.scalar, behind)

/-- The tokens of a text, of which at most `fuel` are read. -/
def tokensUpTo : (fuel : Nat) → List Char → Option (List Token)
  | 0, _ => none
  | fuel + 1, text =>
    match text.dropWhile isBlank with
    | [] => some []
    | c :: rest => do
      let (token, behind) ← nextToken? (c :: rest)
      (tokensUpTo fuel behind).map (token :: ·)

/-- The tokens of a text. A token takes at least one character, so no text has more tokens than
characters. -/
def tokens? (text : List Char) : Option (List Token) := tokensUpTo (text.length + 1) text

end ExportTables.Json
