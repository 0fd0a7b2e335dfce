import ExportTables.Text.Hex

/-!
# String literals

A string literal stands between double quotes. Writing escapes the quote, the backslash and the
characters below U+0020, and leaves everything else as it is. Reading accepts every escape of the
format. It goes in two steps, because an escape writes one unit of UTF-16 and a character beyond
the basic plane needs two of them: `readUnits` collects the units of a literal, and `joinUnits`
pairs the surrogates, which fails on one that stands alone.
-/

namespace ExportTables.Json

open Text

/-- How one character is written inside a literal. -/
def escape (c : Char) : List Char :=
  if c = '"' then ['\\', '"']
  else if c = '\\' then ['\\', '\\']
  else if c = '\n' then ['\\', 'n']
  else if c = '\r' then ['\\', 'r']
  else if c = '\t' then ['\\', 't']
  else if c.toNat = 0x8 then ['\\', 'b']
  else if c.toNat = 0xC then ['\\', 'f']
  else if c.toNat < 0x20 then ['\\', 'u'] ++ hexDigits 4 c.toNat
  else [c]

/-- The literal of a text. -/
def literal (text : List Char) : List Char := '"' :: (text.flatMap escape ++ ['"'])

/-- The character that a backslash and one more character write. -/
def simpleEscape? : Char → Option Char
  | '"' => some '"'
  | '\\' => some '\\'
  | '/' => some '/'
  | 'b' => some '\x08'
  | 'f' => some '\x0c'
  | 'n' => some '\n'
  | 'r' => some '\r'
  | 't' => some '\t'
  | _ => none

/-- The units of a literal whose opening quote has been read, and the text behind its closing
quote. A unit is the code point of a character or half of a pair of surrogates. -/
def readUnits : List Char → Option (List Nat × List Char)
  | [] => none
  | '"' :: rest => some ([], rest)
  | '\\' :: 'u' :: a :: b :: c :: d :: rest => do
    let unit ← hexNumber? [a, b, c, d]
    let (units, behind) ← readUnits rest
    some (unit :: units, behind)
  | '\\' :: c :: rest => do
    let decoded ← simpleEscape? c
    let (units, behind) ← readUnits rest
    some (decoded.toNat :: units, behind)
  | c :: rest =>
    if c.toNat < 0x20 ∨ c = '\\' then none
    else do
      let (units, behind) ← readUnits rest
      some (c.toNat :: units, behind)

/-- Whether a unit is the first half of a pair of surrogates. -/
def isHighSurrogate (unit : Nat) : Bool := 0xD800 ≤ unit && unit < 0xDC00

/-- Whether a unit is the second half of a pair of surrogates. -/
def isLowSurrogate (unit : Nat) : Bool := 0xDC00 ≤ unit && unit < 0xE000

/-- The characters of a row of units, unless a surrogate stands alone. -/
def joinUnits : List Nat → Option (List Char)
  | [] => some []
  | [unit] => (charOfCode? unit).map ([·])
  | high :: low :: rest =>
    if isHighSurrogate high ∧ isLowSurrogate low then do
      let c ← charOfCode? (0x10000 + (high - 0xD800) * 0x400 + (low - 0xDC00))
      (joinUnits rest).map (c :: ·)
    else do
      let c ← charOfCode? high
      (joinUnits (low :: rest)).map (c :: ·)

end ExportTables.Json
