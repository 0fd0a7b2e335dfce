import ExportTables.Toml.Moment
import ExportTables.Toml.Number
import ExportTables.Toml.Quoted
import ExportTables.Toml.Table

/-!
# Reading keys and values

Arrays and tables may lie in each other, but not deeper than `maxDepth`, and a dotted key has no
more than `maxDepth` parts. The depth that is left is what the reading of values recurses on; the
items of one array are counted down by the length of the text, which they cannot exceed.
-/

namespace ExportTables.Toml

/-- How deep values may be nested, and how many parts a key may have. -/
def maxDepth : Nat := 79

/-- Whether a character may stand in a key without quotes. -/
def isBare (c : Char) : Bool := c.isAlphanum || c == '-' || c == '_'

/-- One part of a dotted key. -/
def keyPart? (text : List Char) : Option (String × List Char) :=
  match quotedLine? text with
  | some (key, behind) => some (String.ofList key, behind)
  | none =>
    let key := text.takeWhile isBare
    if key = [] then none else some (String.ofList key, text.dropWhile isBare)

/-- A dotted key of at most `limit` parts. Blanks may stand around each part. -/
def dottedKey? : (limit : Nat) → List Char → Option (List String × List Char)
  | 0, _ => none
  | limit + 1, text => do
    let (part, behind) ← keyPart? (skipBlanks text)
    match skipBlanks behind with
    | '.' :: rest =>
      let (parts, behind) ← dottedKey? limit rest
      some (part :: parts, behind)
    | behind => some ([part], behind)

/-- A key. -/
def key? : List Char → Option (List String × List Char) := dottedKey? maxDepth

/-- A value that is no string, array or table. -/
def scalar? : List Char → Option (Value × List Char)
  | 't' :: 'r' :: 'u' :: 'e' :: rest => some (.scalar, rest)
  | 'f' :: 'a' :: 'l' :: 's' :: 'e' :: rest => some (.scalar, rest)
  | text =>
    match moment? text with
    | some behind => some (.moment, behind)
    | none => (number? text).map fun behind => (.scalar, behind)

/-- The items of an array behind its opening bracket or a comma, at most `fuel` of them, where
`item?` reads one. -/
def itemsUpTo (item? : List Char → Option (Value × List Char)) :
    (fuel : Nat) → List Char → Option (List Value × List Char)
  | 0, _ => none
  | fuel + 1, text =>
    match skipFiller false text with
    | ']' :: rest => some ([], rest)
    | start => do
      let (item, behind) ← item? start
      match skipFiller false behind with
      | ',' :: rest =>
        let (items, behind) ← itemsUpTo item? fuel rest
        some (item :: items, behind)
      | ']' :: rest => some ([item], rest)
      | _ => none

/-- The key of an entry, and the text behind the equals sign. -/
def assignedKey? (text : List Char) : Option (List String × List Char) := do
  match ← key? text with
  | (key, '=' :: rest) => some (key, skipBlanks rest)
  | _ => none

/-- The table `t` with the entries of a table that is written as a value, at most `fuel` of them
and at least one, where `item?` reads the value of one. -/
def entriesUpTo (item? : List Char → Option (Value × List Char)) :
    (fuel : Nat) → Table → List Char → Option (Table × List Char)
  | 0, _, _ => none
  | fuel + 1, t, text => do
    let (key, start) ← assignedKey? text
    let (item, behind) ← item? start
    let t ← t.insert item key
    match skipBlanks behind with
    | ',' :: rest => entriesUpTo item? fuel t rest
    | '\x7d' :: rest => some (t, rest)
    | _ => none

/-- A value in which arrays and tables lie at most `depth` deep. -/
def valueWithin? : (depth : Nat) → List Char → Option (Value × List Char)
  | depth + 1, '[' :: rest =>
    (itemsUpTo (valueWithin? depth) (rest.length + 1) rest).map fun (items, behind) =>
      (.array items, behind)
  | depth + 1, '\x7b' :: rest =>
    match skipBlanks rest with
    | '\x7d' :: behind => some (.table .inline [], behind)
    | start =>
      (entriesUpTo (valueWithin? depth) (start.length + 1) [] start).map fun (t, behind) =>
        (.table .inline t, behind)
  | _, text =>
    match quoted? text with
    | some (string, behind) => some (.string (String.ofList string), behind)
    | none => scalar? text

/-- A value. -/
def value? : List Char → Option (Value × List Char) := valueWithin? maxDepth

end ExportTables.Toml
