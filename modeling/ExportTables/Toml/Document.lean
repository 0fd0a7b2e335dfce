import ExportTables.Toml.Value

/-!
# Documents

A document is read in two steps. First its lines become statements, of which a value may take
several lines; then the statements build the outermost table one after another. A header concerns
all entries up to the next header.
-/

namespace ExportTables.Toml

/-- One statement of a document. -/
inductive Statement where
  | table (path : List String)
  /-- The header of one more table of an array. -/
  | element (path : List String)
  /-- An entry of the table whose header came last. -/
  | entry (key : List String) (value : Value)

/-- The text behind a header that has to end like `close`. -/
def closeHeader? (close : List Char) (behind : List Char) : Option (List Char) :=
  (close.isPrefixOf? behind).bind endLine?

/-- The statement at the head of a text, and the text behind its last line. -/
def statement? : List Char → Option (Statement × List Char)
  | '[' :: '[' :: rest => do
    let (path, behind) ← key? rest
    some (.element path, ← closeHeader? [']', ']'] behind)
  | '[' :: rest => do
    let (path, behind) ← key? rest
    some (.table path, ← closeHeader? [']'] behind)
  | text => do
    let (key, start) ← assignedKey? text
    let (value, behind) ← value? start
    some (.entry key value, ← endLine? behind)

/-- The statements of a text, at most `fuel` of them. -/
def statementsUpTo : (fuel : Nat) → List Char → Option (List Statement)
  | 0, _ => none
  | fuel + 1, text =>
    match skipFiller false text with
    | [] => some []
    | start => do
      let (statement, behind) ← statement? start
      (statementsUpTo fuel behind).map (statement :: ·)

/-- The statements of a text. A statement takes at least one character. -/
def statements? (text : List Char) : Option (List Statement) :=
  statementsUpTo (text.length + 1) text

/-- The table that statements build from a table whose entries are added at the path `header`. -/
def build? : (header : List String) → Table → List Statement → Option Table
  | _, t, [] => some t
  | _, t, .table path :: rest => (t.openTable path).bind fun t => build? path t rest
  | _, t, .element path :: rest => (t.addElement path).bind fun t => build? path t rest
  | header, t, .entry key value :: rest =>
    (t.insertBelow header key value).bind fun t => build? header t rest

/-- The text without the byte order mark at its head. -/
def skipByteOrderMark : List Char → List Char
  | '\ufeff' :: rest => rest
  | text => text

/-- The table that a document writes. -/
def Table.ofText? (text : List Char) : Option Table :=
  (statements? (joinNewlines (skipByteOrderMark text))).bind (build? [] [])

end ExportTables.Toml
