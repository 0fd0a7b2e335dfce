import ExportTables.Text.CharClass

/-!
# Finding the exported declarations

A declaration is exported when it reads, in a text without comments,

* the marker, beginning at a word boundary;
* white space;
* one or more parts of a return type, each a run of words, stars and brackets that is followed by
  white space or stars;
* possibly more stars, and then the name, which begins with the rule's prefix and has `(` directly
  after it.

Stars belong to both kinds of run, so one declaration can be read in many ways. They differ in
where the name begins only if the prefix holds characters other than word characters; then the
reading counts that a search with these preferences meets first: as much white space as possible
after the marker, as few parts of the return type as possible, and every run as long as possible.
`Outlook` holds the first reading for each state of that search at one place of the text. It is
computed from the outlook one character further on, so no reading is tried twice, and the outlooks
at all places of a text take one pass from its end to its start.

Declarations do not overlap: after one, the search goes on behind its `(`.

A rule of any size is searched for. That a search pattern made of the rule must not exceed a
certain size, which takes a marker or prefix of some hundred kilobytes and ends the program at once,
is left out.
-/

namespace ExportTables.Header

open Text

/-- What makes a declaration an exported one. -/
structure ExportRule where
  marker : String
  namePrefix : String
  deriving DecidableEq, Repr

/-- The rest of a declaration, read from some place of the text on. -/
structure Reading where
  /-- The number of characters in front of the name. -/
  lead : Nat
  size : Nat
  deriving DecidableEq, Repr

/-- The same declaration, read from some characters earlier. -/
def Reading.shift (r : Reading) (count : Nat) : Reading := { r with lead := count + r.lead }

/-- The number of characters up to and including the `(` after the name. -/
def Reading.length (r : Reading) : Nat := r.lead + r.size + 1

/-- The name that is declared, where `text` is the text that the reading begins at. -/
def Reading.name (r : Reading) (text : List Char) : List Char := (text.drop r.lead).take r.size

/-- Whether a character can stand in a part of a return type. -/
def isTypeChar (c : Char) : Bool := isWord c || c == '*' || c == '[' || c == ']'

/-- Whether a character can end a part of a return type. -/
def isTypeEnd (c : Char) : Bool := isSpace c || c == '*'

/-- What can be read from one place of the text on. The readings are the preferred ones, by what
stands directly before the place. -/
structure Outlook where
  /-- The number of word characters at the place, if `(` stands directly behind them. -/
  call : Option Nat := none
  /-- After the last part of the return type, where only stars may come before the name. -/
  stars : Option Reading := none
  /-- Inside the white space or stars that end a part of the return type. -/
  typeEnd : Option Reading := none
  /-- Inside the words, stars or brackets of a part of the return type. -/
  typeChars : Option Reading := none
  /-- Inside the white space after the marker. -/
  gap : Option Reading := none

/-- A reading that goes on by a character of one kind. -/
def Outlook.step (allowed : Bool) (next : Option Reading) : Option Reading :=
  if allowed then next.map (·.shift 1) else none

/-- A declaration whose name begins with the prefix at the head of a text, where `calls` are the
word characters before a `(` at the end of the prefix. -/
def nameAt (namePrefix text : List Char) (calls : Option Nat) : Option Reading :=
  if namePrefix.isPrefixOf text then calls.map fun size => ⟨0, namePrefix.length + size⟩ else none

/-- The outlook at a character with the text `rest` behind it, from the outlooks at all places of
`rest`. -/
def outlook (namePrefix : List Char) (c : Char) (rest : List Char) (later : List Outlook) :
    Outlook :=
  let next := later.head?.getD {}
  let call := if c = '(' then some 0 else if isWord c then next.call.map (· + 1) else none
  let calls := match namePrefix with
    | [] => call
    | _ :: others => (later.drop others.length).head?.bind (·.call)
  let named := nameAt namePrefix (c :: rest) calls
  let stars := (Outlook.step (c == '*') next.stars).or named
  let part := Outlook.step (isTypeChar c) next.typeChars
  let ending := Outlook.step (isTypeEnd c) next.typeEnd
  { call := call
    stars := stars
    typeEnd := (ending.or stars).or part
    typeChars := part.or ending
    gap := (Outlook.step (isSpace c) next.gap).or part }

/-- The outlooks at all places of a text, in order. -/
def outlooks (namePrefix : List Char) : List Char → List Outlook
  | [] => []
  | c :: rest =>
    let later := outlooks namePrefix rest
    outlook namePrefix c rest later :: later

/-- The declaration at the head of a text with these outlooks, where `before` is the character in
front of it. -/
def declarationAt (rule : ExportRule) (before : Option Char) (text : List Char)
    (looks : List Outlook) : Option Reading :=
  if isBoundary before text.head? then
    match rule.marker.toList.isPrefixOf? text with
    | some (c :: _) =>
      if isSpace c then
        let behind := rule.marker.length + 1
        (looks.drop behind).head?.bind fun look => look.gap.map (·.shift behind)
      else none
    | _ => none
  else none

/-- The names of the declarations of a text in order, where `skip` characters still belong to the
declaration found last and `before` is the character in front of the text. -/
def scan (rule : ExportRule) : (skip : Nat) → (before : Option Char) → (text : List Char) →
    (looks : List Outlook) → List (List Char)
  | skip + 1, _, c :: rest, _ :: later => scan rule skip (some c) rest later
  | 0, before, c :: rest, look :: later =>
    match declarationAt rule before (c :: rest) (look :: later) with
    | some found =>
      found.name (c :: rest) :: scan rule (found.length - 1) (some c) rest later
    | none => scan rule 0 (some c) rest later
  | _, _, _, _ => []

/-- The exported names of a text without comments, in order and with repetitions. A declaration
without a name is passed over. -/
def exportedNames (rule : ExportRule) (text : List Char) : List String :=
  let looks := outlooks rule.namePrefix.toList text
  ((scan rule 0 none text looks).filter (!·.isEmpty)).map String.ofList

end ExportTables.Header
