import ExportTables.Text.Hex
import ExportTables.Toml.Blank

/-!
# Quoted text

A text is quoted in one of four forms. Basic forms stand between double quotes and have escapes,
literal forms stand between single quotes and have none; each of the two is written on one line
between single marks, or over any number of lines between triple ones.

Reading is one machine for all forms. In a form with triple marks a run of one or two marks is
text; three marks close it, and up to two more before them are text too. So the machine counts the
marks directly before the place it stands at and decides about them at the next other character.

Writing takes the first of the forms that fits the text: basic, literal, and the two in triple
marks. A form fits if nothing but a tab has to be escaped in it. A text that no form fits is written
in a basic form with escapes, in triple marks if it holds a newline. The basic forms escape tabs.
-/

namespace ExportTables.Toml

open Text

/-- One of the four forms of quoted text. -/
structure Quoting where
  /-- The mark that the text stands between. -/
  mark : Char
  /-- Whether a backslash begins an escape. -/
  escapes : Bool
  /-- Whether the marks are triple, and newlines are text. -/
  triple : Bool
  deriving DecidableEq, Repr

/-! ## Reading -/

/-- Where the reading of a quoted text stands. -/
inductive QuotedState where
  /-- Directly behind a run of marks, which may be empty. -/
  | text (run : Nat)
  /-- Behind a backslash. -/
  | escape
  /-- In the digits of a code point, of which some are still to come. -/
  | code (digits : Nat) (number : Nat)
  /-- Behind a backslash that joins lines; the flag says whether the newline has been read. -/
  | joinedLines (behindNewline : Bool)
  deriving DecidableEq, Repr

/-- The character that a backslash and one more character write. -/
def simpleEscape? : Char → Option Char
  | 'b' => some '\x08'
  | 't' => some '\t'
  | 'n' => some '\n'
  | 'f' => some '\x0c'
  | 'r' => some '\r'
  | '"' => some '"'
  | '\\' => some '\\'
  | _ => none

/-- Puts characters in front of a text that has been read. -/
def readAs (front : List Char) (behind : Option (List Char × List Char)) :
    Option (List Char × List Char) :=
  behind.map fun (text, rest) => (front ++ text, rest)

/-- The state in which a character is read. The first character that is neither blank nor newline
ends the joining of lines. -/
def QuotedState.settle (state : QuotedState) (c : Char) : QuotedState :=
  if state = .joinedLines true ∧ !isBlank c ∧ c ≠ '\n' then .text 0 else state

/-- The quoted text whose opening marks have been read, and what stands behind its closing marks. -/
def readQuoted (form : Quoting) : QuotedState → List Char → Option (List Char × List Char)
  | .text run, [] =>
    if form.triple ∧ 3 ≤ run then some (List.replicate (run - 3) form.mark, []) else none
  | _, [] => none
  | state, c :: rest =>
    match state.settle c with
    | .text run =>
      if c = form.mark then
        if !form.triple then some ([], rest)
        else if run < 5 then readQuoted form (.text (run + 1)) rest
        else none
      else if 3 ≤ run then some (List.replicate (run - 3) form.mark, c :: rest)
      else readAs (List.replicate run form.mark) <|
        if form.escapes ∧ c = '\\' then readQuoted form .escape rest
        else if isPlain c ∨ form.triple ∧ c = '\n' then
          readAs [c] (readQuoted form (.text 0) rest)
        else none
    | .escape =>
      match simpleEscape? c with
      | some decoded => readAs [decoded] (readQuoted form (.text 0) rest)
      | none =>
        if c = 'u' then readQuoted form (.code 4 0) rest
        else if c = 'U' then readQuoted form (.code 8 0) rest
        else if form.triple ∧ isBlank c then readQuoted form (.joinedLines false) rest
        else if form.triple ∧ c = '\n' then readQuoted form (.joinedLines true) rest
        else none
    | .code digits number =>
      match hexValue? c with
      | none => none
      | some digit =>
        if 1 < digits then readQuoted form (.code (digits - 1) (16 * number + digit)) rest
        else match charOfCode? (16 * number + digit) with
          | some decoded => readAs [decoded] (readQuoted form (.text 0) rest)
          | none => none
    | .joinedLines behindNewline =>
      if isBlank c then readQuoted form (.joinedLines behindNewline) rest
      else if c = '\n' then readQuoted form (.joinedLines true) rest
      else none

/-- Basic text on one line. -/
def Quoting.basic : Quoting := ⟨'"', true, false⟩

/-- Literal text on one line. -/
def Quoting.literal : Quoting := ⟨'\'', false, false⟩

/-- Basic text in triple marks. -/
def Quoting.basicLines : Quoting := ⟨'"', true, true⟩

/-- Literal text in triple marks. -/
def Quoting.literalLines : Quoting := ⟨'\'', false, true⟩

/-- The text without the newline at its head, which belongs to the opening marks. -/
def skipNewline : List Char → List Char
  | '\n' :: rest => rest
  | text => text

/-- A text quoted on one line. -/
def quotedLine? : List Char → Option (List Char × List Char)
  | '"' :: rest => readQuoted .basic (.text 0) rest
  | '\'' :: rest => readQuoted .literal (.text 0) rest
  | _ => none

/-- A text quoted in any form. -/
def quoted? : List Char → Option (List Char × List Char)
  | '"' :: '"' :: '"' :: rest => readQuoted .basicLines (.text 0) (skipNewline rest)
  | '\'' :: '\'' :: '\'' :: rest => readQuoted .literalLines (.text 0) (skipNewline rest)
  | text => quotedLine? text

/-! ## Writing -/

/-- The number of marks in the longest run, where `run` marks stand directly in front. -/
def longestRun (mark : Char) : (run : Nat) → List Char → Nat
  | run, [] => run
  | run, c :: rest =>
    if c = mark then longestRun mark (run + 1) rest else max run (longestRun mark 0 rest)

/-- Whether a text can be written in a form with no escapes but those of tabs. -/
def fits (form : Quoting) (text : List Char) : Bool :=
  (text.all fun c => isPlain c || form.triple && c == '\n') &&
    !(form.escapes && text.contains '\\') &&
    longestRun form.mark 0 text ≤ (if form.triple then 2 else 0)

/-- The marks on either side of a text. -/
def Quoting.marks (form : Quoting) : List Char :=
  List.replicate (if form.triple then 3 else 1) form.mark

/-- A body between the marks of a form. A body of several lines starts on a line of its own. -/
def enclose (form : Quoting) (body : List Char) : List Char :=
  form.marks ++ (if form.triple && body.contains '\n' then ['\n'] else []) ++ body ++ form.marks

/-- The escape of a character, if it has to be escaped in basic text; a quote and a newline are
left to the form. -/
def escape? (c : Char) : Option (List Char) :=
  if c = '\\' then some ['\\', '\\']
  else if c = '\t' then some ['\\', 't']
  else if c = '\r' then some ['\\', 'r']
  else if c.toNat = 0x8 then some ['\\', 'b']
  else if c.toNat = 0xC then some ['\\', 'f']
  else if c ≠ '\n' ∧ c.toNat < 0x20 ∨ c.toNat = 0x7F then
    some (['\\', 'u', '0', '0'] ++ [upperHexDigit (c.toNat / 16), upperHexDigit (c.toNat % 16)])
  else none

/-- Basic text with its escapes, where `run` is the number of unescaped quotes directly in front.
In triple marks newlines stay, and so do quotes up to the third in a row. -/
def escapeBody (form : Quoting) : (run : Nat) → List Char → List Char
  | _, [] => []
  | run, c :: rest =>
    if c = '"' then
      if form.triple ∧ run < 2 then '"' :: escapeBody form (run + 1) rest
      else '\\' :: '"' :: escapeBody form 0 rest
    else if c = '\n' ∧ !form.triple then '\\' :: 'n' :: escapeBody form 0 rest
    else (escape? c).getD [c] ++ escapeBody form 0 rest

/-- A text between the marks of a form. -/
def quoteIn (form : Quoting) (text : List Char) : List Char :=
  enclose form (if form.escapes then escapeBody form 0 text else text)

/-- The form that suits a text best. -/
def bestForm (text : List Char) : Quoting :=
  ([.basic, .literal, .basicLines, .literalLines].find? (fits · text)).getD
    (if text.contains '\n' then .basicLines else .basic)

/-- A text in the form that suits it best. -/
def quote (text : List Char) : List Char := quoteIn (bestForm text) text

end ExportTables.Toml
