/-!
# Control sequences of terminals

A terminal does not show every character that it is sent: some are controls, and some belong to
sequences that an escape character opens. `visible` keeps what is shown. It is a machine that reads
one character at a time; its states are the kinds of sequence that can be open, and all that
matters of a sequence is where it ends.

White space is shown wherever controls are obeyed, also inside a sequence. What follows it is then
shown as well, up to the next control character, where the sequence goes on.
-/

namespace ExportTables.Text

/-- The sequence that is open at some place of a text. -/
inductive Sequence where
  | ground
  /-- Any sequence, directly behind its escape character. -/
  | escape
  /-- A sequence of which only intermediate characters have been read. -/
  | intermediate
  /-- A control sequence, which ends with its first letter. -/
  | control
  /-- A device control string, directly behind its opening. -/
  | deviceEntry
  /-- The parameters of a device control string. -/
  | deviceParameters
  /-- The intermediate characters of a device control string. -/
  | deviceIntermediate
  /-- A string that an escape character or a string terminator ends. -/
  | string
  /-- A command to the operating system, which a bell ends too. -/
  | command
  deriving DecidableEq, Repr

/-- Whether a character is a control of ASCII. -/
def isControl (c : Char) : Bool := c.toNat < 0x20 || c.toNat == 0x7F

/-- Whether a control moves to another column or line. -/
def isMovement (c : Char) : Bool := c == '\t' || c == '\n' || c == '\x0c' || c == '\r'

/-- Whether the encoding of a character holds the byte that terminates strings. -/
def holdsTerminator (c : Char) : Bool := (String.utf8EncodeChar c).contains 0x9C

namespace Sequence

/-- Whether controls are obeyed inside the sequence. -/
def obeysControls : Sequence → Bool
  | ground | escape | intermediate | control => true
  | _ => false

/-- The sequence that is open behind an escape character and one more character. -/
def opened (c : Char) : Sequence :=
  match c with
  | '[' => control
  | ']' => command
  | 'P' => deviceEntry
  | 'X' | '^' | '_' => string
  | _ => if c.toNat < 0x30 then intermediate else ground

/-- The sequence that is open behind a printable character of ASCII. -/
def afterPrintable (s : Sequence) (c : Char) : Sequence :=
  match s with
  | ground => ground
  | escape => opened c
  | intermediate => if c.toNat < 0x30 then intermediate else ground
  | control => if c.toNat < 0x40 then control else ground
  | deviceEntry =>
    if c.toNat < 0x30 then deviceIntermediate
    else if c.toNat < 0x40 then deviceParameters else string
  | deviceParameters =>
    if c.toNat < 0x30 then deviceIntermediate
    else if c.toNat < 0x3C then deviceParameters else string
  | deviceIntermediate => if c.toNat < 0x30 then deviceIntermediate else string
  | string => string
  | command => command

/-- The sequence that is open behind a character, and whether the character is shown. -/
def step (s : Sequence) (c : Char) : Sequence × Bool :=
  if c.toNat = 0x1B then (escape, false)
  else if c.toNat = 0x18 ∨ c.toNat = 0x1A then (ground, false)
  else if isControl c then
    (if s = command ∧ c.toNat = 0x07 then ground else s, s.obeysControls && isMovement c)
  else if c.toNat < 0x80 then (s.afterPrintable c, s = ground)
  else (if s = string ∧ holdsTerminator c then ground else s, s = ground)

end Sequence

/-- The visible part of a text that starts inside the sequence `s`; `showing` says whether the
character in front of it was shown. -/
def visibleFrom : (showing : Bool) → (s : Sequence) → List Char → List Char
  | _, _, [] => []
  | showing, s, c :: rest =>
    if showing ∧ (!isControl c ∨ isMovement c) then
      c :: visibleFrom true (if c.toNat < 0x80 then s else .ground) rest
    else match s.step c with
      | (next, true) => c :: visibleFrom true next rest
      | (next, false) => visibleFrom false next rest

/-- The part of a text that a terminal shows. -/
def visible (text : List Char) : List Char := visibleFrom false .ground text

end ExportTables.Text
