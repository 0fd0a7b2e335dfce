import ExportTables.Text.Hex

/-!
# Numbers

No configuration looks at the value of a number, so reading one only finds where it ends and
whether it is admitted. An integer has to fit into sixty-four bits with a sign. A float is refused
if it is too large for the binary format and would be read as infinity; a float that is too small
is read as negative infinity, and admitted.

Digits may be grouped by single underscores, each between two digits.
-/

namespace ExportTables.Toml

open Text

/-- Whether a run of digits and underscores has each underscore between two digits. -/
def isGrouped : List Char → Bool
  | [] => false
  | '_' :: _ => false
  | [_] => true
  | _ :: '_' :: rest => isGrouped rest
  | _ :: rest => isGrouped rest

/-- The digits of a group at the head of a text, without underscores, and the text behind them. -/
def digitGroup? (isDigit : Char → Bool) (text : List Char) : Option (List Char × List Char) :=
  let inGroup := fun c => isDigit c || c == '_'
  let group := text.takeWhile inGroup
  if isGrouped group then some (group.filter (· != '_'), text.dropWhile inGroup) else none

/-- The digits of the integer part of a decimal number, which has no leading zero. -/
def integerDigits? (text : List Char) : Option (List Char × List Char) := do
  let (digits, behind) ← digitGroup? Char.isDigit text
  if digits.head? = some '0' ∧ digits.length ≠ 1 then none else some (digits, behind)

/-- The number that digits write in a base. -/
def numberOf (base : Nat) (digits : List Char) : Nat :=
  digits.foldl (fun n c => base * n + (hexValue? c).getD 0) 0

/-- A sign at the head of a text, as whether it is negative, and the text behind it. -/
def splitSign : List Char → Bool × List Char
  | '-' :: rest => (true, rest)
  | '+' :: rest => (false, rest)
  | text => (false, text)

/-- The least number that the binary format of floats rounds to infinity. -/
def floatLimit : Nat := Nat.pow 2 1024 - Nat.pow 2 970

/-- Whether a decimal number, given by its digits and by the power of ten that they count, reaches
the limit of floats. The number of its digits tells, unless it has about as many as the limit. -/
def isInfinite (digits : List Char) (power : Int) : Bool :=
  let significand := numberOf 10 digits
  let size := (Nat.toDigits 10 significand).length + power
  if significand = 0 ∨ size < 300 then false
  else if 320 < size then true
  else floatLimit * Nat.pow 10 (-power).toNat ≤ significand * Nat.pow 10 power.toNat

/-- The digits of the fraction at the head of a text, if there is one. -/
def fraction? : List Char → Option (List Char × List Char)
  | '.' :: rest => digitGroup? Char.isDigit rest
  | text => some ([], text)

/-- The exponent at the head of a text, if there is one. -/
def exponent? : List Char → Option (Int × List Char)
  | c :: rest =>
    if c = 'e' ∨ c = 'E' then do
      let (negative, unsigned) := splitSign rest
      let (digits, behind) ← digitGroup? Char.isDigit unsigned
      let size : Int := numberOf 10 digits
      some (if negative then -size else size, behind)
    else some (0, c :: rest)
  | [] => some (0, [])

/-- Whether a float or only an integer stands at a place, by what is behind its integer part. -/
def isFloatMark (behind : List Char) : Bool :=
  behind.head?.any fun c => c == '.' || c == 'e' || c == 'E'

/-- The least number that is too large for a signed integer of 64 bits. -/
def integerLimit : Nat := Nat.pow 2 63

/-- The text behind a decimal number whose sign has been read. -/
def decimal? (negative : Bool) (text : List Char) : Option (List Char) := do
  let (digits, behind) ← integerDigits? text
  if isFloatMark behind then
    let (places, behind) ← fraction? behind
    let (exponent, behind) ← exponent? behind
    if !negative ∧ isInfinite (digits ++ places) (exponent - places.length) then none
    else some behind
  else if numberOf 10 digits < integerLimit + (if negative then 1 else 0) then some behind
  else none

/-- The text behind an integer whose base has been read. -/
def basedInteger? (base : Nat) (text : List Char) : Option (List Char) := do
  let (digits, behind) ← digitGroup? (fun c => (hexValue? c).any (· < base)) text
  if numberOf base digits < integerLimit then some behind else none

/-- The text behind a number. -/
def number? : List Char → Option (List Char)
  | '0' :: 'x' :: rest => basedInteger? 16 rest
  | '0' :: 'o' :: rest => basedInteger? 8 rest
  | '0' :: 'b' :: rest => basedInteger? 2 rest
  | text =>
    let (negative, unsigned) := splitSign text
    match unsigned with
    | 'i' :: 'n' :: 'f' :: rest => some rest
    | 'n' :: 'a' :: 'n' :: rest => some rest
    | _ => decimal? negative unsigned

end ExportTables.Toml
