/-!
# Dates and times

A moment is a date, a time, or a date with a time, which may have an offset. As with numbers, only
its end and its admission matter: the day has to exist in its month, and a minute may have a leap
second.

Nothing else that begins with four digits and a hyphen or with two digits and a colon is a value,
so a moment is recognised by its head.
-/

namespace ExportTables.Toml

/-- The number of two digits at the head of a text. -/
def twoDigits? : List Char → Option (Nat × List Char)
  | a :: b :: rest =>
    if a.isDigit ∧ b.isDigit then some (10 * (a.toNat - 48) + (b.toNat - 48), rest) else none
  | _ => none

/-- The number of two digits at the head of a text, within limits. -/
def twoDigitsIn? (low high : Nat) (text : List Char) : Option (Nat × List Char) :=
  (twoDigits? text).filter fun (n, _) => low ≤ n && n ≤ high

/-- The text behind a character. -/
def skipChar? (c : Char) : List Char → Option (List Char)
  | d :: rest => if d = c then some rest else none
  | [] => none

/-- The number of days of a month. -/
def daysIn (year month : Nat) : Nat :=
  if month = 2 then
    if year % 4 = 0 ∧ (year % 100 ≠ 0 ∨ year % 400 = 0) then 29 else 28
  else if month ∈ [4, 6, 9, 11] then 30
  else 31

/-- The text behind a date. -/
def date? (text : List Char) : Option (List Char) := do
  let (century, rest) ← twoDigits? text
  let (year, rest) ← twoDigits? rest
  let (month, rest) ← twoDigitsIn? 1 12 (← skipChar? '-' rest)
  let (_, rest) ← twoDigitsIn? 1 (daysIn (100 * century + year) month) (← skipChar? '-' rest)
  some rest

/-- The text behind the fraction of a second, if there is one. -/
def skipSecondFraction : List Char → List Char
  | '.' :: c :: rest => if c.isDigit then rest.dropWhile Char.isDigit else '.' :: c :: rest
  | text => text

/-- The text behind a time. -/
def time? (text : List Char) : Option (List Char) := do
  let (_, rest) ← twoDigitsIn? 0 23 text
  let (_, rest) ← twoDigitsIn? 0 59 (← skipChar? ':' rest)
  let (_, rest) ← twoDigitsIn? 0 60 (← skipChar? ':' rest)
  some (skipSecondFraction rest)

/-- The text behind an offset of hours and minutes. -/
def offset? (text : List Char) : Option (List Char) := do
  let (_, rest) ← twoDigitsIn? 0 23 text
  let (_, rest) ← twoDigitsIn? 0 59 (← skipChar? ':' rest)
  some rest

/-- The text behind the offset of a time, if there is one. -/
def skipOffset (text : List Char) : List Char :=
  match text with
  | c :: rest =>
    if c = 'Z' ∨ c = 'z' then rest
    else if c = '+' ∨ c = '-' then (offset? rest).getD text
    else text
  | [] => []

/-- The text behind the time of a date, if there is one. -/
def skipTime (text : List Char) : List Char :=
  match text with
  | c :: rest =>
    if c = 'T' ∨ c = 't' ∨ c = ' ' then ((time? rest).map skipOffset).getD text else text
  | [] => []

/-- The text behind a moment. -/
def moment? (text : List Char) : Option (List Char) :=
  match date? text with
  | some behind => some (skipTime behind)
  | none => time? text

end ExportTables.Toml
