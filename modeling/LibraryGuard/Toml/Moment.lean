import LibraryGuard.Toml.Number

/-!
# Dates and times of a document

A date is a year, a month and a day that exist; a time is hour, minute and second with a fraction or none, a leap second
allowed. The two may stand together, and then with an offset or none. Only the text is kept.
-/

namespace LibraryGuard.Toml

open Text (Reader)
open Text.Reader

/-- Reads a number of so many digits in a range. -/
def digitsBetween (count low high : Nat) : Reader Nat := do
  let n := valueInBase 10 (← exactly count Char.isDigit)
  if low ≤ n ∧ n ≤ high then return n else failure

/-- Whether a year has a leap day. -/
def isLeapYear (year : Nat) : Bool := year % 4 = 0 && (year % 100 ≠ 0 || year % 400 = 0)

/-- The number of days in a month. -/
def daysIn (year month : Nat) : Nat :=
  if month = 2 then (if isLeapYear year then 29 else 28)
  else if month = 4 ∨ month = 6 ∨ month = 9 ∨ month = 11 then 30
  else 31

/-- Reads a date. -/
def date : Reader Unit := do
  let year ← digitsBetween 4 0 9999
  char '-'
  let month ← digitsBetween 2 1 12
  char '-'
  let _ ← digitsBetween 2 1 (daysIn year month)

/-- Reads a time of day. -/
def timeOfDay : Reader Unit := do
  let _ ← digitsBetween 2 0 23
  char ':'
  let _ ← digitsBetween 2 0 59
  char ':'
  let _ ← digitsBetween 2 0 60
  let _ ← optional (do char '.'; while1 Char.isDigit)

/-- Reads the offset of a time. -/
def offset : Reader Unit :=
  (do let _ ← oneOf ['Z', 'z']) <|> (do
    let _ ← oneOf ['+', '-']
    let _ ← digitsBetween 2 0 23
    char ':'
    let _ ← digitsBetween 2 0 59)

/-- Reads a date, with a time or none, or a time. -/
def momentParts : Reader Unit :=
  (do
    date
    let _ ← optional (do
      let _ ← oneOf ['T', 't', ' ']
      timeOfDay
      optional offset)) <|> timeOfDay

/-- Reads a date or a time, keeping its text. -/
def moment : Reader Value := fun s =>
  (momentParts s).map fun (_, rest) => (.moment (String.ofList (s.take (s.length - rest.length))), rest)

end LibraryGuard.Toml
