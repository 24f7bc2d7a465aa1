import TraceGraph.Text.Numerals
import TraceGraph.Text.Reader

/-!
# TOML dates and times

A date of the Gregorian calendar, a time of day with an optional fraction of a second, or
both, with an optional distance from universal time.

No setting is a date, so nothing is kept of one but that it is well formed. That has to be
found out, since a text which is not well formed makes the whole document invalid: a month
has as many days as the calendar gives it, an hour has sixty minutes, and the last second of
a minute may be a leap second.
-/

namespace TraceGraph.Toml

open Reader

/-- A number of exactly `width` digits. -/
def fixedWidth (width low high : Nat) : Reader Nat := do
  let n := Digits.number 10 (← times (one (Digits.isDigit 10)) width)
  require (low ≤ n ∧ n ≤ high)
  return n

/-- Every fourth year is a leap year, but of the full centuries only every fourth. -/
def isLeapYear (year : Nat) : Bool := year % 4 = 0 && (year % 100 ≠ 0 || year % 400 = 0)

/-- The number of days of a month of a year. -/
def daysIn (year month : Nat) : Nat :=
  if month = 2 then (if isLeapYear year then 29 else 28)
  else if month = 4 ∨ month = 6 ∨ month = 9 ∨ month = 11 then 30
  else 31

/-- Year, month and day. -/
def date : Reader Unit := do
  let year ← fixedWidth 4 0 9999
  char '-'
  let month ← fixedWidth 2 1 12
  char '-'
  let _ ← fixedWidth 2 1 (daysIn year month)

/-- The last second of a minute may be a leap second. -/
def timeOfDay : Reader Unit := do
  let _ ← fixedWidth 2 0 23
  char ':'
  let _ ← fixedWidth 2 0 59
  char ':'
  let _ ← fixedWidth 2 0 60
  let _ ← optional? (char '.' *> oneOrMore (one (Digits.isDigit 10)))

/-- How far a time is from universal time. -/
def offset : Reader Unit :=
  (do let _ ← one fun c => c = 'Z' || c = 'z') <|> (do
    let _ ← one fun c => c = '+' || c = '-'
    let _ ← fixedWidth 2 0 23
    char ':'
    let _ ← fixedWidth 2 0 59)

/-- A date, a time of day, or both. -/
def moment : Reader Unit :=
  (do
    date
    let _ ← optional? (do
      let _ ← one fun c => c = 'T' || c = 't' || c = ' '
      timeOfDay
      optional? offset)) <|> timeOfDay

end TraceGraph.Toml
