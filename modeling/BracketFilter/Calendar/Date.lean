import BracketFilter.Calendar.Scan
import BracketFilter.Text.Numeral

/-!
# Dates of the Gregorian calendar

* `Date` — a day of the proleptic Gregorian calendar, in the years -262143 to 262142.
* `Date.compare` — the order in time; `Date.next?`, `Date.previous?` — the neighbouring days.
* `Date.write` — `YYYY-MM-DD`; years outside 0 to 9999 have a sign.
* `Date.readIso?`, `Date.readDayFirst?` — the two notations that are read, and `Date.read?`, which
  tries them in this order.
-/

set_option autoImplicit false

namespace BracketFilter

/-- Whether a year has a 29th of February. -/
def Date.isLeapYear (year : Int) : Bool :=
  year % 4 == 0 && (year % 100 != 0 || year % 400 == 0)

/-- The number of days in a month. -/
def Date.daysInMonth (year : Int) (month : Nat) : Nat :=
  if month = 2 then (if Date.isLeapYear year then 29 else 28)
  else if month = 4 ∨ month = 6 ∨ month = 9 ∨ month = 11 then 30
  else 31

/-- The first year. -/
def Date.firstYear : Int := -262143

/-- The last year. -/
def Date.lastYear : Int := 262142

/-- Whether year, month and day make up a date. -/
def Date.Valid (year : Int) (month day : Nat) : Prop :=
  Date.firstYear ≤ year ∧ year ≤ Date.lastYear ∧ 1 ≤ month ∧ month ≤ 12 ∧ 1 ≤ day ∧
    day ≤ Date.daysInMonth year month

instance Date.instDecidableValid (year : Int) (month day : Nat) :
    Decidable (Date.Valid year month day) := by
  unfold Date.Valid
  infer_instance

/-- A day of the calendar. -/
structure Date where
  year : Int
  month : Nat
  day : Nat
  valid : Date.Valid year month day
  deriving DecidableEq

namespace Date

open BracketFilter.Text BracketFilter.Calendar

/-- The date with these parts, if there is one. -/
def ofParts? (year : Int) (month day : Nat) : Option Date :=
  if h : Valid year month day then some ⟨year, month, day, h⟩ else none

/-- The order in time. -/
def compare (a b : Date) : Ordering :=
  (Ord.compare a.year b.year).then
    ((Ord.compare a.month b.month).then (Ord.compare a.day b.day))

/-- The day after, unless the calendar ends. -/
def next? (d : Date) : Option Date :=
  if d.day < daysInMonth d.year d.month then ofParts? d.year d.month (d.day + 1)
  else if d.month < 12 then ofParts? d.year (d.month + 1) 1
  else ofParts? (d.year + 1) 1 1

/-- The day before, unless the calendar begins. -/
def previous? (d : Date) : Option Date :=
  if 1 < d.day then ofParts? d.year d.month (d.day - 1)
  else if 1 < d.month then ofParts? d.year (d.month - 1) (daysInMonth d.year (d.month - 1))
  else ofParts? (d.year - 1) 12 31

/-! ## Writing -/

/-- Four digits, or a sign and at least four digits outside the years 0 to 9999. -/
def writeYear (year : Int) : List Char :=
  if 0 ≤ year ∧ year ≤ 9999 then padded 4 year.natAbs
  else (if year < 0 then '-' else '+') :: padded 4 year.natAbs

/-- Year, month and day with hyphens between them. -/
def write (d : Date) : List Char :=
  writeYear d.year ++ '-' :: (padded 2 d.month ++ '-' :: padded 2 d.day)

/-! ## Reading -/

/-- Year, month and day with hyphens between them; blanks may stand before each part. -/
def scanIso? (cs : List Char) : Option (Date × List Char) := do
  let (year, cs) ← signedField? 4 cs
  let cs ← spacedChar? '-' cs
  let (month, cs) ← field? 2 cs
  let cs ← spacedChar? '-' cs
  let (day, cs) ← field? 2 cs
  let date ← ofParts? year month day
  pure (date, cs)

/-- A date in the year-first notation, and nothing behind it. -/
def readIso? (cs : List Char) : Option Date := do
  let (date, cs) ← scanIso? cs
  if atEnd cs then pure date else none

/-- Day, month and year with slashes right behind the numbers, and nothing behind them. -/
def readDayFirst? (cs : List Char) : Option Date := do
  let (day, cs) ← field? 2 cs
  let cs ← char? '/' cs
  let (month, cs) ← field? 2 cs
  let cs ← char? '/' cs
  let (year, cs) ← signedField? 4 cs
  if cs.isEmpty then ofParts? year month day else none

/-- A date in either notation. -/
def read? (cs : List Char) : Option Date :=
  match readIso? cs with
  | some date => some date
  | none => readDayFirst? cs

end Date

end BracketFilter
