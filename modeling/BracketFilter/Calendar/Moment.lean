import BracketFilter.Calendar.Date
import BracketFilter.Calendar.Time

/-!
# Moments in coordinated universal time

* `Moment` — a date and a time of day in UTC, ordered in time.
* `Moment.shift?` — the moment a number of minutes later or earlier, by less than a day.
* `Moment.write` — the date, `T`, the time and the offset `+00:00`.
* `Moment.readRfc3339?`, `Moment.readNaive?` — with an offset; without one, read as UTC.
* `Moment.read?` — these two notations, and then a bare date, which means its midnight.
-/

set_option autoImplicit false

namespace BracketFilter

/-- A moment in UTC. -/
structure Moment where
  date : Date
  time : Time
  deriving DecidableEq

namespace Moment

open BracketFilter.Text BracketFilter.Calendar

/-- The order in time. -/
def compare (a b : Moment) : Ordering := (a.date.compare b.date).then (a.time.compare b.time)

/-- The start of a day. -/
def midnight (date : Date) : Moment := ⟨date, .midnight⟩

/-- The minutes of a day. -/
def minutesPerDay : Int := 1440

/-- The moment `minutes` later, or earlier if they are negative, within the day before and the day
after. Seconds stay as they are. -/
def shift? (m : Moment) (minutes : Int) : Option Moment := do
  let total := (m.time.hour * 60 + m.time.minute : Int) + minutes
  let date ←
    if total < 0 then m.date.previous?
    else if minutesPerDay ≤ total then m.date.next?
    else some m.date
  let ofDay := (total % minutesPerDay).toNat
  let time ← Time.ofParts? (ofDay / 60) (ofDay % 60) m.time.second m.time.nanosecond
  pure ⟨date, time⟩

/-! ## Writing -/

/-- The date and the time in UTC. -/
def write (m : Moment) : List Char := m.date.write ++ 'T' :: (m.time.write ++ "+00:00".toList)

/-- The same with `Z` for the offset. -/
def writeZulu (m : Moment) : List Char := m.date.write ++ 'T' :: (m.time.write ++ ['Z'])

/-! ## Reading -/

/-- A date with four, two and two digits. -/
def scanStrictDate? (cs : List Char) : Option (Date × List Char) := do
  let (year, cs) ← exactly? 4 cs
  let cs ← char? '-' cs
  let (month, cs) ← exactly? 2 cs
  let cs ← char? '-' cs
  let (day, cs) ← exactly? 2 cs
  let date ← Date.ofParts? year month day
  pure (date, cs)

/-- A time with two digits in each part and an optional fraction. -/
def scanStrictTime? (cs : List Char) : Option (Time × List Char) := do
  let (hour, cs) ← exactly? 2 cs
  let cs ← char? ':' cs
  let (minute, cs) ← exactly? 2 cs
  let cs ← char? ':' cs
  let (second, cs) ← exactly? 2 cs
  let (nanosecond, cs) ← optionalFraction? cs
  let time ← Time.ofParts? hour minute second nanosecond
  pure (time, cs)

/-- What stands between the date and the time: `T` in either case, or a space. -/
def scanSeparator? : List Char → Option (List Char)
  | c :: rest => if c = 'T' ∨ c = 't' ∨ c = ' ' then some rest else none
  | [] => none

/-- Hours and minutes of an offset, in minutes. -/
def scanOffsetMinutes? (cs : List Char) : Option (Int × List Char) := do
  let (hours, cs) ← exactly? 2 cs
  let cs ← char? ':' cs
  let (minutes, cs) ← exactly? 2 cs
  if hours ≤ 23 ∧ minutes ≤ 59 then pure ((hours * 60 + minutes : Nat), cs) else none

/-- An offset from UTC in minutes: `Z` in either case, or a sign, hours and minutes. The minus sign
may be the hyphen or U+2212. -/
def scanOffset? : List Char → Option (Int × List Char)
  | c :: rest =>
    if c = 'Z' ∨ c = 'z' then some (0, rest)
    else if c = '+' then scanOffsetMinutes? rest
    else if c = '-' ∨ c.toNat = 0x2212 then
      (scanOffsetMinutes? rest).map fun r => (-r.1, r.2)
    else none
  | [] => none

/-- Date, time and offset, with a fixed count of digits in each part. -/
def readRfc3339? (cs : List Char) : Option Moment := do
  let (date, cs) ← scanStrictDate? cs
  let cs ← scanSeparator? cs
  let (time, cs) ← scanStrictTime? cs
  let (offset, cs) ← scanOffset? cs
  if cs.isEmpty then shift? ⟨date, time⟩ (-offset) else none

/-- Date and time without an offset; blanks may stand before each part. -/
def readNaive? (cs : List Char) : Option Moment := do
  let (date, cs) ← Date.scanIso? cs
  let cs ← spacedChar? 'T' cs
  let (time, cs) ← Time.scanFull? cs
  if atEnd cs then pure ⟨date, time⟩ else none

/-- A moment in any of the notations. -/
def read? (cs : List Char) : Option Moment :=
  match readRfc3339? cs with
  | some moment => some moment
  | none =>
    match readNaive? cs with
    | some moment => some moment
    | none => (Date.read? cs).map midnight

end Moment

end BracketFilter
