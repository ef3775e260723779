import BracketFilter.Calendar.Scan
import BracketFilter.Text.Numeral

/-!
# Times of day

* `Time` — hour, minute, second and nanosecond; the second 60 is a leap second.
* `Time.compare` — the order within a day.
* `Time.write` — `HH:MM:SS` and a fraction of 3, 6 or 9 digits unless it is zero.
* `Time.read?` — hours and minutes, and seconds with a fraction if they are given.
-/

set_option autoImplicit false

namespace BracketFilter

/-- Whether four numbers make up a time of day. -/
def Time.Valid (hour minute second nanosecond : Nat) : Prop :=
  hour ≤ 23 ∧ minute ≤ 59 ∧ second ≤ 60 ∧ nanosecond ≤ 999999999

instance Time.instDecidableValid (hour minute second nanosecond : Nat) :
    Decidable (Time.Valid hour minute second nanosecond) := by
  unfold Time.Valid
  infer_instance

/-- A time of day, with room for a leap second in every minute. -/
structure Time where
  hour : Nat
  minute : Nat
  second : Nat
  nanosecond : Nat
  valid : Time.Valid hour minute second nanosecond
  deriving DecidableEq

namespace Time

open BracketFilter.Text BracketFilter.Calendar

/-- The time with these parts, if there is one. -/
def ofParts? (hour minute second nanosecond : Nat) : Option Time :=
  if h : Valid hour minute second nanosecond then some ⟨hour, minute, second, nanosecond, h⟩
  else none

/-- The start of the day. -/
def midnight : Time := ⟨0, 0, 0, 0, by decide⟩

/-- The order within a day. -/
def compare (a b : Time) : Ordering :=
  (Ord.compare a.hour b.hour).then
    ((Ord.compare a.minute b.minute).then
      ((Ord.compare a.second b.second).then (Ord.compare a.nanosecond b.nanosecond)))

/-! ## Writing -/

/-- The fraction of a second: nothing, or as many of 3, 6 or 9 digits as it needs. -/
def writeFraction (nanosecond : Nat) : List Char :=
  if nanosecond = 0 then []
  else if nanosecond % 1000000 = 0 then '.' :: padded 3 (nanosecond / 1000000)
  else if nanosecond % 1000 = 0 then '.' :: padded 6 (nanosecond / 1000)
  else '.' :: padded 9 nanosecond

/-- Hours, minutes and seconds with colons between them, and the fraction. -/
def write (t : Time) : List Char :=
  padded 2 t.hour ++ ':' :: (padded 2 t.minute ++ ':' :: (padded 2 t.second ++
    writeFraction t.nanosecond))

/-! ## Reading -/

/-- Hours and minutes with a colon between them; blanks may stand before each part. -/
def scanHourMinute? (cs : List Char) : Option ((Nat × Nat) × List Char) := do
  let (hour, cs) ← field? 2 cs
  let cs ← spacedChar? ':' cs
  let (minute, cs) ← field? 2 cs
  pure ((hour, minute), cs)

/-- A colon, seconds and a fraction; blanks may stand before the first two. -/
def scanSecond? (cs : List Char) : Option ((Nat × Nat) × List Char) := do
  let cs ← spacedChar? ':' cs
  let (second, cs) ← field? 2 cs
  let (nanosecond, cs) ← optionalFraction? cs
  pure ((second, nanosecond), cs)

/-- A time with seconds. -/
def scanFull? (cs : List Char) : Option (Time × List Char) := do
  let ((hour, minute), cs) ← scanHourMinute? cs
  let ((second, nanosecond), cs) ← scanSecond? cs
  let time ← ofParts? hour minute second nanosecond
  pure (time, cs)

/-- A time of day, in which the seconds may be left out. -/
def read? (cs : List Char) : Option Time := do
  let ((hour, minute), rest) ← scanHourMinute? cs
  if atEnd rest then ofParts? hour minute 0 0
  else
    let (time, rest) ← scanFull? cs
    if atEnd rest then pure time else none

end Time

end BracketFilter
