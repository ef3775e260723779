import BracketFilter.Calendar.Moment
import BracketFilter.Proofs.FieldsReadBack

/-!
# Dates and times are read back

A date, a time of day and a moment are each written in one notation, which is one of those that are
read. Years outside 0 to 9999 are written with a sign, which a date may have and a moment may not.

Principal results: `Date.read?_write` and `Time.read?_write` — a date and a time of day are read
back, whatever the year, the second and the fraction; `Moment.read?_write_eq_some_iff` — a moment is
read back exactly if its year has four digits and no sign.
-/

set_option autoImplicit false

namespace BracketFilter

open BracketFilter.Text BracketFilter.Calendar

/-! ## Dates -/

namespace Date

theorem ofParts?_self (d : Date) : ofParts? d.year d.month d.day = some d := dif_pos d.valid

theorem month_lt (d : Date) : d.month < 100 := by
  obtain ⟨-, -, -, hmonth, -⟩ := d.valid
  omega

theorem day_lt (d : Date) : d.day < 100 := by
  obtain ⟨-, -, -, -, -, hday⟩ := d.valid
  have hlast : daysInMonth d.year d.month ≤ 31 := by
    unfold daysInMonth
    split
    · split <;> omega
    · split <;> omega
  omega

/-- The years that are written with four digits and no sign. -/
def FourDigits (year : Int) : Prop := 0 ≤ year ∧ year ≤ 9999

instance (year : Int) : Decidable (FourDigits year) :=
  inferInstanceAs (Decidable (0 ≤ year ∧ year ≤ 9999))

theorem writeYear_of_fourDigits {year : Int} (plain : FourDigits year) :
    writeYear year = padded 4 year.natAbs := if_pos plain

theorem exists_writeYear_of_not {year : Int} (signed : ¬ FourDigits year) :
    ∃ sign, sign.isDigit = false ∧ writeYear year = sign :: padded 4 year.natAbs := by
  refine ⟨if year < 0 then '-' else '+', ?_, if_neg signed⟩
  split <;> rfl

@[simp] theorem solid_write (d : Date) : Solid d.write := by
  have hminus : isBlank '-' = false := by decide
  have hplus : isBlank '+' = false := by decide
  have hyear : Solid (writeYear d.year) := by
    unfold writeYear
    split
    · exact solid_padded _ _
    · split <;> simp [hminus, hplus]
  simp [write, hyear, hminus]

theorem scanIso?_write (d : Date) {rest : List Char} (ends : EndsDigits rest) :
    scanIso? (d.write ++ rest) = some (d, rest) := by
  have hends (cs : List Char) : EndsDigits ('-' :: cs) := endsDigits_cons.2 rfl
  unfold scanIso? write
  simp only [List.append_assoc, List.cons_append, signedField?_writeYear _ (hends _),
    Option.bind_eq_bind, Option.bind_some, spacedChar?_cons (show isBlank '-' = false by decide),
    field?_padded (by omega : 0 < 2) d.month_lt (hends _),
    field?_padded (by omega : 0 < 2) d.day_lt ends, ofParts?_self, Option.pure_def]

/-- **A date is read back**, in every year of the calendar. -/
theorem read?_write (d : Date) : read? d.write = some d := by
  have hscan := d.scanIso?_write endsDigits_nil
  rw [List.append_nil] at hscan
  have hend : atEnd [] = true := rfl
  have hiso : readIso? d.write = some d := by
    simp only [readIso?, hscan, hend, Option.bind_eq_bind, Option.bind_some, if_true,
      Option.pure_def]
  simp only [read?, hiso]

end Date

/-! ## Times of day -/

namespace Time

theorem ofParts?_self (t : Time) : ofParts? t.hour t.minute t.second t.nanosecond = some t :=
  dif_pos t.valid

theorem hour_lt (t : Time) : t.hour < 100 := by
  obtain ⟨hhour, -⟩ := t.valid
  omega

theorem minute_lt (t : Time) : t.minute < 100 := by
  obtain ⟨-, hminute, -⟩ := t.valid
  omega

theorem second_lt (t : Time) : t.second < 100 := by
  obtain ⟨-, -, hsecond, -⟩ := t.valid
  omega

@[simp] theorem solid_write (t : Time) : Solid t.write := by
  have hcolon : isBlank ':' = false := by decide
  have hpoint : isBlank '.' = false := by decide
  have hfraction : Solid (writeFraction t.nanosecond) := by
    unfold writeFraction
    split
    · exact solid_nil
    · split
      · simp [hpoint]
      · split <;> simp [hpoint]
  simp [write, hfraction, hcolon]

/-- What stands behind the seconds begins with no digit, if what stands behind the time does not. -/
theorem endsDigits_writeFraction (n : Nat) {rest : List Char} (ends : EndsDigits rest) :
    EndsDigits (writeFraction n ++ rest) := by
  have hpoint (cs : List Char) : EndsDigits ('.' :: cs) := endsDigits_cons.2 rfl
  unfold writeFraction
  split
  · exact ends
  · split
    · exact hpoint _
    · split <;> exact hpoint _

theorem scanHourMinute?_write (t : Time) (rest : List Char) :
    scanHourMinute? (t.write ++ rest) = some ((t.hour, t.minute),
      ':' :: (padded 2 t.second ++ (writeFraction t.nanosecond ++ rest))) := by
  have hends (cs : List Char) : EndsDigits (':' :: cs) := endsDigits_cons.2 rfl
  unfold scanHourMinute? write
  simp only [List.append_assoc, List.cons_append, Option.bind_eq_bind, Option.bind_some,
    spacedChar?_cons (show isBlank ':' = false by decide),
    field?_padded (by omega : 0 < 2) t.hour_lt (hends _),
    field?_padded (by omega : 0 < 2) t.minute_lt (hends _), Option.pure_def]

theorem scanFull?_write (t : Time) {rest : List Char} (ends : EndsDigits rest)
    (noPoint : rest.head? ≠ some '.') : scanFull? (t.write ++ rest) = some (t, rest) := by
  have hfraction := optionalFraction?_writeFraction t.valid.2.2.2 ends noPoint
  unfold scanFull? scanSecond?
  simp only [scanHourMinute?_write, Option.bind_eq_bind, Option.bind_some,
    spacedChar?_cons (show isBlank ':' = false by decide),
    field?_padded (by omega : 0 < 2) t.second_lt (endsDigits_writeFraction _ ends), hfraction,
    ofParts?_self, Option.pure_def]

/-- **A time of day is read back**, leap seconds and fractions of all lengths among them. -/
theorem read?_write (t : Time) : read? t.write = some t := by
  have hminutes := t.scanHourMinute?_write []
  have hfull := t.scanFull?_write endsDigits_nil (by simp)
  rw [List.append_nil] at hminutes hfull
  have hmore (cs : List Char) : atEnd (':' :: cs) = false := rfl
  simp only [read?, hminutes, hfull, hmore, Option.bind_eq_bind, Option.bind_some,
    Bool.false_eq_true, if_false]
  rfl

end Time

/-! ## Moments -/

namespace Moment

theorem shift?_zero (m : Moment) : shift? m 0 = some m := by
  obtain ⟨hhour, hminute, -⟩ := m.time.valid
  have hnotBefore : ¬ (m.time.hour * 60 + m.time.minute : Int) + 0 < 0 := by omega
  have hnotAfter : ¬ minutesPerDay ≤ (m.time.hour * 60 + m.time.minute : Int) + 0 := by
    unfold minutesPerDay
    omega
  have hday : (((m.time.hour * 60 + m.time.minute : Int) + 0) % minutesPerDay).toNat =
      m.time.hour * 60 + m.time.minute := by
    unfold minutesPerDay
    omega
  have hhours : (m.time.hour * 60 + m.time.minute) / 60 = m.time.hour := by omega
  have hminutes : (m.time.hour * 60 + m.time.minute) % 60 = m.time.minute := by omega
  simp only [shift?, if_neg hnotBefore, if_neg hnotAfter, hday, hhours, hminutes,
    Option.bind_eq_bind, Option.bind_some, Time.ofParts?_self, Option.pure_def]

@[simp] theorem solid_write (m : Moment) : Solid m.write := by
  have hletter : isBlank 'T' = false := by decide
  have hall : "+00:00".toList.all (fun c => !isBlank c) = true := by decide
  have hoffset : Solid "+00:00".toList := fun c hc => by
    simpa using List.all_eq_true.1 hall c hc
  simp only [write, solid_append, solid_cons, Date.solid_write, Time.solid_write, hletter, hoffset,
    and_self]

theorem scanStrictDate?_write {d : Date} (plain : Date.FourDigits d.year) (rest : List Char) :
    scanStrictDate? (d.write ++ rest) = some (d, rest) := by
  have hyear : d.year.natAbs < 10000 := by
    unfold Date.FourDigits at plain
    omega
  have hsame : (d.year.natAbs : Int) = d.year := Int.natAbs_of_nonneg plain.1
  unfold scanStrictDate? Date.write
  rw [Date.writeYear_of_fourDigits plain]
  simp only [List.append_assoc, List.cons_append, Option.bind_eq_bind, Option.bind_some,
    exactly?_padded (by omega : 0 < 4) hyear, exactly?_padded (by omega : 0 < 2) d.month_lt,
    exactly?_padded (by omega : 0 < 2) d.day_lt, char?_cons, hsame, Date.ofParts?_self,
    Option.pure_def]

theorem scanStrictTime?_write (t : Time) {rest : List Char} (ends : EndsDigits rest)
    (noPoint : rest.head? ≠ some '.') : scanStrictTime? (t.write ++ rest) = some (t, rest) := by
  have hfraction := optionalFraction?_writeFraction t.valid.2.2.2 ends noPoint
  unfold scanStrictTime? Time.write
  simp only [List.append_assoc, List.cons_append, Option.bind_eq_bind, Option.bind_some,
    exactly?_padded (by omega : 0 < 2) t.hour_lt, exactly?_padded (by omega : 0 < 2) t.minute_lt,
    exactly?_padded (by omega : 0 < 2) t.second_lt, char?_cons, hfraction, Time.ofParts?_self,
    Option.pure_def]

theorem scanOffset?_utc : scanOffset? "+00:00".toList = some (0, []) := by decide

theorem endsDigits_utc : EndsDigits "+00:00".toList ∧ "+00:00".toList.head? ≠ some '.' := by
  simp [EndsDigits]

/-- A moment in a year of four digits is read by the strict notation. -/
theorem readRfc3339?_write {m : Moment} (plain : Date.FourDigits m.date.year) :
    readRfc3339? m.write = some m := by
  unfold readRfc3339? write
  simp only [scanStrictDate?_write plain, Option.bind_eq_bind, Option.bind_some, scanSeparator?,
    true_or, if_true, scanStrictTime?_write m.time endsDigits_utc.1 endsDigits_utc.2,
    scanOffset?_utc, List.isEmpty_nil, Int.neg_zero]
  exact shift?_zero m

/-- No notation reads a moment in another year: the strict one and that with the day in front find
no digit where the sign stands, and behind a date, or a date and a time, there is more to come. -/
theorem read?_write_eq_none {m : Moment} (signed : ¬ Date.FourDigits m.date.year) :
    read? m.write = none := by
  obtain ⟨sign, hsign, hyear⟩ := Date.exists_writeYear_of_not signed
  obtain ⟨tail, htail⟩ : ∃ tail, m.write = sign :: tail := ⟨_, by
    unfold write Date.write
    rw [hyear]
    rfl⟩
  have hblank : isBlank sign = false := by
    have hsolid := solid_write m
    rw [htail] at hsolid
    exact (solid_cons.1 hsolid).1
  have hstrict : readRfc3339? m.write = none := by
    have hnone : exactly? 4 (sign :: tail) = none := by simp [exactly?, hsign]
    simp only [readRfc3339?, scanStrictDate?, htail, hnone, Option.bind_eq_bind, Option.bind_none]
  have hdate : Date.scanIso? m.write = some (m.date, 'T' :: (m.time.write ++ "+00:00".toList)) :=
    m.date.scanIso?_write (endsDigits_cons.2 rfl)
  have hnaive : readNaive? m.write = none := by
    have htime := m.time.scanFull?_write endsDigits_utc.1 endsDigits_utc.2
    have hmore : atEnd "+00:00".toList = false := by decide
    simp only [readNaive?, hdate, htime, hmore,
      spacedChar?_cons (show isBlank 'T' = false by decide),
      Option.bind_eq_bind, Option.bind_some, Bool.false_eq_true, if_false]
  have hbare : Date.read? m.write = none := by
    have hiso : Date.readIso? m.write = none := by
      have hmore (cs : List Char) : atEnd ('T' :: cs) = false := rfl
      simp only [Date.readIso?, hdate, hmore, Option.bind_eq_bind, Option.bind_some,
        Bool.false_eq_true, if_false]
    have hday : Date.readDayFirst? m.write = none := by
      have hnone : field? 2 (sign :: tail) = none := by
        simp [field?, trimStart, hblank, digits?, hsign]
      simp only [Date.readDayFirst?, htail, hnone, Option.bind_eq_bind, Option.bind_none]
    simp only [Date.read?, hiso, hday]
  simp only [read?, hstrict, hnaive, hbare, Option.map_none]

/-- **A moment is read back exactly if its year has four digits and no sign.** -/
theorem read?_write_eq_some_iff (m : Moment) :
    read? m.write = some m ↔ Date.FourDigits m.date.year := by
  constructor
  · contrapose
    intro signed
    rw [read?_write_eq_none signed]
    exact nofun
  · intro plain
    simp only [read?, readRfc3339?_write plain]

example : read? "+10000-01-01T00:00:00+00:00".toList = none := by decide +kernel

end Moment

end BracketFilter
