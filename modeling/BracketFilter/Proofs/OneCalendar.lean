import BracketFilter.Coercion
import BracketFilter.Proofs.DayNumbers
import BracketFilter.Proofs.Notations

/-!
# All notations denote one calendar

* `Date.dayFirst` — a date as it is written with the day in front.
* `Time.FractionWritten`, `Time.WrittenAs` — the texts of a time of day, with a fraction of any
  length.
* `Moment.OffsetWritten` — the texts of an offset from UTC.

Principal results: `Date.read?_dayFirst` — with the day in front the dates of the calendar are read,
and nothing else; `Coercer.exists_standard_offset` — an offset is taken off the instant;
`notations_agree` — what the notations of dates and moments denote, in whatever order they are
tried.
-/

set_option autoImplicit false

namespace BracketFilter

open BracketFilter.Text BracketFilter.Calendar

/-! ## Dates -/

namespace Date

/-- A date as it is written with the day in front. -/
def dayFirst (day month year : Nat) : List Char :=
  padded 2 day ++ '/' :: (padded 2 month ++ '/' :: padded 4 year)

@[simp] theorem solid_dayFirst (day month year : Nat) : Solid (dayFirst day month year) := by
  have hslash : isBlank '/' = false := by decide
  simp [dayFirst, hslash]

section DayFirst

variable {day month year : Nat} (hday : day < 100) (hmonth : month < 100) (hyear : year < 10000)
include hday

theorem scanIso?_dayFirst : scanIso? (dayFirst day month year) = none :=
  scanIso?_of_slash (padded_ne_nil 2 day) (digits_padded 2 day)
    ((length_padded (by omega) hday).trans_le (by omega)) (trimStart_padded 2 day _)

include hmonth hyear

theorem readDayFirst?_dayFirst :
    readDayFirst? (dayFirst day month year) = ofParts? year month day := by
  have hends (cs : List Char) : EndsDigits ('/' :: cs) := endsDigits_cons.2 rfl
  have hlast := signedField?_padded (length_padded (by omega : 0 < 4) hyear).le endsDigits_nil
  rw [List.append_nil] at hlast
  simp only [readDayFirst?, dayFirst, field?_padded (by omega : 0 < 2) hday (hends _), char?_cons,
    field?_padded (by omega : 0 < 2) hmonth (hends _), hlast, Option.bind_eq_bind,
    Option.bind_some, List.isEmpty_nil, if_true]

/-- **A date with the day in front is read exactly if the calendar has it.** -/
theorem read?_dayFirst : read? (dayFirst day month year) = ofParts? year month day := by
  have hiso : readIso? (dayFirst day month year) = none := by
    simp only [readIso?, scanIso?_dayFirst hday, Option.bind_eq_bind, Option.bind_none]
  simp only [read?, hiso, readDayFirst?_dayFirst hday hmonth hyear]

end DayFirst

theorem read?_own_dayFirst {d : Date} (plain : FourDigits d.year) :
    read? (dayFirst d.day d.month d.year.toNat) = some d := by
  have hyear : d.year.toNat < 10000 := by
    unfold FourDigits at plain
    omega
  rw [read?_dayFirst d.day_lt d.month_lt hyear, Int.toNat_of_nonneg plain.1]
  exact d.ofParts?_self

theorem write_ne_nil (d : Date) : d.write ≠ [] := by simp [write]

end Date

/-! ## Times of day -/

/-- The texts of a fraction of a second: nothing if it is zero, or a point and any count of digits,
of which the first nine count. -/
def Time.FractionWritten (nanosecond : Nat) (cs : List Char) : Prop :=
  (cs = [] ∧ nanosecond = 0) ∨
    ∃ digits, digits ≠ [] ∧ (∀ c ∈ digits, c.isDigit = true) ∧ cs = '.' :: digits ∧
      nanosecond = Nat.ofDigitChars 10 ((digits ++ List.replicate 9 '0').take 9) 0

/-- The texts of a time of day with two digits in each part. -/
def Time.WrittenAs (t : Time) (cs : List Char) : Prop :=
  ∃ fraction, FractionWritten t.nanosecond fraction ∧
    cs = padded 2 t.hour ++ ':' :: (padded 2 t.minute ++ ':' :: (padded 2 t.second ++ fraction))

namespace Time

/-- A fraction of a second is read, whatever the count of its digits. -/
theorem optionalFraction?_written {nanosecond : Nat} {cs rest : List Char}
    (written : FractionWritten nanosecond cs) (ends : EndsDigits rest)
    (noPoint : rest.head? ≠ some '.') :
    optionalFraction? (cs ++ rest) = some (nanosecond, rest) := by
  rcases written with ⟨rfl, rfl⟩ | ⟨digits, hne, hdigits, rfl, rfl⟩
  · rw [List.nil_append]
    unfold optionalFraction?
    split
    · exact absurd rfl noPoint
    · rfl
  · have hfirst : ∀ c ∈ digits.take 9, c.isDigit = true :=
      fun c hc => hdigits c (List.mem_of_mem_take hc)
    have hrun : ((digits ++ rest).take 9).takeWhile Char.isDigit = digits.take 9 := by
      rw [List.take_append]
      exact takeWhile_digits hfirst (ends.take _)
    have hsome : digits.take 9 ≠ [] := by simp [hne]
    have hrest : ((digits ++ rest).drop (digits.take 9).length).dropWhile Char.isDigit = rest := by
      have hmore : ∀ c ∈ digits.drop (digits.take 9).length, c.isDigit = true :=
        fun c hc => hdigits c (List.mem_of_mem_drop hc)
      rw [List.drop_append_of_le_length (by simp), List.dropWhile_append_of_pos hmore]
      exact dropWhile_of_endsDigits ends
    have hvalue : Nat.ofDigitChars 10 (digits.take 9) 0 *
        Nat.pow 10 (9 - (digits.take 9).length) =
        Nat.ofDigitChars 10 ((digits ++ List.replicate 9 '0').take 9) 0 := by
      have hzeros : 9 - (digits.take 9).length = min (9 - digits.length) 9 := by
        rw [List.length_take]
        omega
      rw [List.take_append, Nat.ofDigitChars_append, List.take_replicate,
        Nat.ofDigitChars_replicate_zero, hzeros, Nat.mul_comm]
      rfl
    have hpoint : optionalFraction? ('.' :: digits ++ rest) = fraction? (digits ++ rest) := rfl
    rw [hpoint]
    simp only [fraction?, hrun, if_neg hsome, hrest, hvalue]

theorem WrittenAs.solid {t : Time} {clock : List Char} (written : t.WrittenAs clock) :
    Solid clock := by
  have hcolon : isBlank ':' = false := by decide
  have hpoint : isBlank '.' = false := by decide
  obtain ⟨fraction, hfraction, rfl⟩ := written
  have hsolid : Solid fraction := by
    rcases hfraction with ⟨rfl, -⟩ | ⟨digits, -, hdigits, rfl, -⟩
    · exact solid_nil
    · exact solid_cons.2 ⟨hpoint, solid_of_digits hdigits⟩
  simp [hcolon, hsolid]

end Time

/-! ## Moments -/

namespace Moment

/-- Hours and minutes of an offset, without its sign. -/
def offsetClock (minutes : Int) : List Char :=
  padded 2 (minutes.natAbs / 60) ++ ':' :: padded 2 (minutes.natAbs % 60)

/-- The texts of an offset from UTC in minutes: a sign, hours and minutes, in which the minus sign
may be the hyphen or U+2212; also `Z` in either case for none. -/
def OffsetWritten (minutes : Int) (cs : List Char) : Prop :=
  (0 ≤ minutes ∧ cs = '+' :: offsetClock minutes) ∨
  (minutes ≤ 0 ∧ (cs = '-' :: offsetClock minutes ∨
    cs = Char.ofNat 0x2212 :: offsetClock minutes)) ∨
  (minutes = 0 ∧ (cs = ['Z'] ∨ cs = ['z']))

/-- **An offset of less than a day is read**, in each of its texts. -/
theorem scanOffset?_written {minutes : Int} (later : -minutesPerDay < minutes)
    (earlier : minutes < minutesPerDay) {zone : List Char} (h : OffsetWritten minutes zone) :
    scanOffset? zone = some (minutes, []) := by
  unfold minutesPerDay at later earlier
  have hhours : minutes.natAbs / 60 < 100 := by omega
  have hminutes : minutes.natAbs % 60 < 100 := by omega
  have hinside : minutes.natAbs / 60 ≤ 23 ∧ minutes.natAbs % 60 ≤ 59 := by omega
  have hvalue : minutes.natAbs / 60 * 60 + minutes.natAbs % 60 = minutes.natAbs := by omega
  have hclock : scanOffsetMinutes? (offsetClock minutes) = some ((minutes.natAbs : Int), []) := by
    have hlast := exactly?_padded (by omega : 0 < 2) hminutes []
    rw [List.append_nil] at hlast
    simp only [scanOffsetMinutes?, offsetClock, exactly?_padded (by omega : 0 < 2) hhours,
      char?_cons, hlast, Option.bind_eq_bind, Option.bind_some, if_pos hinside, hvalue,
      Option.pure_def]
  have hminus (c : Char) (hc : c = '-' ∨ c = Char.ofNat 0x2212) (clock : List Char) :
      scanOffset? (c :: clock) = (scanOffsetMinutes? clock).map fun r => (-r.1, r.2) := by
    rcases hc with rfl | rfl <;> rfl
  have hplus (clock : List Char) : scanOffset? ('+' :: clock) = scanOffsetMinutes? clock := rfl
  rcases h with ⟨hsign, rfl⟩ | ⟨hsign, hzone⟩ | ⟨rfl, rfl | rfl⟩
  · rw [hplus, hclock, Int.natAbs_of_nonneg hsign]
  · have habs : -(minutes.natAbs : Int) = minutes := by omega
    rcases hzone with rfl | rfl
    · rw [hminus _ (.inl rfl), hclock, Option.map_some, habs]
    · rw [hminus _ (.inr rfl), hclock, Option.map_some, habs]
  · rfl
  · rfl

theorem OffsetWritten.shape {minutes : Int} {zone : List Char} (h : OffsetWritten minutes zone) :
    Solid zone ∧ zone ≠ [] ∧ EndsDigits zone ∧ zone.head? ≠ some '.' := by
  have hclock : Solid (offsetClock minutes) := by
    simp [offsetClock, show isBlank ':' = false by decide]
  have hshape (c : Char) (cs : List Char) (hblank : isBlank c = false) (hdigit : c.isDigit = false)
      (hpoint : c ≠ '.') (hcs : Solid cs) : Solid (c :: cs) ∧ c :: cs ≠ [] ∧ EndsDigits (c :: cs) ∧
      (c :: cs).head? ≠ some '.' := by simp [hblank, hdigit, hpoint, hcs]
  rcases h with ⟨-, rfl⟩ | ⟨-, rfl | rfl⟩ | ⟨-, rfl | rfl⟩
  · exact hshape _ _ (by decide) (by decide) (by decide) hclock
  · exact hshape _ _ (by decide) (by decide) (by decide) hclock
  · exact hshape _ _ (by decide) (by decide) (by decide) hclock
  · exact hshape _ _ (by decide) (by decide) (by decide) solid_nil
  · exact hshape _ _ (by decide) (by decide) (by decide) solid_nil

/-- A time in any of its texts is found by the strict reader. -/
theorem scanStrictTime?_written {t : Time} {clock rest : List Char} (written : t.WrittenAs clock)
    (ends : EndsDigits rest) (noPoint : rest.head? ≠ some '.') :
    scanStrictTime? (clock ++ rest) = some (t, rest) := by
  obtain ⟨fraction, hfraction, rfl⟩ := written
  have hread := Time.optionalFraction?_written hfraction ends noPoint
  unfold scanStrictTime?
  simp only [List.append_assoc, List.cons_append, Option.bind_eq_bind, Option.bind_some,
    exactly?_padded (by omega : 0 < 2) t.hour_lt, exactly?_padded (by omega : 0 < 2) t.minute_lt,
    exactly?_padded (by omega : 0 < 2) t.second_lt, char?_cons, hread, Time.ofParts?_self,
    Option.pure_def]

/-- **An offset is a shift back.** -/
theorem readRfc3339?_written {d : Date} (plain : Date.FourDigits d.year) {t : Time}
    {clock : List Char} (written : t.WrittenAs clock) {minutes : Int}
    (later : -minutesPerDay < minutes) (earlier : minutes < minutesPerDay) {zone : List Char}
    (offset : OffsetWritten minutes zone) {separator : Char}
    (between : separator ∈ ['T', 't', ' ']) :
    readRfc3339? (d.write ++ separator :: (clock ++ zone)) = shift? ⟨d, t⟩ (-minutes) := by
  obtain ⟨-, -, hends, hnoPoint⟩ := offset.shape
  have hseparator : scanSeparator? (separator :: (clock ++ zone)) = some (clock ++ zone) := by
    simp only [List.mem_cons, List.not_mem_nil, or_false] at between
    simp [scanSeparator?, between]
  simp only [readRfc3339?, scanStrictDate?_write plain, hseparator,
    scanStrictTime?_written written hends hnoPoint, scanOffset?_written later earlier offset,
    Option.bind_eq_bind, Option.bind_some, List.isEmpty_nil, if_true]

theorem readNaive?_written {d : Date} {t : Time} {clock : List Char} (written : t.WrittenAs clock) :
    readNaive? (d.write ++ 'T' :: clock) = some ⟨d, t⟩ := by
  have hclock := Time.scanFull?_of_scanStrictTime?
    (scanStrictTime?_written written endsDigits_nil (by simp))
  rw [List.append_nil] at hclock
  exact readNaive?_eq_some_iff.2 ⟨_, _, [], d.scanIso?_write (endsDigits_cons.2 rfl),
    spacedChar?_cons (by decide) _, hclock, rfl⟩

end Moment

/-! ## The coercion of dates and moments -/

theorem Text.trim_of_solid_ends {front back : List Char} (hfront : front ≠ []) (hback : back ≠ [])
    (solid : Solid front) (solid' : Solid back) (middle : List Char) :
    trim (front ++ (middle ++ back)) = front ++ (middle ++ back) := by
  refine trimBoth_eq_self (fun c hc => ?_) (fun c hc => ?_)
  · rw [List.head?_append_of_ne_nil _ hfront] at hc
    exact solid c (List.mem_of_mem_head? hc)
  · rw [← List.append_assoc, List.getLast?_append_of_ne_nil _ hback] at hc
    exact solid' c (List.mem_of_getLast? hc)

namespace Coercer

theorem standard_of_read? {kind : Kind} {raw : String} {v : Value} (h : read? kind raw = some v) :
    standard raw kind = .ok v := by
  simp only [standard, h]

theorem standard_of_not_read? {kind : Kind} {raw : String} (h : read? kind raw = none) :
    standard raw kind = .error ⟨raw, kind⟩ := by
  simp only [standard, h]

theorem read?_date {cs : List Char} (untrimmed : trim cs = cs) :
    read? .date (String.ofList cs) = (Date.read? cs).map .date := by
  simp [read?, untrimmed]

theorem read?_dateTime {cs : List Char} (untrimmed : trim cs = cs) :
    read? .dateTimeUtc (String.ofList cs) = (Moment.read? cs).map .dateTime := by
  simp [read?, untrimmed]

/-- What is a date is a moment as well, its midnight. -/
theorem standard_of_date {cs : List Char} (solid : Solid cs) {d : Date}
    (h : Date.read? cs = some d) :
    standard (String.ofList cs) .date = .ok (.date d) ∧
      standard (String.ofList cs) .dateTimeUtc = .ok (.dateTime (.midnight d)) := by
  have htrim := trim_of_solid solid
  refine ⟨standard_of_read? ?_, standard_of_read? ?_⟩
  · rw [read?_date htrim, h]
    rfl
  · rw [read?_dateTime htrim, Moment.read?_of_date h]
    rfl

/-- What has the day in front and is no date of the calendar is refused, as a moment as well. -/
theorem standard_dayFirst_of_not_valid {day month year : Nat} (hday : day < 100)
    (hmonth : month < 100) (hyear : year < 10000) (invalid : ¬ Date.Valid year month day)
    {kind : Kind} (hkind : kind ∈ [Kind.date, .dateTimeUtc]) :
    standard (String.ofList (Date.dayFirst day month year)) kind =
      .error ⟨String.ofList (Date.dayFirst day month year), kind⟩ := by
  have htrim := trim_of_solid (Date.solid_dayFirst day month year)
  have hparts : Date.ofParts? year month day = none := dif_neg invalid
  refine standard_of_not_read? ?_
  simp only [List.mem_cons, List.not_mem_nil, or_false] at hkind
  rcases hkind with rfl | rfl
  · rw [read?_date htrim, Date.read?_dayFirst hday hmonth hyear, hparts]
    rfl
  · rw [read?_dateTime htrim, Moment.read?_of_not_scanIso? (Date.scanIso?_dayFirst hday),
      Date.readDayFirst?_dayFirst hday hmonth hyear, hparts]
    rfl

section Written

variable {d : Date} {t : Time} {clock : List Char} (written : t.WrittenAs clock)
include written

theorem standard_naive :
    standard (String.ofList (d.write ++ 'T' :: clock)) .dateTimeUtc = .ok (.dateTime ⟨d, t⟩) := by
  have hletter : isBlank 'T' = false := by decide
  have hsolid : Solid (d.write ++ 'T' :: clock) := by simp [hletter, written.solid]
  refine standard_of_read? ?_
  rw [read?_dateTime (trim_of_solid hsolid),
    Moment.read?_of_readNaive? (Moment.readNaive?_written written)]
  rfl

/-- **An offset is taken off the instant**, whatever day, month or year this leads to. -/
theorem exists_standard_offset (plain : Date.FourDigits d.year) {minutes : Int}
    (later : -Moment.minutesPerDay < minutes) (earlier : minutes < Moment.minutesPerDay)
    {zone : List Char} (offset : Moment.OffsetWritten minutes zone) {separator : Char}
    (between : separator ∈ ['T', 't', ' ']) :
    ∃ shifted : Moment,
      standard (String.ofList (d.write ++ separator :: (clock ++ zone))) .dateTimeUtc =
        .ok (.dateTime shifted) ∧
      shifted.instant = (⟨d, t⟩ : Moment).instant - minutes * 60000000000 ∧
      shifted.time.second = t.second := by
  obtain ⟨shifted, hshifted, hinstant, hsecond⟩ := Moment.exists_shift? (m := ⟨d, t⟩)
    (plain.1.trans_lt' (by decide)) (plain.2.trans_lt (by decide))
    (neg_lt_neg earlier) (neg_lt.1 later)
  have hread := (Moment.readRfc3339?_written plain written later earlier offset between).trans
    hshifted
  obtain ⟨hzone, hne, -, -⟩ := offset.shape
  have htrim : trim (d.write ++ separator :: (clock ++ zone)) =
      d.write ++ separator :: (clock ++ zone) :=
    trim_of_solid_ends d.write_ne_nil hne d.solid_write hzone (separator :: clock)
  refine ⟨shifted, standard_of_read? ?_, ?_, hsecond⟩
  · rw [read?_dateTime htrim, Moment.read?_of_readRfc3339? hread]
    rfl
  · rw [hinstant]
    omega

end Written

end Coercer

/-- **The notations denote one calendar.** Dates in the years 0 to 9999, in either of their
notations, mean themselves and, as moments, their midnights; what has the day in front and is no
date of the calendar is refused as both. A date and a time without an offset mean the moment in UTC,
and an offset of less than a day takes its minutes off the instant of this moment, which determines
the result outside leap seconds: the offset may carry it over the ends of days, months and years and
the 29th of February. No text is in two notations, so the order in which they are tried does not
matter. -/
theorem notations_agree :
    (∀ d : Date, Date.FourDigits d.year →
      ∀ text ∈ [d.write, Date.dayFirst d.day d.month d.year.toNat],
        Coercer.standard (String.ofList text) .date = .ok (.date d) ∧
        Coercer.standard (String.ofList text) .dateTimeUtc = .ok (.dateTime (.midnight d))) ∧
    (∀ day month year : Nat, day < 100 → month < 100 → year < 10000 →
      ¬ Date.Valid year month day → ∀ kind ∈ [Kind.date, .dateTimeUtc],
        Coercer.standard (String.ofList (Date.dayFirst day month year)) kind =
          .error ⟨String.ofList (Date.dayFirst day month year), kind⟩) ∧
    (∀ d : Date, Date.FourDigits d.year → ∀ (t : Time) (clock : List Char), t.WrittenAs clock →
      ∀ minutes : Int, -Moment.minutesPerDay < minutes → minutes < Moment.minutesPerDay →
      ∀ zone, Moment.OffsetWritten minutes zone → ∀ separator ∈ ['T', 't', ' '],
        Coercer.standard (String.ofList (d.write ++ 'T' :: clock)) .dateTimeUtc =
          .ok (.dateTime ⟨d, t⟩) ∧
        ∃ shifted : Moment,
          Coercer.standard (String.ofList (d.write ++ separator :: (clock ++ zone)))
            .dateTimeUtc = .ok (.dateTime shifted) ∧
          shifted.instant = (⟨d, t⟩ : Moment).instant - minutes * 60000000000 ∧
          shifted.time.second = t.second ∧
          (t.second ≤ 59 → ∀ m : Moment, m.Regular → m.instant = shifted.instant →
            m = shifted)) ∧
    Date.notations.Pairwise Apart ∧ Moment.notations.Pairwise Apart ∧
    ∀ raw : String,
      (∀ order : List _, order.Perm Date.notations →
        Coercer.read? .date raw = (order.findSome? (· (trim raw.toList))).map .date) ∧
      ∀ order : List _, order.Perm Moment.notations →
        Coercer.read? .dateTimeUtc raw = (order.findSome? (· (trim raw.toList))).map .dateTime := by
  refine ⟨?dates, ?refused, ?offsets, Date.pairwise_apart_notations,
    Moment.pairwise_apart_notations, fun raw => ⟨?orderOfDates, ?orderOfMoments⟩⟩
  case dates =>
    intro d plain text htext
    simp only [List.mem_cons, List.not_mem_nil, or_false] at htext
    rcases htext with rfl | rfl
    · exact Coercer.standard_of_date d.solid_write d.read?_write
    · exact Coercer.standard_of_date (Date.solid_dayFirst _ _ _) (d.read?_own_dayFirst plain)
  case refused =>
    intro day month year hday hmonth hyear invalid kind hkind
    exact Coercer.standard_dayFirst_of_not_valid hday hmonth hyear invalid hkind
  case offsets =>
    intro d plain t clock written minutes later earlier zone offset separator between
    obtain ⟨shifted, hshifted, hinstant, hsecond⟩ :=
      Coercer.exists_standard_offset written plain later earlier offset between
    refine ⟨Coercer.standard_naive written, shifted, hshifted, hinstant, hsecond, ?_⟩
    intro regular m hm hsame
    exact Moment.eq_of_instant_eq hm (hsecond.trans_le regular) hsame
  case orderOfDates =>
    intro order perm
    rw [findSome?_of_perm perm Date.pairwise_apart_notations, ← Date.read?_eq_findSome?]
    rfl
  case orderOfMoments =>
    intro order perm
    rw [findSome?_of_perm perm Moment.pairwise_apart_notations, ← Moment.read?_eq_findSome?]
    rfl

/-! ## The 29th of February -/

/-- A day that only leap years have. -/
def leapDay : Date := ⟨2024, 2, 29, by decide⟩

/-- Half an hour and a quarter of a second before midnight. -/
def lateNight : Time := ⟨23, 30, 0, 250000000, by decide⟩

/-- Three quarters of an hour after the late night of the leap day. -/
def inMarch : Moment := ⟨⟨2024, 3, 1, by decide⟩, ⟨0, 15, 0, 250000000, by decide⟩⟩

theorem lateNight_writtenAs : lateNight.WrittenAs "23:30:00.25".toList :=
  have digits : ∀ c ∈ ['2', '5'], c.isDigit = true := List.all_eq_true.1 rfl
  ⟨['.', '2', '5'], .inr ⟨['2', '5'], by simp, digits, rfl, by decide +kernel⟩,
    by decide +kernel⟩

theorem notations_agree_leap_day :
    Date.FourDigits leapDay.year ∧ ¬ Date.Valid 2023 2 29 ∧
    lateNight.WrittenAs "23:30:00.25".toList ∧
    (-Moment.minutesPerDay < -45 ∧ -45 < Moment.minutesPerDay) ∧
    Moment.OffsetWritten (-45) "-00:45".toList ∧ ' ' ∈ ['T', 't', ' '] ∧
    lateNight.second ≤ 59 ∧ inMarch.Regular ∧
    (∀ text ∈ ["2024-02-29", "29/02/2024"],
      Coercer.standard text .date = .ok (.date leapDay) ∧
      Coercer.standard text .dateTimeUtc = .ok (.dateTime (.midnight leapDay))) ∧
    (∀ kind ∈ [Kind.date, .dateTimeUtc],
      Coercer.standard "29/02/2023" kind = .error ⟨"29/02/2023", kind⟩) ∧
    Coercer.standard "2024-02-29T23:30:00.25" .dateTimeUtc =
      .ok (.dateTime ⟨leapDay, lateNight⟩) ∧
    Coercer.standard "2024-02-29 23:30:00.25-00:45" .dateTimeUtc = .ok (.dateTime inMarch) ∧
    Moment.notations.reverse.Perm Moment.notations ∧
    Coercer.read? .dateTimeUtc "2024-02-29" =
      (Moment.notations.reverse.findSome? (· (trim "2024-02-29".toList))).map .dateTime := by
  obtain ⟨dates, refused, offsets, -, -, orders⟩ := notations_agree
  have plain : Date.FourDigits leapDay.year := by decide
  have invalid : ¬ Date.Valid 2023 2 29 := by decide
  have later : -Moment.minutesPerDay < -45 := by decide
  have earlier : -45 < Moment.minutesPerDay := by decide
  have offset : Moment.OffsetWritten (-45) "-00:45".toList :=
    .inr (.inl ⟨by decide, .inl (by decide +kernel)⟩)
  have between : ' ' ∈ ['T', 't', ' '] := by decide
  have regular : lateNight.second ≤ 59 ∧ inMarch.Regular := by decide
  have reversed : Moment.notations.reverse.Perm Moment.notations := List.reverse_perm _
  have textsOfDay : [leapDay.write, Date.dayFirst 29 2 2024].map String.ofList =
      ["2024-02-29", "29/02/2024"] := by decide +kernel
  have noDay : String.ofList (Date.dayFirst 29 2 2023) = "29/02/2023" := by decide +kernel
  have naiveText : String.ofList (leapDay.write ++ 'T' :: "23:30:00.25".toList) =
      "2024-02-29T23:30:00.25" := by decide +kernel
  have offsetText :
      String.ofList (leapDay.write ++ ' ' :: ("23:30:00.25".toList ++ "-00:45".toList)) =
        "2024-02-29 23:30:00.25-00:45" := by decide +kernel
  obtain ⟨naive, shifted, hshifted, hinstant, -, hunique⟩ :=
    offsets leapDay plain lateNight _ lateNight_writtenAs (-45) later earlier _ offset ' ' between
  have hcarried : inMarch = shifted := by
    refine hunique regular.1 inMarch regular.2 ?_
    rw [hinstant]
    decide +kernel
  refine ⟨plain, invalid, lateNight_writtenAs, ⟨later, earlier⟩, offset, between, regular.1,
    regular.2, ?_, ?_, naiveText ▸ naive, ?_, reversed, (orders _).2 _ reversed⟩
  · rw [← textsOfDay]
    exact List.forall_mem_map.2 (dates leapDay plain)
  · rw [← noDay]
    exact refused 29 2 2023 (by omega) (by omega) (by omega) invalid
  · rw [hcarried, ← offsetText]
    exact hshifted

end BracketFilter
