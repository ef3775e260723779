import BracketFilter.Proofs.TimesReadBack
import BracketFilter.Proofs.ValueOrder

/-!
# Days are counted

* `Date.dayNumber` — the days of the calendar, numbered one after the other.
* `Moment.instant` — the nanoseconds up to a moment.

The number of a date is computed from the lengths of years and months, apart from the rules that
step to a neighbouring day.

Principal results: `Date.compare_eq` — dates are ordered by their numbers; `Date.dayNumber_next` and
`Date.dayNumber_previous` — neighbouring days have neighbouring numbers, over the ends of months and
years and the 29th of February; `Moment.exists_shift?` — to shift a moment by less than a day is to
add to its instant.
-/

set_option autoImplicit false

namespace BracketFilter

/-! ## Numbers of days -/

namespace Date

/-- The number of days in a year. -/
def daysInYear (year : Int) : Int := if isLeapYear year then 366 else 365

/-- The number of days from the start of the year 1 to the start of a year. -/
def daysBeforeYear (year : Int) : Int :=
  365 * (year - 1) + (year - 1) / 4 - (year - 1) / 100 + (year - 1) / 400

/-- The number of days in a year before a month. -/
def daysBeforeMonth (year : Int) : Nat → Nat
  | 0 => 0
  | 1 => 0
  | month + 2 => daysBeforeMonth year (month + 1) + daysInMonth year (month + 1)

/-- The number of a day; the first of the year 1 has the number 1. -/
def dayNumber (d : Date) : Int := daysBeforeYear d.year + daysBeforeMonth d.year d.month + d.day

theorem isLeapYear_iff (year : Int) :
    isLeapYear year = true ↔ year % 4 = 0 ∧ (year % 100 ≠ 0 ∨ year % 400 = 0) := by
  simp [isLeapYear]

theorem daysBeforeYear_succ (year : Int) :
    daysBeforeYear (year + 1) = daysBeforeYear year + daysInYear year := by
  unfold daysBeforeYear daysInYear
  simp only [isLeapYear_iff]
  split
  · omega
  · omega

theorem daysBeforeYear_lt {year later : Int} (h : year < later) :
    daysBeforeYear year + daysInYear year ≤ daysBeforeYear later := by
  rw [← daysBeforeYear_succ]
  unfold daysBeforeYear
  rcases Int.lt_or_eq_of_le (Int.add_one_le_of_lt h) with hlt | rfl
  · omega
  · omega

theorem daysBeforeMonth_succ (year : Int) {month : Nat} (pos : 1 ≤ month) :
    daysBeforeMonth year (month + 1) = daysBeforeMonth year month + daysInMonth year month := by
  obtain ⟨month, rfl⟩ := Nat.exists_eq_add_of_le' pos
  rfl

theorem daysBeforeMonth_lt (year : Int) {month later : Nat} (pos : 1 ≤ month) (h : month < later) :
    daysBeforeMonth year month + daysInMonth year month ≤ daysBeforeMonth year later := by
  induction later with
  | zero => omega
  | succ later ih =>
    have hlater := daysBeforeMonth_succ year (show 1 ≤ later by omega)
    rcases Nat.lt_or_eq_of_le (Nat.le_of_lt_succ h) with hlt | rfl
    · have := ih hlt
      omega
    · omega

/-- The months of a year make up its days. -/
theorem daysBeforeMonth_thirteen (year : Int) : daysBeforeMonth year 13 = daysInYear year := by
  cases h : isLeapYear year <;> simp [daysBeforeMonth, daysInMonth, daysInYear, h]

theorem one_le_day (d : Date) : 1 ≤ d.day := d.valid.2.2.2.2.1

theorem one_le_month (d : Date) : 1 ≤ d.month := d.valid.2.2.1

theorem month_le (d : Date) : d.month ≤ 12 := d.valid.2.2.2.1

theorem day_le (d : Date) : d.day ≤ daysInMonth d.year d.month := d.valid.2.2.2.2.2

theorem dayOfYear_le (d : Date) :
    (daysBeforeMonth d.year d.month + d.day : Int) ≤ daysInYear d.year := by
  have hlast : _ ≤ daysBeforeMonth d.year 13 :=
    daysBeforeMonth_lt d.year d.one_le_month (Nat.lt_succ_of_le d.month_le)
  have hday := d.day_le
  rw [← daysBeforeMonth_thirteen]
  omega

theorem dayNumber_lt {a b : Date} (h : a.compare b = .lt) : a.dayNumber < b.dayNumber := by
  have hfirst := b.one_le_day
  unfold dayNumber
  simp only [compare, Ordering.then_eq_lt, compare_lt_iff_lt, compare_eq_iff_eq] at h
  rcases h with hyear | ⟨hyear, hmonth | ⟨hmonth, hday⟩⟩
  · have hlast := a.dayOfYear_le
    have hlater := daysBeforeYear_lt hyear
    omega
  · have hlast := a.day_le
    have hlater := daysBeforeMonth_lt a.year a.one_le_month hmonth
    rw [hyear] at hlast hlater ⊢
    omega
  · rw [hyear, hmonth]
    omega

theorem eq_of_compare_eq {a b : Date} (h : a.compare b = .eq) : a = b := by
  obtain ⟨year, month, day, valid⟩ := a
  simp only [compare, Ordering.then_eq_eq, compare_eq_iff_eq] at h
  obtain ⟨rfl, rfl, rfl⟩ := h
  rfl

/-- **Dates are ordered by their numbers.** -/
theorem compare_eq (a b : Date) : a.compare b = compareOn dayNumber a b := by
  unfold compareOn
  cases h : a.compare b with
  | lt => exact (compare_lt_iff_lt.2 (dayNumber_lt h)).symm
  | eq =>
    rw [eq_of_compare_eq h]
    exact (compare_eq_iff_eq.2 rfl).symm
  | gt => exact (compare_gt_iff_gt.2 (dayNumber_lt (Std.OrientedCmp.gt_iff_lt.1 h))).symm

/-! ## Neighbouring days -/

theorem ofParts?_eq_some_iff {year : Int} {month day : Nat} {d : Date} :
    ofParts? year month day = some d ↔ d.year = year ∧ d.month = month ∧ d.day = day := by
  constructor
  · intro h
    unfold ofParts? at h
    split at h <;> cases h
    exact ⟨rfl, rfl, rfl⟩
  · rintro ⟨rfl, rfl, rfl⟩
    exact d.ofParts?_self

@[simp] theorem daysInMonth_twelve (year : Int) : daysInMonth year 12 = 31 := by simp [daysInMonth]

theorem one_le_daysInMonth (year : Int) (month : Nat) : 1 ≤ daysInMonth year month := by
  unfold daysInMonth
  split
  · split <;> omega
  · split <;> omega

/-- Where the day after a day is: in its month, at the start of the next month, or at the start of
the next year. -/
theorem next?_cases {d e : Date} (h : d.next? = some e) :
    (e.year = d.year ∧ e.month = d.month ∧ e.day = d.day + 1) ∨
    (e.year = d.year ∧ e.month = d.month + 1 ∧ e.day = 1 ∧ d.day = daysInMonth d.year d.month) ∨
    (e.year = d.year + 1 ∧ e.month = 1 ∧ e.day = 1 ∧ d.month = 12 ∧ d.day = 31) := by
  have hday := d.day_le
  have hmonth := d.month_le
  unfold next? at h
  split at h
  · exact .inl (ofParts?_eq_some_iff.1 h)
  · split at h
    · obtain ⟨hyear, hnext, hfirst⟩ := ofParts?_eq_some_iff.1 h
      exact .inr (.inl ⟨hyear, hnext, hfirst, by omega⟩)
    · obtain ⟨hyear, hnext, hfirst⟩ := ofParts?_eq_some_iff.1 h
      have hlast : d.month = 12 := by omega
      have hdays : daysInMonth d.year d.month = 31 := by rw [hlast, daysInMonth_twelve]
      exact .inr (.inr ⟨hyear, hnext, hfirst, hlast, by omega⟩)

theorem previous?_cases {d e : Date} (h : d.previous? = some e) :
    (e.year = d.year ∧ e.month = d.month ∧ e.day + 1 = d.day) ∨
    (e.year = d.year ∧ e.month + 1 = d.month ∧ e.day = daysInMonth e.year e.month ∧ d.day = 1) ∨
    (e.year + 1 = d.year ∧ e.month = 12 ∧ e.day = 31 ∧ d.month = 1 ∧ d.day = 1) := by
  have hday := d.one_le_day
  have hmonth := d.one_le_month
  unfold previous? at h
  split at h
  · obtain ⟨hyear, hsame, hbefore⟩ := ofParts?_eq_some_iff.1 h
    exact .inl ⟨hyear, hsame, by omega⟩
  · split at h
    · obtain ⟨hyear, hbefore, hlast⟩ := ofParts?_eq_some_iff.1 h
      exact .inr (.inl ⟨hyear, by omega, by rw [hlast, hyear, hbefore], by omega⟩)
    · obtain ⟨hyear, hbefore, hlast⟩ := ofParts?_eq_some_iff.1 h
      exact .inr (.inr ⟨by omega, hbefore, hlast, by omega, by omega⟩)

/-- **The day after has the next number**, over the ends of months and years. -/
theorem dayNumber_next {d e : Date} (h : d.next? = some e) :
    e.dayNumber = d.dayNumber + 1 := by
  unfold dayNumber
  rcases next?_cases h with ⟨hyear, hmonth, hday⟩ | ⟨hyear, hmonth, hday, hlast⟩ |
    ⟨hyear, hmonth, hday, hdecember, hlast⟩
  · rw [hyear, hmonth, hday]
    omega
  · have hbefore := daysBeforeMonth_succ d.year d.one_le_month
    rw [hyear, hmonth, hday, hbefore]
    omega
  · have hbefore := daysBeforeMonth_succ d.year (show 1 ≤ 12 by omega)
    have hyears := daysBeforeYear_succ d.year
    have hall := daysBeforeMonth_thirteen d.year
    rw [hyear, hmonth, hday, hdecember, hyears, ← hall, hbefore, daysInMonth_twelve]
    simp [daysBeforeMonth]
    omega

theorem next?_of_previous? {d e : Date} (h : d.previous? = some e) : e.next? = some d := by
  have hmonth := d.month_le
  have hday := d.day_le
  unfold next?
  rcases previous?_cases h with ⟨hyear, hsame, hbefore⟩ | ⟨hyear, hbefore, hlast, hfirst⟩ |
    ⟨hyear, hdecember, hlast, hjanuary, hfirst⟩
  · rw [← hyear, ← hsame] at hday
    rw [if_pos (by omega), ofParts?_eq_some_iff]
    omega
  · rw [if_neg (by omega), if_pos (by omega), ofParts?_eq_some_iff]
    omega
  · have hdays : daysInMonth e.year e.month = 31 := by rw [hdecember, daysInMonth_twelve]
    rw [if_neg (by omega), if_neg (by omega), ofParts?_eq_some_iff]
    omega

/-- **The day before has the number before**, over the ends of months and years. -/
theorem dayNumber_previous {d e : Date} (h : d.previous? = some e) :
    e.dayNumber = d.dayNumber - 1 := by
  have hnext := dayNumber_next (next?_of_previous? h)
  omega

theorem exists_ofParts? {year : Int} {month day : Nat} (h : Valid year month day) :
    ∃ d, ofParts? year month day = some d := ⟨_, dif_pos h⟩

theorem exists_next? {d : Date} (h : d.year < lastYear) : ∃ e, d.next? = some e := by
  obtain ⟨hfirstYear, hlastYear, hmonth, hmonths, hday, -⟩ := d.valid
  unfold next?
  split
  · exact exists_ofParts? ⟨hfirstYear, hlastYear, hmonth, hmonths, by omega, by omega⟩
  · split
    · exact exists_ofParts? ⟨hfirstYear, hlastYear, by omega, by omega, by omega,
        one_le_daysInMonth _ _⟩
    · exact exists_ofParts? ⟨by omega, by omega, by omega, by omega, by omega,
        one_le_daysInMonth _ _⟩

theorem exists_previous? {d : Date} (h : firstYear < d.year) : ∃ e, d.previous? = some e := by
  obtain ⟨hfirstYear, hlastYear, hmonth, hmonths, hday, hdays⟩ := d.valid
  unfold previous?
  split
  · exact exists_ofParts? ⟨hfirstYear, hlastYear, hmonth, hmonths, by omega, by omega⟩
  · split
    · exact exists_ofParts? ⟨hfirstYear, hlastYear, by omega, by omega, one_le_daysInMonth _ _,
        Nat.le_refl _⟩
    · exact exists_ofParts? ⟨by omega, by omega, by omega, by omega, by omega,
        (daysInMonth_twelve _).ge⟩

end Date

theorem Time.ofParts?_eq_some_iff {hour minute second nanosecond : Nat} {t : Time} :
    ofParts? hour minute second nanosecond = some t ↔
      t.hour = hour ∧ t.minute = minute ∧ t.second = second ∧ t.nanosecond = nanosecond := by
  constructor
  · intro h
    unfold ofParts? at h
    split at h <;> cases h
    exact ⟨rfl, rfl, rfl, rfl⟩
  · rintro ⟨rfl, rfl, rfl, rfl⟩
    exact t.ofParts?_self

/-! ## Instants -/

namespace Moment

/-- The minutes since the start of the day. -/
def minuteOfDay (m : Moment) : Int := m.time.hour * 60 + m.time.minute

theorem minuteOfDay_bounds (m : Moment) : 0 ≤ m.minuteOfDay ∧ m.minuteOfDay < minutesPerDay := by
  obtain ⟨hhour, hminute, -⟩ := m.time.valid
  unfold minuteOfDay minutesPerDay
  omega

/-- The nanoseconds up to a moment. The second 60 is counted as the first of the next minute. -/
def instant (m : Moment) : Int :=
  ((m.date.dayNumber * minutesPerDay + m.minuteOfDay) * 60 + m.time.second) * 1000000000 +
    m.time.nanosecond

/-- The time of day is not in a leap second. -/
def Regular (m : Moment) : Prop := m.time.second ≤ 59

instance (m : Moment) : Decidable m.Regular := inferInstanceAs (Decidable (m.time.second ≤ 59))

theorem instant_lt {a b : Moment} (regular : a.Regular) (h : a.compare b = .lt) :
    a.instant < b.instant := by
  obtain ⟨hhour, hminute, -, hnano⟩ := a.time.valid
  have hsecond : a.time.second ≤ 59 := regular
  unfold instant minuteOfDay minutesPerDay
  simp only [compare, Ordering.then_eq_lt] at h
  rcases h with hdate | ⟨hdate, htime⟩
  · have hday := Date.dayNumber_lt hdate
    omega
  · rw [Date.eq_of_compare_eq hdate]
    simp only [Time.compare, Ordering.then_eq_lt, compare_lt_iff_lt, compare_eq_iff_eq] at htime
    omega

/-- Moments outside leap seconds are one moment, if their instants are one. -/
theorem eq_of_instant_eq {a b : Moment} (ha : a.Regular) (hb : b.Regular)
    (h : a.instant = b.instant) : a = b := by
  cases hcompare : a.compare b with
  | lt => exact absurd (instant_lt ha hcompare) (by omega)
  | gt => exact absurd (instant_lt hb (Std.OrientedCmp.gt_iff_lt.1 hcompare)) (by omega)
  | eq =>
    obtain ⟨date, ⟨hour, minute, second, nanosecond, valid⟩⟩ := a
    simp only [compare, Ordering.then_eq_eq, Time.compare, compare_eq_iff_eq] at hcompare
    obtain ⟨hdate, rfl, rfl, rfl, rfl⟩ := hcompare
    obtain rfl := Date.eq_of_compare_eq hdate
    rfl

/-! ## Shifts -/

/-- The date on which a minute lies, if minutes are counted from the start of a day. -/
def dateAt? (d : Date) (minute : Int) : Option Date :=
  if minute < 0 then d.previous? else if minutesPerDay ≤ minute then d.next? else some d

/-- A shift moves the minute of the day, over the start or the end of the day if need be. -/
theorem shift?_eq_some_iff {m shifted : Moment} {minutes : Int} :
    shift? m minutes = some shifted ↔
      dateAt? m.date (m.minuteOfDay + minutes) = some shifted.date ∧
      shifted.minuteOfDay = (m.minuteOfDay + minutes) % minutesPerDay ∧
      shifted.time.second = m.time.second ∧ shifted.time.nanosecond = m.time.nanosecond := by
  have hshift : shift? m minutes = (dateAt? m.date (m.minuteOfDay + minutes)).bind fun date =>
      (Time.ofParts? (((m.minuteOfDay + minutes) % minutesPerDay).toNat / 60)
        (((m.minuteOfDay + minutes) % minutesPerDay).toNat % 60) m.time.second
        m.time.nanosecond).bind fun time => some ⟨date, time⟩ := by
    have hminute : (m.time.hour * 60 + m.time.minute : Int) = m.minuteOfDay := rfl
    simp only [shift?, dateAt?, hminute, Option.bind_eq_bind, Option.pure_def]
    split
    · rfl
    · split <;> rfl
  simp only [hshift, Option.bind_eq_some_iff, Time.ofParts?_eq_some_iff, Option.some.injEq]
  constructor
  · rintro ⟨date, hdate, time, ⟨hhour, hminute, hsecond, hnano⟩, rfl⟩
    refine ⟨hdate, ?_, hsecond, hnano⟩
    simp only [minuteOfDay, minutesPerDay] at hhour hminute ⊢
    omega
  · rintro ⟨hdate, hminute, hsecond, hnano⟩
    obtain ⟨-, hminutes, -⟩ := shifted.time.valid
    refine ⟨_, hdate, shifted.time, ⟨?_, ?_, hsecond, hnano⟩, rfl⟩
    · rw [← hminute]
      unfold minuteOfDay
      omega
    · rw [← hminute]
      unfold minuteOfDay
      omega

/-- The minutes of a day are counted on through the day before it and the day after it. -/
theorem dayNumber_dateAt? {d e : Date} {minute : Int} (near : -minutesPerDay ≤ minute)
    (near' : minute < 2 * minutesPerDay) (h : dateAt? d minute = some e) :
    e.dayNumber * minutesPerDay + minute % minutesPerDay =
      d.dayNumber * minutesPerDay + minute := by
  unfold minutesPerDay at near near' ⊢
  unfold dateAt? minutesPerDay at h
  split at h
  · have hbefore := Date.dayNumber_previous h
    omega
  · split at h
    · have hafter := Date.dayNumber_next h
      omega
    · cases h
      omega

theorem exists_time (t : Time) {minute : Int} (nonneg : 0 ≤ minute) (h : minute < minutesPerDay) :
    ∃ time : Time, ∀ date, (⟨date, time⟩ : Moment).minuteOfDay = minute ∧
      time.second = t.second ∧ time.nanosecond = t.nanosecond := by
  obtain ⟨-, -, hsecond, hnano⟩ := t.valid
  unfold minutesPerDay at h
  refine ⟨⟨(minute / 60).toNat, (minute % 60).toNat, t.second, t.nanosecond, by omega, by omega,
    hsecond, hnano⟩, fun date => ⟨?_, rfl, rfl⟩⟩
  simp only [minuteOfDay]
  omega

/-- **To shift a moment by less than a day is to add to its instant**, and it can be done unless the
calendar begins or ends there. -/
theorem exists_shift? {m : Moment} (begun : Date.firstYear < m.date.year)
    (goesOn : m.date.year < Date.lastYear) {minutes : Int} (later : -minutesPerDay < minutes)
    (earlier : minutes < minutesPerDay) :
    ∃ shifted, shift? m minutes = some shifted ∧
      shifted.instant = m.instant + minutes * 60000000000 ∧
      shifted.time.second = m.time.second := by
  have hbounds := m.minuteOfDay_bounds
  obtain ⟨date, hdate⟩ : ∃ date, dateAt? m.date (m.minuteOfDay + minutes) = some date := by
    unfold dateAt?
    split
    · exact Date.exists_previous? begun
    · split
      · exact Date.exists_next? goesOn
      · exact ⟨_, rfl⟩
  have hcount := dayNumber_dateAt? (by omega) (by omega) hdate
  obtain ⟨minute, hminute⟩ := exists_time m.time (Int.emod_nonneg _ (by decide))
    (Int.emod_lt_of_pos _ (by decide))
  refine ⟨⟨date, minute⟩, shift?_eq_some_iff.2 ⟨hdate, hminute date⟩, ?_, (hminute date).2.1⟩
  obtain ⟨hsame, hsecond, hnano⟩ := hminute date
  simp only [instant, hsame, hsecond, hnano, hcount]
  omega

end Moment

end BracketFilter
