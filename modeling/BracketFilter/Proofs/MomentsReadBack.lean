import BracketFilter.Proofs.KeyGrammar
import BracketFilter.Proofs.OneCalendar

/-!
# Moments are read back in the years 0 to 9999

More moments are read than can be written so that they are read again. Years outside 0 to 9999 are
written with a sign, which the strict notation does not read, and behind an offset no other notation
reads anything.

* `Calendar.SignedDigits` — a sign with digits behind it.
* `Date.HasSignedYear` — the texts in which a year with a sign stands where a date may have it.

Principal results: `Moment.signed_year_or_carry` — how a text comes to mean a moment in such a year:
it has the year with its sign, or an offset carries it over the end of the year 9999 or the start of
the year 0; `moment_reads_back` — a moment is read back from its own text except in these years.
-/

set_option autoImplicit false

namespace BracketFilter

open BracketFilter.Text BracketFilter.Calendar

/-! ## Years with a sign -/

namespace Calendar

/-- A sign with digits behind it, and the number that they denote. -/
def SignedDigits (cs : List Char) (n : Int) : Prop :=
  ∃ digits, digits ≠ [] ∧ (∀ c ∈ digits, c.isDigit = true) ∧
    ((cs = '+' :: digits ∧ n = Nat.ofDigitChars 10 digits 0) ∨
      (cs = '-' :: digits ∧ n = -(Nat.ofDigitChars 10 digits 0 : Int)))

theorem ofDigitChars_lt {most : Nat} {run : List Char} (nonempty : run ≠ [])
    (digits : ∀ c ∈ run, c.isDigit = true) (short : run.length ≤ most) :
    Nat.ofDigitChars 10 run 0 < Nat.pow 10 most := by
  obtain ⟨zeros, hrun⟩ := numeralOf_ofDigitChars nonempty digits
  have hlength := congrArg List.length hrun
  rw [List.length_append] at hlength
  have hnumeral : (writeNat (Nat.ofDigitChars 10 run 0)).length ≤ most := by omega
  have hpos : 0 < most := (List.length_pos_of_ne_nil nonempty).trans_le short
  exact (Nat.length_toDigits_le_iff (by omega) hpos).1 hnumeral

/-- A number has so many digits unless there is a sign in front of it. -/
theorem signedField?_cases {most : Nat} {n : Int} {cs rest : List Char}
    (h : signedField? most cs = some (n, rest)) :
    (0 ≤ n ∧ n < Nat.pow 10 most) ∨
      ∃ signed, trimStart cs = signed ++ rest ∧ SignedDigits signed n := by
  have hrun {limit : Nat} {f : Nat → Int} {text : List Char}
      (hread : (digits? limit text).map (fun r => (f r.1, r.2)) = some (n, rest)) :
      ∃ run, run ≠ [] ∧ (∀ c ∈ run, c.isDigit = true) ∧ run.length ≤ limit ∧
        text = run ++ rest ∧ n = f (Nat.ofDigitChars 10 run 0) := by
    obtain ⟨⟨value, _⟩, hdigits, heq⟩ := Option.map_eq_some_iff.1 hread
    cases heq
    obtain ⟨run, hne, hall, hlength, htext, rfl⟩ := exists_run_of_digits? hdigits
    exact ⟨run, hne, hall, hlength, htext, rfl⟩
  simp only [signedField?] at h
  split at h
  · rename_i text htrim
    obtain ⟨run, hne, hdigits, -, rfl, rfl⟩ := hrun (f := fun value => -(value : Int)) h
    exact .inr ⟨'-' :: run, htrim, run, hne, hdigits, .inr ⟨rfl, rfl⟩⟩
  · rename_i text htrim
    obtain ⟨run, hne, hdigits, -, rfl, rfl⟩ := hrun (f := fun value => (value : Int)) h
    exact .inr ⟨'+' :: run, htrim, run, hne, hdigits, .inl ⟨rfl, rfl⟩⟩
  · obtain ⟨run, hne, hdigits, hlength, -, rfl⟩ := hrun (f := fun value => (value : Int)) h
    exact .inl ⟨Int.natCast_nonneg _, by exact_mod_cast ofDigitChars_lt hne hdigits hlength⟩

theorem suffix_of_field? {most n : Nat} {cs rest : List Char}
    (h : field? most cs = some (n, rest)) : rest <:+ cs := by
  obtain ⟨run, -, -, -, htext, -⟩ := exists_run_of_digits? h
  exact (htext ▸ List.suffix_append run rest).trans (List.dropWhile_suffix _)

theorem suffix_of_char? {c : Char} {cs rest : List Char} (h : char? c cs = some rest) :
    rest <:+ cs := by
  rw [exists_of_char? h]
  exact List.suffix_cons c rest

end Calendar

namespace Date

/-- In the text there is the year, with a sign, where a date may have it: at the start or behind a
slash, apart from blanks. -/
def HasSignedYear (cs : List Char) (year : Int) : Prop :=
  ∃ front blanks signed back, cs = front ++ (blanks ++ (signed ++ back)) ∧
    (front = [] ∨ front.getLast? = some '/') ∧ (∀ c ∈ blanks, isBlank c = true) ∧
    SignedDigits signed year

/-- A year that is read has four digits, unless there is a sign. -/
theorem hasSignedYear_of_signedField? {front cs rest : List Char} {year : Int}
    (h : signedField? 4 cs = some (year, rest)) (starts : front = [] ∨ front.getLast? = some '/')
    (signed : ¬ FourDigits year) : HasSignedYear (front ++ cs) year := by
  rcases signedField?_cases h with ⟨hnonneg, hlt⟩ | ⟨digits, htext, hdigits⟩
  · have hbound : year < 10000 := hlt
    exact absurd ⟨hnonneg, by omega⟩ signed
  · refine ⟨front, cs.takeWhile isBlank, digits, rest, ?_, starts,
      fun c hc => List.mem_takeWhile_imp hc, hdigits⟩
    rw [← htext, trimStart, List.takeWhile_append_dropWhile]

theorem hasSignedYear_of_scanIso? {cs rest : List Char} {d : Date}
    (h : scanIso? cs = some (d, rest)) (signed : ¬ FourDigits d.year) :
    HasSignedYear cs d.year := by
  simp only [scanIso?, Option.bind_eq_bind, Option.bind_eq_some_iff, Option.pure_def,
    Option.some.injEq, Prod.mk.injEq] at h
  obtain ⟨⟨year, cs₁⟩, hyear, cs₂, -, ⟨month, cs₃⟩, -, cs₄, -, ⟨day, cs₅⟩, -, date, hdate, rfl,
    -⟩ := h
  obtain ⟨rfl, -⟩ := ofParts?_eq_some_iff.1 hdate
  have hyear := hasSignedYear_of_signedField? hyear (.inl rfl) signed
  rwa [List.nil_append] at hyear

theorem hasSignedYear_of_readDayFirst? {cs : List Char} {d : Date} (h : readDayFirst? cs = some d)
    (signed : ¬ FourDigits d.year) : HasSignedYear cs d.year := by
  simp only [readDayFirst?, Option.bind_eq_bind, Option.bind_eq_some_iff] at h
  obtain ⟨⟨day, cs₁⟩, hday, cs₂, hfirst, ⟨month, cs₃⟩, hmonth, cs₄, hsecond, ⟨year, cs₅⟩, hyear,
    hdate⟩ := h
  have hslash : '/' :: cs₄ <:+ cs := by
    rw [← exists_of_char? hsecond]
    exact (suffix_of_field? hmonth).trans ((suffix_of_char? hfirst).trans (suffix_of_field? hday))
  obtain ⟨front, rfl⟩ := hslash
  split at hdate
  · obtain ⟨rfl, -⟩ := ofParts?_eq_some_iff.1 hdate
    rw [List.append_cons]
    exact hasSignedYear_of_signedField? hyear (.inr List.getLast?_concat) signed
  · cases hdate

end Date

namespace Moment

/-! ## Years that are left -/

theorem fourDigits_of_scanStrictDate? {cs rest : List Char} {d : Date}
    (h : scanStrictDate? cs = some (d, rest)) : Date.FourDigits d.year := by
  simp only [scanStrictDate?, Option.bind_eq_bind, Option.bind_eq_some_iff, Option.pure_def,
    Option.some.injEq, Prod.mk.injEq] at h
  obtain ⟨⟨year, cs₁⟩, hyear, cs₂, -, ⟨month, cs₃⟩, -, cs₄, -, ⟨day, cs₅⟩, -, date, hdate, rfl,
    -⟩ := h
  obtain ⟨run, hlength, hdigits, -, rfl⟩ := exists_run_of_exactly? hyear
  have hne : run ≠ [] := List.ne_nil_of_length_pos (by omega)
  have hbound : Nat.ofDigitChars 10 run 0 < 10000 := ofDigitChars_lt hne hdigits hlength.le
  rw [Date.FourDigits, (Date.ofParts?_eq_some_iff.1 hdate).1]
  omega

/-- From the years of four digits a neighbouring day leads to the first day behind them or to the
last before them. -/
theorem dateAt?_of_not_fourDigits {d e : Date} {minute : Int} (plain : Date.FourDigits d.year)
    (h : dateAt? d minute = some e) (signed : ¬ Date.FourDigits e.year) :
    e = ⟨10000, 1, 1, by decide⟩ ∨ e = ⟨-1, 12, 31, by decide⟩ := by
  unfold Date.FourDigits at plain signed
  unfold dateAt? at h
  split at h
  · refine .inr ?_
    rcases Date.previous?_cases h with ⟨hyear, -⟩ | ⟨hyear, -⟩ | ⟨hyear, hmonth, hday, -⟩
    · omega
    · omega
    · have hparts : Date.ofParts? (-1) 12 31 = some e :=
        Date.ofParts?_eq_some_iff.2 ⟨by omega, hmonth, hday⟩
      exact Option.some_injective _ (hparts.symm.trans (dif_pos (by decide)))
  · split at h
    · refine .inl ?_
      rcases Date.next?_cases h with ⟨hyear, -⟩ | ⟨hyear, -⟩ | ⟨hyear, hmonth, hday, -⟩
      · omega
      · omega
      · have hparts : Date.ofParts? 10000 1 1 = some e :=
          Date.ofParts?_eq_some_iff.2 ⟨by omega, hmonth, hday⟩
        exact Option.some_injective _ (hparts.symm.trans (dif_pos (by decide)))
    · cases h
      exact absurd plain signed

/-- **How a text comes to mean a moment outside the years 0 to 9999**: it has the year with a sign,
or it has an offset that carries it into the day behind these years or into the day before. -/
theorem signed_year_or_carry {cs : List Char} {m : Moment} (h : read? cs = some m)
    (signed : ¬ Date.FourDigits m.date.year) :
    Date.HasSignedYear cs m.date.year ∨
      (readRfc3339? cs = some m ∧
        (m.date = ⟨10000, 1, 1, by decide⟩ ∨ m.date = ⟨-1, 12, 31, by decide⟩)) := by
  simp only [read?] at h
  split at h
  case h_1 hrfc =>
    cases h
    obtain ⟨date, time, offset, cs₁, cs₂, cs₃, hdate, -, -, -, hshift⟩ :=
      readRfc3339?_eq_some_iff.1 hrfc
    obtain ⟨hat, -⟩ := shift?_eq_some_iff.1 hshift
    exact .inr ⟨hrfc, dateAt?_of_not_fourDigits (fourDigits_of_scanStrictDate? hdate) hat signed⟩
  case h_2 =>
    refine .inl ?_
    split at h
    case h_1 hnaive =>
      cases h
      obtain ⟨cs₁, cs₂, cs₃, hdate, -⟩ := readNaive?_eq_some_iff.1 hnaive
      exact Date.hasSignedYear_of_scanIso? hdate signed
    case h_2 =>
      obtain ⟨date, hdate, rfl⟩ := Option.map_eq_some_iff.1 h
      simp only [Date.read?] at hdate
      split at hdate
      case h_1 hiso =>
        cases hdate
        obtain ⟨rest, hscan, -⟩ := Date.exists_scanIso?_of_readIso? hiso
        exact Date.hasSignedYear_of_scanIso? hscan signed
      case h_2 => exact Date.hasSignedYear_of_readDayFirst? hdate signed

end Moment

/-! ## The coercion -/

namespace Coercer

theorem exists_moment_of_standard {raw : String} {v : Value}
    (h : standard raw .dateTimeUtc = .ok v) :
    ∃ m, v = .dateTime m ∧ Moment.read? (trim raw.toList) = some m := by
  have hmap : read? .dateTimeUtc raw = (Moment.read? (trim raw.toList)).map .dateTime := rfl
  simp only [standard, hmap] at h
  cases hread : Moment.read? (trim raw.toList) with
  | none =>
    rw [hread] at h
    cases h
  | some m =>
    rw [hread] at h
    cases h
    exact ⟨m, rfl, rfl⟩

theorem read?_write_dateTime (m : Moment) :
    read? .dateTimeUtc (Value.dateTime m).write = (Moment.read? m.write).map .dateTime :=
  read?_dateTime (trim_of_solid m.solid_write)

end Coercer

/-- **A moment is read back from its own text exactly if its year has four digits.** Let a text be
accepted as a moment, in any of the notations. If the year of the moment is from 0 to 9999, the text
of the moment is accepted and means the same moment. Otherwise it is refused; this happens only if
the text that was accepted has the year with a sign, or has an offset that carries it over the end
of the year 9999 or over the start of the year 0. -/
theorem moment_reads_back {raw : String} {v : Value}
    (h : Coercer.standard raw .dateTimeUtc = .ok v) :
    ∃ m, v = .dateTime m ∧
      (Coercer.standard v.write .dateTimeUtc = .ok v ↔ Date.FourDigits m.date.year) ∧
      (¬ Date.FourDigits m.date.year →
        Coercer.standard v.write .dateTimeUtc = .error ⟨v.write, .dateTimeUtc⟩ ∧
        (Date.HasSignedYear (trim raw.toList) m.date.year ∨
          (Moment.readRfc3339? (trim raw.toList) = some m ∧
            (m.date = ⟨10000, 1, 1, by decide⟩ ∨ m.date = ⟨-1, 12, 31, by decide⟩)))) := by
  obtain ⟨m, rfl, hread⟩ := Coercer.exists_moment_of_standard h
  have hrefused : ¬ Date.FourDigits m.date.year →
      Coercer.standard (Value.dateTime m).write .dateTimeUtc =
        .error ⟨(Value.dateTime m).write, .dateTimeUtc⟩ := by
    intro signed
    refine Coercer.standard_of_not_read? ?_
    rw [Coercer.read?_write_dateTime, Moment.read?_write_eq_none signed]
    rfl
  refine ⟨m, rfl, ⟨fun haccepted => ?_, fun plain => ?_⟩,
    fun signed => ⟨hrefused signed, Moment.signed_year_or_carry hread signed⟩⟩
  · by_contra signed
    rw [hrefused signed] at haccepted
    cases haccepted
  · refine Coercer.standard_of_read? ?_
    rw [Coercer.read?_write_dateTime, m.read?_write_eq_some_iff.2 plain]
    rfl

/-- Half an hour into the first day behind the years of four digits. -/
def afterLastYear : Moment := ⟨⟨10000, 1, 1, by decide⟩, ⟨0, 30, 0, 0, by decide⟩⟩

/-- Half an hour before the end of these years. -/
def inLastYear : Moment := ⟨⟨9999, 12, 31, by decide⟩, ⟨23, 30, 0, 0, by decide⟩⟩

theorem moment_reads_back_last_year :
    Coercer.standard "9999-12-31T23:30:00Z" .dateTimeUtc = .ok (.dateTime inLastYear) ∧
    Date.FourDigits inLastYear.date.year ∧
    Coercer.standard (Value.dateTime inLastYear).write .dateTimeUtc = .ok (.dateTime inLastYear) ∧
    Coercer.standard "9999-12-31T23:30:00-01:00" .dateTimeUtc = .ok (.dateTime afterLastYear) ∧
    ¬ Date.FourDigits afterLastYear.date.year ∧
    Coercer.standard (Value.dateTime afterLastYear).write .dateTimeUtc =
      .error ⟨(Value.dateTime afterLastYear).write, .dateTimeUtc⟩ := by
  have inside : Coercer.standard "9999-12-31T23:30:00Z" .dateTimeUtc =
      .ok (.dateTime inLastYear) := by decide +kernel
  have carried : Coercer.standard "9999-12-31T23:30:00-01:00" .dateTimeUtc =
      .ok (.dateTime afterLastYear) := by decide +kernel
  have plain : Date.FourDigits inLastYear.date.year := by decide
  have signed : ¬ Date.FourDigits afterLastYear.date.year := by decide
  obtain ⟨_, ⟨⟩, accepted, -⟩ := moment_reads_back inside
  obtain ⟨_, ⟨⟩, -, refused⟩ := moment_reads_back carried
  exact ⟨inside, plain, accepted.2 plain, carried, signed, (refused signed).1⟩

/-- The text of a moment in a longer year is refused, although the date alone and the same text
without the offset are accepted and mean the moment. -/
theorem rejects_text_of_longer_year :
    ∃ v, Coercer.standard "+10000-01-01" .dateTimeUtc = .ok v ∧
      Coercer.standard "+10000-01-01T00:00:00" .dateTimeUtc = .ok v ∧
      v.write = "+10000-01-01T00:00:00+00:00" ∧
      Coercer.standard v.write .dateTimeUtc =
        .error ⟨"+10000-01-01T00:00:00+00:00", .dateTimeUtc⟩ :=
  ⟨.dateTime (.midnight ⟨10000, 1, 1, by decide⟩), by decide +kernel⟩

end BracketFilter
