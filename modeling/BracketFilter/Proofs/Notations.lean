import BracketFilter.Proofs.TimesReadBack

/-!
# Notations of dates and moments

Several notations of dates and moments are tried one after the other. No text is written in two of
them.

* `Date.notations`, `Moment.notations` — the notations, in the order in which they are tried.
* `Apart` — two readers that never read the same text.

Principal results: `Date.scanIso?_of_scanStrictDate?` and `Time.scanFull?_of_scanStrictTime?` — what
the strict readers find, the lenient ones find too; `Date.pairwise_apart_notations` and
`Moment.pairwise_apart_notations` — the notations are apart; `findSome?_of_perm` — so that they may
be tried in any order.
-/

set_option autoImplicit false

namespace BracketFilter

open BracketFilter.Text

namespace Calendar

/-! ## Fields that are read -/

theorem exists_run_of_digits? {most n : Nat} {cs rest : List Char}
    (h : digits? most cs = some (n, rest)) :
    ∃ run, run ≠ [] ∧ (∀ c ∈ run, c.isDigit = true) ∧ run.length ≤ most ∧ cs = run ++ rest ∧
      n = Nat.ofDigitChars 10 run 0 := by
  simp only [digits?] at h
  split at h
  · cases h
  · rename_i hrun
    simp only [Option.some.injEq, Prod.mk.injEq] at h
    obtain ⟨rfl, rfl⟩ := h
    have hprefix : (cs.take most).takeWhile Char.isDigit <+: cs :=
      (List.takeWhile_prefix _).trans (List.take_prefix _ _)
    refine ⟨_, hrun, fun c hc => List.mem_takeWhile_imp hc, ?_, ?_, rfl⟩
    · have hlength := (List.takeWhile_prefix (l := cs.take most) Char.isDigit).length_le
      simp only [List.length_take] at hlength
      omega
    · exact (List.prefix_iff_eq_append.1 hprefix).symm

theorem exists_run_of_exactly? {count n : Nat} {cs rest : List Char}
    (h : exactly? count cs = some (n, rest)) :
    ∃ run, run.length = count ∧ (∀ c ∈ run, c.isDigit = true) ∧ cs = run ++ rest ∧
      n = Nat.ofDigitChars 10 run 0 := by
  simp only [exactly?] at h
  split at h
  · rename_i hrun
    simp only [Option.some.injEq, Prod.mk.injEq] at h
    obtain ⟨rfl, rfl⟩ := h
    exact ⟨_, hrun.1, List.all_eq_true.1 hrun.2, (List.take_append_drop _ _).symm, rfl⟩
  · cases h

theorem exists_of_char? {c : Char} {cs rest : List Char} (h : char? c cs = some rest) :
    cs = c :: rest := by
  cases cs with
  | nil => cases h
  | cons d cs =>
    simp only [char?] at h
    split at h
    · rename_i heq
      cases h
      rw [heq]
    · cases h

/-- No blanks are skipped in front of a digit, and no sign is found. -/
theorem trimStart_of_digit {run rest : List Char} (nonempty : run ≠ [])
    (digits : ∀ c ∈ run, c.isDigit = true) : trimStart (run ++ rest) = run ++ rest := by
  cases run with
  | nil => exact absurd rfl nonempty
  | cons c run =>
    have hblank := isBlank_of_isDigit (digits c List.mem_cons_self)
    simp [trimStart, hblank]

theorem signedField?_of_digit {most : Nat} {cs run rest : List Char} (nonempty : run ≠ [])
    (digits : ∀ c ∈ run, c.isDigit = true) (h : trimStart cs = run ++ rest) :
    signedField? most cs = (digits? most (run ++ rest)).map fun r => ((r.1 : Int), r.2) := by
  obtain ⟨c, others, rfl⟩ := List.exists_cons_of_ne_nil nonempty
  have hdigit := digits c List.mem_cons_self
  unfold signedField?
  rw [h]
  split
  · rename_i heq
    cases heq
    cases hdigit
  · rename_i heq
    cases heq
    cases hdigit
  · rfl

/-! ## Strict fields are lenient fields -/

section Strict

variable {count : Nat} {cs : List Char} {found : Nat × List Char} (pos : 0 < count)
  (h : exactly? count cs = some found)
include pos h

theorem digits?_of_exactly? : digits? count cs = some found := by
  obtain ⟨run, hlength, hdigits, rfl, hvalue⟩ := exists_run_of_exactly? h
  have hrun : ((run ++ found.2).take count).takeWhile Char.isDigit = run := by
    rw [List.take_left' hlength]
    exact List.takeWhile_eq_self_iff.2 hdigits
  have hne : run ≠ [] := List.ne_nil_of_length_pos (by omega)
  simp only [digits?, hrun, if_neg hne, List.drop_left, ← hvalue]

theorem field?_of_exactly? : field? count cs = some found := by
  obtain ⟨run, hlength, hdigits, rfl, -⟩ := exists_run_of_exactly? h
  have hne : run ≠ [] := List.ne_nil_of_length_pos (by omega)
  rw [field?, trimStart_of_digit hne hdigits]
  exact digits?_of_exactly? pos h

theorem signedField?_of_exactly? :
    signedField? count cs = some ((found.1 : Int), found.2) := by
  obtain ⟨run, hlength, hdigits, rfl, -⟩ := exists_run_of_exactly? h
  have hne : run ≠ [] := List.ne_nil_of_length_pos (by omega)
  rw [signedField?_of_digit hne hdigits (trimStart_of_digit hne hdigits),
    digits?_of_exactly? pos h]
  rfl

end Strict

theorem spacedChar?_of_char? {c : Char} (solid : isBlank c = false) {cs rest : List Char}
    (h : char? c cs = some rest) : spacedChar? c cs = some rest := by
  rw [exists_of_char? h]
  exact spacedChar?_cons solid rest

end Calendar

open BracketFilter.Calendar

/-- **What the strict reader of dates finds, the lenient one finds too.** -/
theorem Date.scanIso?_of_scanStrictDate? {cs : List Char} {found : Date × List Char}
    (h : Moment.scanStrictDate? cs = some found) : scanIso? cs = some found := by
  have hhyphen : isBlank '-' = false := by decide
  simp only [Moment.scanStrictDate?, Option.bind_eq_bind, Option.bind_eq_some_iff,
    Option.pure_def, Option.some.injEq] at h
  obtain ⟨⟨year, cs₁⟩, hyear, cs₂, hfirst, ⟨month, cs₃⟩, hmonth, cs₄, hsecond, ⟨day, cs₅⟩, hday,
    date, hdate, rfl⟩ := h
  simp only [scanIso?, signedField?_of_exactly? (by omega : 0 < 4) hyear,
    spacedChar?_of_char? hhyphen hfirst, field?_of_exactly? (by omega : 0 < 2) hmonth,
    spacedChar?_of_char? hhyphen hsecond, field?_of_exactly? (by omega : 0 < 2) hday, hdate,
    Option.bind_eq_bind, Option.bind_some, Option.pure_def]

/-- **What the strict reader of times finds, the lenient one finds too.** -/
theorem Time.scanFull?_of_scanStrictTime? {cs : List Char} {found : Time × List Char}
    (h : Moment.scanStrictTime? cs = some found) : scanFull? cs = some found := by
  have hcolon : isBlank ':' = false := by decide
  simp only [Moment.scanStrictTime?, Option.bind_eq_bind, Option.bind_eq_some_iff,
    Option.pure_def, Option.some.injEq] at h
  obtain ⟨⟨hour, cs₁⟩, hhour, cs₂, hfirst, ⟨minute, cs₃⟩, hminute, cs₄, hsecond, ⟨second, cs₅⟩,
    hseconds, ⟨nanosecond, cs₆⟩, hfraction, time, htime, rfl⟩ := h
  simp only [scanFull?, scanHourMinute?, scanSecond?, field?_of_exactly? (by omega : 0 < 2) hhour,
    spacedChar?_of_char? hcolon hfirst, field?_of_exactly? (by omega : 0 < 2) hminute,
    spacedChar?_of_char? hcolon hsecond, field?_of_exactly? (by omega : 0 < 2) hseconds,
    hfraction, htime, Option.bind_eq_bind, Option.bind_some, Option.pure_def]

/-! ## Readers that are apart -/

/-- The two readers read no common text. -/
def Apart {α : Type} (read read' : List Char → Option α) : Prop :=
  ∀ cs, read cs = none ∨ read' cs = none

theorem Apart.symm {α : Type} {read read' : List Char → Option α} (h : Apart read read') :
    Apart read' read := fun cs => (h cs).symm

/-- Readers that are apart may be tried in any order. -/
theorem findSome?_of_perm {α : Type} {readers others : List (List Char → Option α)}
    (perm : others.Perm readers) (apart : readers.Pairwise Apart) (cs : List Char) :
    others.findSome? (· cs) = readers.findSome? (· cs) := by
  induction perm with
  | nil => rfl
  | cons read _ ih =>
    simp only [List.findSome?_cons, ih (List.pairwise_cons.1 apart).2]
  | swap read read' readers =>
    have hapart : Apart read read' := (List.pairwise_cons.1 apart).1 _ List.mem_cons_self
    simp only [List.findSome?_cons]
    rcases hapart cs with h | h <;> simp only [h]
  | trans _ perm ih ih' =>
    rw [ih ((perm.pairwise_iff Apart.symm).2 apart), ih' apart]

namespace Date

/-- The notations of dates, in the order in which they are tried. -/
def notations : List (List Char → Option Date) := [readIso?, readDayFirst?]

theorem read?_eq_findSome? (cs : List Char) : read? cs = notations.findSome? (· cs) := by
  simp only [read?, notations, List.findSome?_cons, List.findSome?_nil]
  cases readIso? cs <;> cases readDayFirst? cs <;> rfl

theorem scanIso?_of_slash {cs run rest : List Char} (nonempty : run ≠ [])
    (digits : ∀ c ∈ run, c.isDigit = true) (short : run.length ≤ 4)
    (h : trimStart cs = run ++ '/' :: rest) : scanIso? cs = none := by
  have hslash : spacedChar? '-' ('/' :: rest) = none := by
    simp [spacedChar?, trimStart, char?, isBlank]
  have hyear : signedField? 4 cs = some ((Nat.ofDigitChars 10 run 0 : Int), '/' :: rest) := by
    rw [signedField?_of_digit nonempty digits h,
      digits?_of_run nonempty digits short (endsDigits_cons.2 rfl)]
    rfl
  simp only [scanIso?, hyear, hslash, Option.bind_eq_bind, Option.bind_some, Option.bind_none]

/-- A text with the day in front does not begin with a date that has the year in front. -/
theorem scanIso?_of_readDayFirst? {cs : List Char} {d : Date} (h : readDayFirst? cs = some d) :
    scanIso? cs = none := by
  simp only [readDayFirst?, Option.bind_eq_bind, Option.bind_eq_some_iff] at h
  obtain ⟨⟨day, cs₁⟩, hday, cs₂, hslash, -⟩ := h
  obtain ⟨run, hne, hdigits, hlength, htext, -⟩ := exists_run_of_digits? hday
  obtain rfl := exists_of_char? hslash
  exact scanIso?_of_slash hne hdigits (by omega) htext

theorem exists_scanIso?_of_readIso? {cs : List Char} {d : Date} (h : readIso? cs = some d) :
    ∃ rest, scanIso? cs = some (d, rest) ∧ atEnd rest = true := by
  simp only [readIso?, Option.bind_eq_bind, Option.bind_eq_some_iff] at h
  obtain ⟨⟨date, rest⟩, hscan, hend⟩ := h
  split at hend
  · cases hend
    exact ⟨rest, hscan, ‹_›⟩
  · cases hend

/-- **No text is a date in both notations.** -/
theorem apart_readIso?_readDayFirst? : Apart readIso? readDayFirst? := by
  intro cs
  cases h : readDayFirst? cs with
  | none => exact .inr rfl
  | some d =>
    refine .inl ?_
    simp only [readIso?, scanIso?_of_readDayFirst? h, Option.bind_eq_bind, Option.bind_none]

theorem pairwise_apart_notations : notations.Pairwise Apart := by
  simp [notations, apart_readIso?_readDayFirst?]

end Date

namespace Moment

/-- The notations of moments, in the order in which they are tried. -/
def notations : List (List Char → Option Moment) :=
  [readRfc3339?, readNaive?, fun cs => (Date.readIso? cs).map midnight,
    fun cs => (Date.readDayFirst? cs).map midnight]

theorem read?_eq_findSome? (cs : List Char) : read? cs = notations.findSome? (· cs) := by
  simp only [read?, Date.read?, notations, List.findSome?_cons, List.findSome?_nil]
  cases readRfc3339? cs with
  | some m => rfl
  | none =>
    cases readNaive? cs with
    | some m => rfl
    | none => cases Date.readIso? cs <;> cases Date.readDayFirst? cs <;> rfl

/-- The parts of a text in the strict notation, and what it denotes. -/
theorem readRfc3339?_eq_some_iff {cs : List Char} {m : Moment} :
    readRfc3339? cs = some m ↔ ∃ date time offset cs₁ cs₂ cs₃,
      scanStrictDate? cs = some (date, cs₁) ∧ scanSeparator? cs₁ = some cs₂ ∧
      scanStrictTime? cs₂ = some (time, cs₃) ∧ scanOffset? cs₃ = some (offset, []) ∧
      shift? ⟨date, time⟩ (-offset) = some m := by
  simp only [readRfc3339?, Option.bind_eq_bind, Option.bind_eq_some_iff]
  constructor
  · rintro ⟨⟨date, cs₁⟩, hdate, cs₂, hseparator, ⟨time, cs₃⟩, htime, ⟨offset, cs₄⟩, hoffset, h⟩
    split at h
    · rename_i hend
      obtain rfl := List.isEmpty_iff.1 hend
      exact ⟨date, time, offset, cs₁, cs₂, cs₃, hdate, hseparator, htime, hoffset, h⟩
    · cases h
  · rintro ⟨date, time, offset, cs₁, cs₂, cs₃, hdate, hseparator, htime, hoffset, h⟩
    exact ⟨_, hdate, _, hseparator, _, htime, _, hoffset, h⟩

theorem readNaive?_eq_some_iff {cs : List Char} {m : Moment} :
    readNaive? cs = some m ↔ ∃ cs₁ cs₂ cs₃, Date.scanIso? cs = some (m.date, cs₁) ∧
      spacedChar? 'T' cs₁ = some cs₂ ∧ Time.scanFull? cs₂ = some (m.time, cs₃) ∧
      atEnd cs₃ = true := by
  simp only [readNaive?, Option.bind_eq_bind, Option.bind_eq_some_iff]
  constructor
  · rintro ⟨⟨date, cs₁⟩, hdate, cs₂, hletter, ⟨time, cs₃⟩, htime, h⟩
    split at h
    · cases h
      exact ⟨cs₁, cs₂, cs₃, hdate, hletter, htime, ‹_›⟩
    · cases h
  · rintro ⟨cs₁, cs₂, cs₃, hdate, hletter, htime, hend⟩
    refine ⟨_, hdate, _, hletter, _, htime, ?_⟩
    rw [if_pos hend]
    rfl

theorem not_atEnd_of_spacedChar? {c : Char} {cs rest : List Char}
    (h : spacedChar? c cs = some rest) : atEnd cs = false := by
  rw [spacedChar?] at h
  rw [atEnd, exists_of_char? h]
  rfl

/-- Behind an offset-less time an offset is more text. -/
theorem not_atEnd_of_scanOffset? {cs : List Char} {found : Int × List Char}
    (h : scanOffset? cs = some found) : atEnd cs = false := by
  cases cs with
  | nil => cases h
  | cons c rest =>
    have hblank : isBlank c = false := by
      have hcode {d : Char} (hd : c = d) (hsolid : isBlank d = false) : isBlank c = false :=
        hd ▸ hsolid
      simp only [scanOffset?] at h
      split at h
      · rename_i hzulu
        exact hzulu.elim (hcode · rfl) (hcode · rfl)
      · split at h
        · rename_i hplus
          exact hcode hplus rfl
        · split at h
          · rename_i hminus
            exact hminus.elim (hcode · rfl) fun hn => by simp [isBlank, hn]
          · cases h
    simp [atEnd, trimStart, hblank]

theorem trimStart_of_scanStrictTime? {cs : List Char} {found : Time × List Char}
    (h : scanStrictTime? cs = some found) :
    trimStart cs = cs ∧ ∃ c rest, cs = c :: rest ∧ c.isDigit = true := by
  simp only [scanStrictTime?, Option.bind_eq_bind, Option.bind_eq_some_iff] at h
  obtain ⟨⟨hour, cs₁⟩, hhour, -⟩ := h
  obtain ⟨run, hlength, hdigits, rfl, -⟩ := exists_run_of_exactly? hhour
  obtain ⟨c, others, rfl⟩ := List.exists_cons_of_length_pos (by omega : 0 < run.length)
  exact ⟨trimStart_of_digit (by simp) hdigits, c, others ++ cs₁, rfl, hdigits c List.mem_cons_self⟩

/-- Between a date and a time in the strict notation there is a letter, or a blank where other
notations ask for a letter. -/
theorem of_scanSeparator? {cs clock : List Char} {found : Time × List Char}
    (separator : scanSeparator? cs = some clock) (time : scanStrictTime? clock = some found) :
    atEnd cs = false ∧ ∀ rest, spacedChar? 'T' cs = some rest → rest = clock := by
  obtain ⟨htrim, d, digits, rfl, hdigit⟩ := trimStart_of_scanStrictTime? time
  cases cs with
  | nil => cases separator
  | cons c cs =>
    simp only [scanSeparator?] at separator
    split at separator
    · rename_i hletter
      cases separator
      rcases hletter with rfl | rfl | rfl
      · refine ⟨rfl, fun rest h => ?_⟩
        cases (spacedChar?_cons (by decide) _).symm.trans h
        rfl
      · exact ⟨rfl, fun rest h => by cases h⟩
      · have hskip : trimStart (' ' :: d :: digits) = d :: digits := htrim
        refine ⟨by rw [atEnd, hskip]; rfl, fun rest h => ?_⟩
        rw [spacedChar?, hskip] at h
        cases exists_of_char? h
        cases hdigit
    · cases separator

/-- What the other readers find at the start of a text in the strict notation: its date, and behind
it more text. -/
theorem exists_scanIso?_of_readRfc3339? {cs : List Char} {m : Moment}
    (h : readRfc3339? cs = some m) :
    ∃ date rest, Date.scanIso? cs = some (date, rest) ∧ atEnd rest = false ∧
      ∀ clock, spacedChar? 'T' rest = some clock → ∃ time offset,
        Time.scanFull? clock = some (time, offset) ∧ atEnd offset = false := by
  obtain ⟨date, time, offset, cs₁, cs₂, cs₃, hdate, hseparator, htime, hoffset, -⟩ :=
    readRfc3339?_eq_some_iff.1 h
  obtain ⟨hmore, hclock⟩ := of_scanSeparator? hseparator htime
  refine ⟨date, cs₁, Date.scanIso?_of_scanStrictDate? hdate, hmore, fun clock hletter => ?_⟩
  rw [hclock clock hletter]
  exact ⟨time, cs₃, Time.scanFull?_of_scanStrictTime? htime, not_atEnd_of_scanOffset? hoffset⟩

/-- Whatever begins with a date that has the year in front is in no notation with the day in
front. -/
theorem readDayFirst?_of_scanIso? {cs : List Char} {found : Date × List Char}
    (h : Date.scanIso? cs = some found) : Date.readDayFirst? cs = none := by
  cases hday : Date.readDayFirst? cs with
  | none => rfl
  | some d =>
    rw [Date.scanIso?_of_readDayFirst? hday] at h
    cases h

theorem not_date_of_scanIso? {cs rest : List Char} {date : Date}
    (h : Date.scanIso? cs = some (date, rest)) (more : atEnd rest = false) :
    Date.readIso? cs = none ∧ Date.readDayFirst? cs = none := by
  refine ⟨?_, readDayFirst?_of_scanIso? h⟩
  simp only [Date.readIso?, h, more, Option.bind_eq_bind, Option.bind_some, Bool.false_eq_true,
    if_false]

theorem only_readRfc3339? {cs : List Char} {m : Moment} (h : readRfc3339? cs = some m) :
    readNaive? cs = none ∧ Date.readIso? cs = none ∧ Date.readDayFirst? cs = none := by
  obtain ⟨date, rest, hdate, hmore, hclock⟩ := exists_scanIso?_of_readRfc3339? h
  refine ⟨?_, not_date_of_scanIso? hdate hmore⟩
  cases hnaive : readNaive? cs with
  | none => rfl
  | some m' =>
    obtain ⟨cs₁, cs₂, cs₃, hsame, hletter, htime, hend⟩ := readNaive?_eq_some_iff.1 hnaive
    cases hdate.symm.trans hsame
    obtain ⟨time, offset, hscan, hnot⟩ := hclock cs₂ hletter
    cases hscan.symm.trans htime
    cases hnot.symm.trans hend

theorem not_date_of_readNaive? {cs : List Char} {m : Moment} (h : readNaive? cs = some m) :
    Date.readIso? cs = none ∧ Date.readDayFirst? cs = none := by
  obtain ⟨cs₁, cs₂, cs₃, hdate, hletter, -⟩ := readNaive?_eq_some_iff.1 h
  exact not_date_of_scanIso? hdate (not_atEnd_of_spacedChar? hletter)

/-- **No text is a moment in two notations.** -/
theorem pairwise_apart_notations : notations.Pairwise Apart := by
  have hrfc (cs : List Char) : readRfc3339? cs = none ∨
      readNaive? cs = none ∧ Date.readIso? cs = none ∧ Date.readDayFirst? cs = none := by
    cases h : readRfc3339? cs with
    | none => exact .inl rfl
    | some m => exact .inr (only_readRfc3339? h)
  have hnaive (cs : List Char) : readNaive? cs = none ∨
      Date.readIso? cs = none ∧ Date.readDayFirst? cs = none := by
    cases h : readNaive? cs with
    | none => exact .inl rfl
    | some m => exact .inr (not_date_of_readNaive? h)
  simp only [notations, List.pairwise_cons, List.mem_cons, List.not_mem_nil, or_false,
    forall_eq_or_imp, forall_eq, List.Pairwise.nil, and_true, Apart, Option.map_eq_none_iff,
    false_imp_iff, implies_true]
  exact ⟨⟨fun cs => (hrfc cs).imp_right And.left, fun cs => (hrfc cs).imp_right (·.2.1),
    fun cs => (hrfc cs).imp_right (·.2.2)⟩, ⟨fun cs => (hnaive cs).imp_right And.left,
    fun cs => (hnaive cs).imp_right And.right⟩, Date.apart_readIso?_readDayFirst?⟩

theorem read?_of_readRfc3339? {cs : List Char} {m : Moment} (h : readRfc3339? cs = some m) :
    read? cs = some m := by simp only [read?, h]

/-- A text without an offset is not read otherwise before it is tried. -/
theorem read?_of_readNaive? {cs : List Char} {m : Moment} (h : readNaive? cs = some m) :
    read? cs = some m := by
  cases hrfc : readRfc3339? cs with
  | none => simp only [read?, hrfc, h]
  | some m' => cases (only_readRfc3339? hrfc).1.symm.trans h

theorem read?_of_date {cs : List Char} {date : Date} (h : Date.read? cs = some date) :
    read? cs = some (midnight date) := by
  have hsome : ¬ (Date.readIso? cs = none ∧ Date.readDayFirst? cs = none) := by
    rintro ⟨hiso, hday⟩
    simp only [Date.read?, hiso, hday] at h
    cases h
  have hrfc : readRfc3339? cs = none := by
    cases hread : readRfc3339? cs with
    | none => rfl
    | some m => exact absurd (only_readRfc3339? hread).2 hsome
  have hnaive : readNaive? cs = none := by
    cases hread : readNaive? cs with
    | none => rfl
    | some m => exact absurd (not_date_of_readNaive? hread) hsome
  simp only [read?, hrfc, hnaive, h, Option.map_some]

/-- A text that does not begin with a date that has the year in front is a moment only as a date. -/
theorem read?_of_not_scanIso? {cs : List Char} (h : Date.scanIso? cs = none) :
    read? cs = (Date.readDayFirst? cs).map midnight := by
  have hrfc : readRfc3339? cs = none := by
    cases hread : readRfc3339? cs with
    | none => rfl
    | some m =>
      obtain ⟨date, rest, hdate, -⟩ := exists_scanIso?_of_readRfc3339? hread
      cases h.symm.trans hdate
  have hnaive : readNaive? cs = none := by
    simp only [readNaive?, h, Option.bind_eq_bind, Option.bind_none]
  have hiso : Date.readIso? cs = none := by
    simp only [Date.readIso?, h, Option.bind_eq_bind, Option.bind_none]
  simp only [read?, hrfc, hnaive, Date.read?, hiso]

end Moment

end BracketFilter
