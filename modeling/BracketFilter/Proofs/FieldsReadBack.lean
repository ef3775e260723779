import BracketFilter.Calendar.Time
import BracketFilter.Proofs.TokenLists

/-!
# Written digits are read back

The readers of dates and times take a run of digits and leave what stands behind it. Where that does
not begin with a digit, they find the run that was written.

* `Text.Solid` — a text without blanks, of which nothing is trimmed.
* `Text.EndsDigits` — a text that may stand behind a run of digits, as it begins with none.

Principal results: `field?_padded`, `exactly?_padded` and `signedField?_writeYear` — the lenient
reader of fields, the strict one and that of years find the number that was written;
`optionalFraction?_writeFraction` — a fraction of a second that is written with 3, 6 or 9 digits, or
left out, is read as so many nanoseconds.
-/

set_option autoImplicit false

namespace BracketFilter

open BracketFilter.Text

namespace Text

/-! ## Digits that are written -/

theorem digits_padded (width n : Nat) : ∀ c ∈ padded width n, c.isDigit = true := by
  intro c hc
  rcases List.mem_append.1 hc with hzero | hdigit
  · rw [List.eq_of_mem_replicate hzero]
    rfl
  · exact List.all_eq_true.1 (all_isDigit_writeNat n) c hdigit

theorem padded_ne_nil (width n : Nat) : padded width n ≠ [] := by
  simp [padded, zeroFill, writeNat, Nat.toDigits_ne_nil]

theorem ofDigitChars_padded (width n : Nat) : Nat.ofDigitChars 10 (padded width n) 0 = n := by
  simp [padded, zeroFill, writeNat, Nat.ofDigitChars_append, Nat.ofDigitChars_replicate_zero,
    Nat.ofDigitChars_ten_toDigits]

theorem le_length_padded (width n : Nat) : width ≤ (padded width n).length := by
  simp only [padded, zeroFill, List.length_append, List.length_replicate]
  omega

theorem length_padded {width n : Nat} (pos : 0 < width) (h : n < Nat.pow 10 width) :
    (padded width n).length = width := by
  have hle : (writeNat n).length ≤ width := (Nat.length_toDigits_le_iff (by omega) pos).2 h
  simp only [padded, zeroFill, List.length_append, List.length_replicate]
  omega

/-! ## Texts without blanks -/

/-- A text without blanks. -/
def Solid (cs : List Char) : Prop := ∀ c ∈ cs, isBlank c = false

@[simp] theorem solid_nil : Solid [] := List.forall_mem_nil _

@[simp] theorem solid_cons {c : Char} {cs : List Char} :
    Solid (c :: cs) ↔ isBlank c = false ∧ Solid cs := List.forall_mem_cons

@[simp] theorem solid_append {cs ds : List Char} : Solid (cs ++ ds) ↔ Solid cs ∧ Solid ds :=
  List.forall_mem_append

theorem isBlank_of_isDigit {c : Char} (h : c.isDigit = true) : isBlank c = false := by
  simp only [Char.isDigit, Bool.and_eq_true, decide_eq_true_eq, ge_iff_le,
    UInt32.le_iff_toNat_le] at h
  have hbounds : 48 ≤ c.toNat ∧ c.toNat ≤ 57 := h
  simp only [isBlank, Bool.or_eq_false_iff, Bool.and_eq_false_iff, decide_eq_false_iff_not,
    beq_eq_false_iff_ne]
  omega

theorem solid_of_digits {cs : List Char} (h : ∀ c ∈ cs, c.isDigit = true) : Solid cs :=
  fun c hc => isBlank_of_isDigit (h c hc)

@[simp] theorem solid_padded (width n : Nat) : Solid (padded width n) :=
  solid_of_digits (digits_padded width n)

theorem trim_of_solid {cs : List Char} (h : Solid cs) : trim cs = cs :=
  trimBoth_eq_self (fun c hc => h c (List.mem_of_mem_head? hc))
    (fun c hc => h c (List.mem_of_getLast? hc))

/-! ## Texts behind digits -/

/-- A text that does not begin with a digit. -/
def EndsDigits (cs : List Char) : Prop := ∀ c ∈ cs.head?, c.isDigit = false

@[simp] theorem endsDigits_nil : EndsDigits [] := by simp [EndsDigits]

@[simp] theorem endsDigits_cons {c : Char} {cs : List Char} :
    EndsDigits (c :: cs) ↔ c.isDigit = false := by simp [EndsDigits]

theorem takeWhile_digits {run rest : List Char} (digits : ∀ c ∈ run, c.isDigit = true)
    (ends : EndsDigits rest) : (run ++ rest).takeWhile Char.isDigit = run := by
  rw [List.takeWhile_append_of_pos digits]
  cases rest with
  | nil => simp
  | cons c rest => simp [endsDigits_cons.1 ends]

theorem dropWhile_of_endsDigits {rest : List Char} (ends : EndsDigits rest) :
    rest.dropWhile Char.isDigit = rest := by
  cases rest with
  | nil => rfl
  | cons c rest => simp [endsDigits_cons.1 ends]

theorem EndsDigits.take {rest : List Char} (ends : EndsDigits rest) (n : Nat) :
    EndsDigits (rest.take n) := by
  cases n with
  | zero => simp
  | succ n =>
    cases rest with
    | nil => simp
    | cons c rest => simpa using ends

theorem takeWhile_take_digits {most : Nat} {run rest : List Char}
    (digits : ∀ c ∈ run, c.isDigit = true) (fits : run.length ≤ most) (ends : EndsDigits rest) :
    ((run ++ rest).take most).takeWhile Char.isDigit = run := by
  rw [List.take_append, List.take_of_length_le fits]
  exact takeWhile_digits digits (ends.take _)

theorem trimStart_padded (width n : Nat) (rest : List Char) :
    trimStart (padded width n ++ rest) = padded width n ++ rest := by
  obtain ⟨c, cs, hcs⟩ := List.exists_cons_of_ne_nil (padded_ne_nil width n)
  have hc : c.isDigit = true := digits_padded width n c (hcs ▸ List.mem_cons_self)
  rw [hcs]
  simp [trimStart, isBlank_of_isDigit hc]

end Text

namespace Calendar

/-! ## Fields -/

theorem digits?_of_run {most : Nat} {run rest : List Char} (nonempty : run ≠ [])
    (digits : ∀ c ∈ run, c.isDigit = true) (fits : run.length ≤ most) (ends : EndsDigits rest) :
    digits? most (run ++ rest) = some (Nat.ofDigitChars 10 run 0, rest) := by
  simp only [digits?, takeWhile_take_digits digits fits ends, if_neg nonempty, List.drop_left]

/-- A number of not too many digits is read back. -/
theorem digits?_padded {most width n : Nat} {rest : List Char}
    (fits : (padded width n).length ≤ most) (ends : EndsDigits rest) :
    digits? most (padded width n ++ rest) = some (n, rest) := by
  rw [digits?_of_run (padded_ne_nil width n) (digits_padded width n) fits ends,
    ofDigitChars_padded]

/-- **A field is read back by the lenient reader**, in front of a text that begins with no digit. -/
theorem field?_padded {width n : Nat} {rest : List Char} (pos : 0 < width)
    (h : n < Nat.pow 10 width) (ends : EndsDigits rest) :
    field? width (padded width n ++ rest) = some (n, rest) := by
  unfold field?
  rw [trimStart_padded]
  exact digits?_padded (length_padded pos h).le ends

/-- **A field is read back by the strict reader.** -/
theorem exactly?_padded {width n : Nat} (pos : 0 < width) (h : n < Nat.pow 10 width)
    (rest : List Char) : exactly? width (padded width n ++ rest) = some (n, rest) := by
  have hlength := length_padded pos h
  have hrun : (padded width n ++ rest).take width = padded width n := List.take_left' hlength
  have hall : (padded width n).all Char.isDigit = true :=
    List.all_eq_true.2 (digits_padded width n)
  simp only [exactly?, hrun, hlength, hall, and_self, if_true, ofDigitChars_padded,
    List.drop_left' hlength]

theorem spacedChar?_cons {c : Char} (solid : isBlank c = false) (rest : List Char) :
    spacedChar? c (c :: rest) = some rest := by
  simp [spacedChar?, trimStart, solid, char?]

theorem char?_cons (c : Char) (rest : List Char) : char? c (c :: rest) = some rest := if_pos rfl

/-- A number without a sign is read with as many digits as a field may have. -/
theorem signedField?_padded {most width n : Nat} {rest : List Char}
    (fits : (padded width n).length ≤ most) (ends : EndsDigits rest) :
    signedField? most (padded width n ++ rest) = some ((n : Int), rest) := by
  have hread := digits?_padded fits ends
  unfold signedField?
  rw [trimStart_padded]
  obtain ⟨c, cs, hcs⟩ := List.exists_cons_of_ne_nil (padded_ne_nil width n)
  have hc : c.isDigit = true := digits_padded width n c (hcs ▸ List.mem_cons_self)
  split
  · rename_i heq
    rw [hcs] at heq
    cases heq
    cases hc
  · rename_i heq
    rw [hcs] at heq
    cases heq
    cases hc
  · rw [hread]
    rfl

/-- **A year is read back**, with the sign and the digits that it has. -/
theorem signedField?_writeYear (year : Int) {rest : List Char} (ends : EndsDigits rest) :
    signedField? 4 (Date.writeYear year ++ rest) = some (year, rest) := by
  have hany : digits? (padded 4 year.natAbs ++ rest).length (padded 4 year.natAbs ++ rest) =
      some (year.natAbs, rest) := digits?_padded (by simp) ends
  unfold Date.writeYear
  split
  · have hfour : year.natAbs < 10000 := by omega
    rw [signedField?_padded (length_padded (by omega) hfour).le ends]
    simp only [Option.some.injEq, Prod.mk.injEq, and_true]
    omega
  · split
    · have hsign : trimStart ('-' :: padded 4 year.natAbs ++ rest) =
          '-' :: (padded 4 year.natAbs ++ rest) := rfl
      simp only [signedField?, hsign, hany, Option.map_some, Option.some.injEq, Prod.mk.injEq,
        and_true]
      omega
    · have hsign : trimStart ('+' :: padded 4 year.natAbs ++ rest) =
          '+' :: (padded 4 year.natAbs ++ rest) := rfl
      simp only [signedField?, hsign, hany, Option.map_some, Option.some.injEq, Prod.mk.injEq,
        and_true]
      omega

/-! ## Fractions of a second -/

/-- So many digits of a fraction are read as the nanoseconds that they are worth. -/
theorem fraction?_padded {width digits n : Nat} {rest : List Char} (pos : 0 < width)
    (few : width ≤ 9) (h : digits < Nat.pow 10 width) (worth : digits * Nat.pow 10 (9 - width) = n)
    (ends : EndsDigits rest) : fraction? (padded width digits ++ rest) = some (n, rest) := by
  have hlength := length_padded pos h
  have hrun := takeWhile_take_digits (digits_padded width digits) (hlength.trans_le few) ends
  simp only [fraction?, hrun, if_neg (padded_ne_nil width digits), ofDigitChars_padded,
    hlength, List.drop_left' hlength, dropWhile_of_endsDigits ends, worth]

/-- **A fraction of a second is read back**, with the 3, 6 or 9 digits that it needs. -/
theorem optionalFraction?_writeFraction {n : Nat} {rest : List Char} (h : n ≤ 999999999)
    (ends : EndsDigits rest) (noPoint : rest.head? ≠ some '.') :
    optionalFraction? (Time.writeFraction n ++ rest) = some (n, rest) := by
  unfold Time.writeFraction
  split
  · subst n
    rw [List.nil_append]
    unfold optionalFraction?
    split
    · exact absurd rfl noPoint
    · rfl
  · split
    · have short : n / 1000000 < 1000 := by omega
      have worth : n / 1000000 * 1000000 = n := by omega
      exact fraction?_padded (by omega) (by omega) short worth ends
    · split
      · have short : n / 1000 < 1000000 := by omega
        have worth : n / 1000 * 1000 = n := by omega
        exact fraction?_padded (by omega) (by omega) short worth ends
      · have short : n < 1000000000 := by omega
        exact fraction?_padded (by omega) (by omega) short (Nat.mul_one n) ends

end Calendar

end BracketFilter
