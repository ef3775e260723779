import BracketFilter.Coercion
import BracketFilter.Proofs.FieldsReadBack

/-!
# Numbers and identifiers are read back

* `Decimal.Progress.after` — how far digits that fit bring the reader of decimals.
* `Decimal.unsignedZero` — a decimal in which zero has no sign.

Principal results: `Coercer.readI64?_write` — a whole number of 64 bits is read back, the least and
the greatest among them; `Decimal.read?_write` — a decimal is read back with its scale, but zero
without its sign; `Uuid.read?_write` — an identifier is read back.
-/

set_option autoImplicit false

namespace BracketFilter

open BracketFilter.Text

/-! ## Whole numbers -/

namespace Text

theorem digits_head? {cs : List Char} (digits : ∀ c ∈ cs, c.isDigit = true) {c : Char}
    (other : c.isDigit = false) : cs.head? ≠ some c := by
  intro hc
  rw [digits c (List.mem_of_mem_head? hc)] at other
  cases other

theorem digits_writeNat (n : Nat) : ∀ c ∈ writeNat n, c.isDigit = true :=
  List.all_eq_true.1 (all_isDigit_writeNat n)

theorem readInt?_writeNat (n : Nat) : readInt? (writeNat n) = some (n : Int) := by
  have hread := readNat?_writeNat n
  have hdigits := digits_writeNat n
  generalize writeNat n = cs at hread hdigits
  unfold readInt?
  split
  · exact absurd rfl (digits_head? hdigits rfl)
  · exact absurd rfl (digits_head? hdigits rfl)
  · rw [hread]
    rfl

/-- **A whole number is read back.** -/
theorem readInt?_writeInt (n : Int) : readInt? (writeInt n) = some n := by
  unfold writeInt
  split
  · simp only [readInt?, readNat?_writeNat, Option.bind_eq_bind, Option.bind_some, Option.pure_def,
      Option.map_some, Option.some.injEq]
    omega
  · rw [readInt?_writeNat, Option.some.injEq]
    omega

theorem solid_writeInt (n : Int) : Solid (writeInt n) := by
  have hdigits := solid_of_digits (digits_writeNat n.natAbs)
  unfold writeInt
  split
  · exact solid_cons.2 ⟨by decide, hdigits⟩
  · exact hdigits

end Text

/-- **A whole number of 64 bits is read back**, at both ends of the range as well. -/
theorem Coercer.readI64?_write (n : Int64) : readI64? (writeInt n.toInt) = some n := by
  simp only [readI64?, readInt?_writeInt, if_pos (And.intro n.minValue_le_toInt n.toInt_le),
    Int64.ofInt_toInt]

/-! ## Decimals -/

namespace Decimal

theorem le_ofDigitChars (cs : List Char) (n : Nat) : n ≤ Nat.ofDigitChars 10 cs n := by
  induction cs generalizing n with
  | nil => exact Nat.le_refl n
  | cons c cs ih =>
    rw [Nat.ofDigitChars_cons]
    have := ih (10 * n + (c.toNat - '0'.toNat))
    omega

/-- How far a run of digits that fit brings the reader. -/
def Progress.after (p : Progress) (run : List Char) : Progress :=
  { digits := Nat.ofDigitChars 10 run p.digits
    places := p.places + if p.point then run.length else 0
    point := p.point
    started := p.started || !run.isEmpty }

theorem Progress.after_cons (p : Progress) (c : Char) (run : List Char) :
    p.after (c :: run) = ({ p with
      digits := p.digits * 10 + digitValue c
      places := p.places + (if p.point then 1 else 0)
      started := true } : Progress).after run := by
  obtain ⟨digits, places, point, started⟩ := p
  have hplaces : places + (run.length + 1) = places + 1 + run.length := by omega
  cases point <;>
    simp [after, Nat.ofDigitChars_cons, digitValue, Nat.mul_comm digits 10, hplaces]

/-- **Digits that fit are read one after another**: those of a number below the bound, of which no
more than 28 stand behind the point. -/
theorem readDigits_append {p : Progress} {run : List Char} (digits : ∀ c ∈ run, c.isDigit = true)
    (fits : (p.after run).digits < magnitudeBound)
    (short : p.point = true → p.places + run.length ≤ maxScale) (rest : List Char) :
    readDigits p (run ++ rest) = readDigits (p.after run) rest := by
  induction run generalizing p with
  | nil =>
    obtain ⟨digits, places, point, started⟩ := p
    simp [Progress.after, Nat.ofDigitChars_nil]
  | cons c run ih =>
    rw [List.forall_mem_cons] at digits
    rw [Progress.after_cons] at fits ⊢
    have hplaces : ¬ (p.point = true ∧ p.places = maxScale) := by
      rintro ⟨hpoint, hfull⟩
      have hlength := short hpoint
      rw [List.length_cons] at hlength
      omega
    have hnext : p.digits * 10 + digitValue c < magnitudeBound :=
      (le_ofDigitChars run _).trans_lt fits
    rw [List.cons_append, readDigits, if_neg hplaces, if_pos digits.1]
    simp only [if_pos hnext]
    refine ih digits.2 fits fun hpoint => ?_
    have hlength := short hpoint
    rw [List.length_cons] at hlength
    simp only [show p.point = true from hpoint, if_true]
    omega

/-- Where nothing has been read. -/
def Progress.start : Progress := ⟨0, 0, false, false⟩

theorem readDigits_whole {run : List Char} (nonempty : run ≠ [])
    (digits : ∀ c ∈ run, c.isDigit = true)
    (fits : Nat.ofDigitChars 10 run 0 < magnitudeBound) :
    readDigits .start run = some (Nat.ofDigitChars 10 run 0, 0) := by
  have hread := readDigits_append (p := .start) digits fits nofun []
  rw [List.append_nil] at hread
  rw [hread]
  simp [readDigits, Progress.after, Progress.start, nonempty]

/-- Digits before and behind a point are read as one number, with the place of the point. -/
theorem readDigits_pointed {front back : List Char} (nonempty : front ≠ [])
    (before : ∀ c ∈ front, c.isDigit = true) (behind : ∀ c ∈ back, c.isDigit = true)
    (fits : Nat.ofDigitChars 10 (front ++ back) 0 < magnitudeBound)
    (short : back.length ≤ maxScale) : readDigits .start (front ++ '.' :: back) =
      some (Nat.ofDigitChars 10 (front ++ back) 0, back.length) := by
  rw [Nat.ofDigitChars_append] at fits ⊢
  have hfront := readDigits_append (p := .start) before
    ((le_ofDigitChars back _).trans_lt fits) nofun ('.' :: back)
  have hpoint : readDigits (Progress.start.after front) ('.' :: back) =
      readDigits ⟨Nat.ofDigitChars 10 front 0, 0, true, true⟩ back := by
    have hstarted : front.isEmpty = false := by simpa using nonempty
    simp [readDigits, Progress.after, Progress.start, hstarted]
  have hback := readDigits_append (p := ⟨Nat.ofDigitChars 10 front 0, 0, true, true⟩) behind
    fits (fun _ => by simpa using short) []
  rw [List.append_nil] at hback
  rw [hfront, hpoint, hback]
  simp [readDigits, Progress.after]

/-- **The digits of a magnitude are read back**, with as many of them behind the point. -/
theorem readDigits_writeMagnitude {n scale : Nat} (small : n < magnitudeBound)
    (fine : scale ≤ maxScale) :
    readDigits .start (writeMagnitude n scale) = some (n, scale) := by
  unfold writeMagnitude
  split
  · subst scale
    have hvalue : Nat.ofDigitChars 10 (writeNat n) 0 = n := Nat.ofDigitChars_ten_toDigits
    have hsome : writeNat n ≠ [] := Nat.toDigits_ne_nil
    have hread := readDigits_whole hsome (digits_writeNat n) (by rwa [hvalue])
    rwa [hvalue] at hread
  · have hvalue := ofDigitChars_padded (scale + 1) n
    have hdigits := digits_padded (scale + 1) n
    have hlong := le_length_padded (scale + 1) n
    generalize padded (scale + 1) n = digits at hvalue hdigits hlong
    have hsplit := List.take_append_drop (digits.length - scale) digits
    have hfront : digits.take (digits.length - scale) ≠ [] := by
      rw [ne_eq, List.take_eq_nil_iff, not_or]
      exact ⟨by omega, List.ne_nil_of_length_pos (by omega)⟩
    have hback : (digits.drop (digits.length - scale)).length = scale := by
      rw [List.length_drop]
      omega
    have hread := readDigits_pointed hfront (fun c hc => hdigits c (List.mem_of_mem_take hc))
      (fun c hc => hdigits c (List.mem_of_mem_drop hc)) (by rwa [hsplit, hvalue])
      (hback.trans_le fine)
    rwa [hsplit, hvalue, hback] at hread

theorem isDigit_or_eq_of_mem_writeMagnitude {n scale : Nat} {c : Char}
    (h : c ∈ writeMagnitude n scale) : c.isDigit = true ∨ c = '.' := by
  unfold writeMagnitude at h
  split at h
  · exact .inl (digits_writeNat n c h)
  · have hdigits := digits_padded (scale + 1) n
    rcases List.mem_append.1 h with hfront | hrest
    · exact .inl (hdigits c (List.mem_of_mem_take hfront))
    · rcases List.mem_cons.1 hrest with rfl | hback
      · exact .inr rfl
      · exact .inl (hdigits c (List.mem_of_mem_drop hback))

theorem head?_writeMagnitude (n scale : Nat) {c : Char} (noDigit : c.isDigit = false)
    (noPoint : c ≠ '.') : (writeMagnitude n scale).head? ≠ some c := by
  intro hc
  rcases isDigit_or_eq_of_mem_writeMagnitude (List.mem_of_mem_head? hc) with hdigit | rfl
  · cases hdigit.symm.trans noDigit
  · exact noPoint rfl

/-- The decimal, in which zero has no sign. -/
def unsignedZero (d : Decimal) : Decimal := { d with negative := d.negative && d.magnitude != 0 }

theorem compare_unsignedZero (d : Decimal) : d.compare d.unsignedZero = .eq := by
  have hcoefficient : d.unsignedZero.coefficient = d.coefficient := by
    unfold coefficient unsignedZero
    by_cases hzero : d.magnitude = 0
    · simp [hzero]
    · simp [hzero]
  have hscale : d.unsignedZero.scale = d.scale := rfl
  rw [compare, hcoefficient, hscale]
  exact Std.ReflOrd.compare_self

/-- A number that is written without an exponent is read digit by digit. -/
theorem readPlain?_write (d : Decimal) : readPlain? d.write = some d.unsignedZero := by
  have hread := readDigits_writeMagnitude d.magnitude_lt d.scale_le
  have hminus := head?_writeMagnitude d.magnitude d.scale (show '-'.isDigit = false from rfl)
    (by decide)
  have hplus := head?_writeMagnitude d.magnitude d.scale (show '+'.isDigit = false from rfl)
    (by decide)
  have hparts : ofParts? (d.negative && d.magnitude != 0) d.magnitude d.scale =
      some d.unsignedZero := dif_pos ⟨d.magnitude_lt, d.scale_le⟩
  unfold readPlain? write
  generalize writeMagnitude d.magnitude d.scale = digits at hread hminus hplus ⊢
  unfold Progress.start at hread
  cases hsign : d.negative with
  | true =>
    rw [hsign] at hparts
    simpa [hread] using hparts
  | false =>
    have hfirst : (digits.head? == some '-') = false := by simpa using hminus
    rw [hsign] at hparts
    simpa [hread, hminus, hplus, hfirst] using hparts

@[simp] theorem solid_write (d : Decimal) : Solid d.write := by
  have hdigits : Solid (writeMagnitude d.magnitude d.scale) := by
    intro c hc
    rcases isDigit_or_eq_of_mem_writeMagnitude hc with hdigit | rfl
    · exact isBlank_of_isDigit hdigit
    · decide
  unfold write
  split
  · exact solid_append.2 ⟨by simp [show isBlank '-' = false by decide], hdigits⟩
  · exact hdigits

/-- **A decimal is read back** with its scale and its sign, but zero without a sign. -/
theorem read?_write (d : Decimal) : read? d.write = some d.unsignedZero := by
  have hplain : ∀ c ∈ d.write, (!isExponentMark c) = true := by
    intro c hc
    have hmark : c.isDigit = true ∨ c = '.' ∨ c = '-' := by
      unfold write at hc
      rcases List.mem_append.1 hc with hsign | hdigits
      · split at hsign
        · exact .inr (.inr (List.mem_singleton.1 hsign))
        · cases hsign
      · exact (isDigit_or_eq_of_mem_writeMagnitude hdigits).imp_right .inl
    rcases hmark with hdigit | rfl | rfl
    · simp only [isExponentMark, Bool.not_eq_true', Bool.or_eq_false_iff, beq_eq_false_iff_ne]
      constructor
      · rintro rfl
        cases hdigit
      · rintro rfl
        cases hdigit
    · decide
    · decide
  have hnone : d.write.dropWhile (fun c => !isExponentMark c) = [] :=
    List.dropWhile_eq_nil_iff.2 hplain
  simp only [read?, hnone]
  exact readPlain?_write d

end Decimal

/-! ## Identifiers -/

namespace Uuid

theorem exists_groups {digits : List Char} (full : digits.length = 32) :
    ∃ a b c d e : List Char, digits = a ++ (b ++ (c ++ (d ++ e))) ∧ a.length = 8 ∧ b.length = 4 ∧
      c.length = 4 ∧ d.length = 4 ∧ e.length = 12 := by
  have hcut (n m : Nat) : digits.drop n = (digits.drop n).take m ++ digits.drop (n + m) := by
    rw [← List.drop_drop, List.take_append_drop]
  refine ⟨digits.take 8, (digits.drop 8).take 4, (digits.drop 12).take 4, (digits.drop 16).take 4,
    digits.drop 20, ?_, ?_⟩
  · rw [← hcut 16 4, ← hcut 12 4, ← hcut 8 4, List.take_append_drop]
  · simp [full]

/-- The groups of the form with hyphens are those of the digits. -/
theorem hyphenate_append {a b c d e : List Char} (ha : a.length = 8) (hb : b.length = 4)
    (hc : c.length = 4) (hd : d.length = 4) : hyphenate (a ++ (b ++ (c ++ (d ++ e)))) =
      a ++ '-' :: (b ++ '-' :: (c ++ '-' :: (d ++ '-' :: e))) := by
  simp (disch := omega) [hyphenate, List.drop_append, List.drop_eq_nil_of_le, ha, hb, hc]

theorem readHyphenated?_hyphenate {digits : List Char} (full : digits.length = 32) :
    (hyphenate digits).length = 36 ∧ readHyphenated? (hyphenate digits) = readSimple? digits := by
  obtain ⟨a, b, c, d, e, rfl, ha, hb, hc, hd, he⟩ := exists_groups full
  have hform := hyphenate_append (e := e) ha hb hc hd
  refine ⟨by simp [hform, ha, hb, hc, hd, he], ?_⟩
  have hgroups : (hyphenate (a ++ (b ++ (c ++ (d ++ e))))).take 8 ++
      ((hyphenate (a ++ (b ++ (c ++ (d ++ e))))).drop 9).take 4 ++
      ((hyphenate (a ++ (b ++ (c ++ (d ++ e))))).drop 14).take 4 ++
      ((hyphenate (a ++ (b ++ (c ++ (d ++ e))))).drop 19).take 4 ++
      (hyphenate (a ++ (b ++ (c ++ (d ++ e))))).drop 24 = a ++ (b ++ (c ++ (d ++ e))) := by
    simp (disch := omega) [hform, List.drop_append, List.drop_eq_nil_of_le, ha, hb, hc, hd]
  simp only [readHyphenated?, hgroups, if_true]

theorem solid_writeHex (width n : Nat) : Solid (writeHex width n) := by
  have hdigit : ∀ d : Fin 16, isBlank (Nat.digitChar d) = false := by decide
  induction width generalizing n with
  | zero => exact solid_nil
  | succ width ih =>
    have hlast := hdigit ⟨n % 16, Nat.mod_lt n (by omega)⟩
    simp [writeHex, ih, hlast]

@[simp] theorem solid_write (u : Uuid) : Solid u.write := by
  have hdigits := solid_writeHex 32 u.bits.toNat
  have hhyphen : isBlank '-' = false := by decide
  have hfront (n : Nat) : Solid ((writeHex 32 u.bits.toNat).drop n) :=
    fun c hc => hdigits c (List.mem_of_mem_drop hc)
  have hgroup (n m : Nat) : Solid (((writeHex 32 u.bits.toNat).drop n).take m) :=
    fun c hc => hfront n c (List.mem_of_mem_take hc)
  simp only [write, hyphenate, solid_append, solid_cons, hhyphen, hgroup, hfront, and_true]
  exact fun c hc => hdigits c (List.mem_of_mem_take hc)

/-- **An identifier is read back.** -/
theorem read?_write (u : Uuid) : read? u.write = some u := by
  have hdigits : (writeHex 32 u.bits.toNat).length = 32 := length_writeHex _ _
  obtain ⟨hlength, hread⟩ := readHyphenated?_hyphenate hdigits
  have hbits : u.bits.toNat % Nat.pow 16 32 = u.bits.toNat := Nat.mod_eq_of_lt u.bits.isLt
  simp only [read?, write, hlength, hread, readSimple?, if_pos hdigits, readHex?_writeHex, hbits,
    Option.map_some, BitVec.ofNat_toNat, BitVec.setWidth_eq]

end Uuid

end BracketFilter
