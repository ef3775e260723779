import BracketFilter.Proofs.NumbersReadBack
import BracketFilter.Proofs.ServedKeys
import BracketFilter.Proofs.TimesReadBack
import BracketFilter.Proofs.ValueOrder

/-!
# Values are asked for by their own text

* `Value.unsignedZero` — a value in which the decimal zero has no sign.

Principal results: `Coercer.standard_write` — the text of a value is read as the value, but zero
without its sign; `accepts_own_text` — so that each record that holds a value is accepted by the
filter that asks for its text.
-/

set_option autoImplicit false

namespace BracketFilter

open BracketFilter.Text

namespace Value

/-- The value, in which the decimal zero has no sign. -/
def unsignedZero : Value → Value
  | decimal d => decimal d.unsignedZero
  | v => v

/-- The sign of zero is not seen by filters. -/
theorem unsignedZero_isEqualTo {v : Value} (plain : v.kind? ≠ some .f64)
    (present : v.kind? ≠ none) : v.unsignedZero.isEqualTo v = true := by
  cases v with
  | decimal d =>
    have hequal : (decimal d).isEqualTo (decimal d.unsignedZero) = true := by
      simp [isEqualTo, compare?, Decimal.compare_unsignedZero]
    exact isEqualTo_symm plain hequal
  | _ => exact isEqualTo_self plain present

theorem kind?_unsignedZero (v : Value) : v.unsignedZero.kind? = v.kind? := by
  cases v <;> rfl

end Value

/-- **A value is read back from its own text**, floating-point numbers and moments in years with a
sign apart. Zero loses its sign. -/
theorem Coercer.standard_write {kind : Kind} (plain : kind ≠ .f64) {v : Value}
    (typed : v.kind? = some kind)
    (era : ∀ m, v = .dateTime m → 0 ≤ m.date.year ∧ m.date.year ≤ 9999) :
    standard v.write kind = .ok v.unsignedZero := by
  have hread : read? kind v.write = some v.unsignedZero := by
    cases v with
    | null => cases typed
    | f64 x =>
      cases typed
      exact absurd rfl plain
    | bool b =>
      cases typed
      cases b <;> decide
    | string s =>
      cases typed
      rfl
    | i64 n =>
      cases typed
      simp [read?, Value.write, trim_of_solid (solid_writeInt _), readI64?_write,
        Value.unsignedZero]
    | decimal d =>
      cases typed
      simp [read?, Value.write, trim_of_solid d.solid_write, d.read?_write, Value.unsignedZero]
    | uuid u =>
      cases typed
      simp [read?, Value.write, trim_of_solid u.solid_write, u.read?_write, Value.unsignedZero]
    | date d =>
      cases typed
      simp [read?, Value.write, trim_of_solid d.solid_write, d.read?_write, Value.unsignedZero]
    | time t =>
      cases typed
      simp [read?, Value.write, trim_of_solid t.solid_write, t.read?_write, Value.unsignedZero]
    | dateTime m =>
      cases typed
      simp [read?, Value.write, trim_of_solid m.solid_write,
        m.read?_write_eq_some_iff.2 (era m rfl), Value.unsignedZero]
  simp only [standard, hread]

/-- **Each value can be asked for by its own text.** Let a value be there, as each value that a text
is read as is, and let it be no floating-point number; a moment is to lie in the years 0 to 9999.
Then its text is read as a value that is equal to it. Where a key for equality leads, within the
limits, to a leaf or a member of its kind, and the records have the kind there as well, the key with
this text is bound and compiles, and accepts each record in which the value is found. -/
theorem accepts_own_text {kind : Kind} (plain : kind ≠ .f64) {v : Value}
    (typed : v.kind? = some kind)
    (era : ∀ m, v = .dateTime m → 0 ≤ m.date.year ∧ m.date.year ≤ 9999) :
    (∃ w, Coercer.standard v.write kind = .ok w ∧ w.isEqualTo v = true) ∧
      ∀ {ι κ : Type} {C : κ → Type} {shapes : ι → Shape ι} {types : RecordTypes κ C}
        {limits : Limits} {shape : Shape ι} {k : κ} {base path : Path} {reading : Reading (C k)}
        {text : String}, (∀ i, (shapes i).DistinctNames) → shape.DistinctNames →
        Key.parse? text = some ⟨base ++ path, some .eq⟩ →
        Serves limits shapes types shape k 0 path reading → reading.kind = kind →
        ∀ r, reading.Meets false (· = v) r →
          Accepts types k ⟨limits, .standard⟩ shapes shape base
            (Query.ofPairs [(text, v.write)]) r := by
  have hplain : v.kind? ≠ some .f64 := by simpa [typed] using plain
  have hpresent : v.kind? ≠ none := by simp [typed]
  have hread := Coercer.standard_write plain typed era
  have hequal := Value.unsignedZero_isEqualTo hplain hpresent
  refine ⟨⟨_, hread, hequal⟩, ?_⟩
  rintro ι κ C shapes types limits shape k base path reading text names distinct parsed serves rfl
    r held
  have decides : Decides Coercer.standard .eq v.write
      (EqualToOne Coercer.standard false [v.write]) :=
    decides_equalToOne _ _ rfl (.inr ⟨rfl, rfl⟩)
  rw [Query.ofPairs_singleton parsed,
    accepts_iff_meets_of_serves Coercer.strict_standard rfl decides names distinct hread serves]
  obtain ⟨group, hgroup, _, hmem, rfl⟩ := held
  have hsame := Value.isEqualTo_symm (by rwa [Value.kind?_unsignedZero]) hequal
  exact ⟨group, hgroup, _, hmem, _, List.mem_singleton_self _, _, hread, beq_iff_eq.1 hsame⟩

/-! ## Stops of a journey -/

/-- A stop of a journey: when it is reached, what is paid there, and the stops before it. -/
structure Stop where
  reached : Moment
  fees : List Decimal
  before : List Stop

/-- The fields of stops. -/
def stopTypes : RecordTypes Unit (fun _ => Stop) := fun _ =>
  { name := "Stop"
    fields :=
      [⟨"reached", .value ⟨.dateTimeUtc, false⟩ fun stop => .dateTime stop.reached⟩,
        ⟨"fees", .values ⟨.decimal, false⟩ fun stop => stop.fees.map .decimal⟩,
        ⟨"before", .list () Stop.before⟩] }

/-- Filters on stops. -/
def stopShapes : Unit → Shape Unit := fun _ =>
  { name := "StopFilter"
    fields :=
      [⟨"reached", .leaf (.primitive ⟨.dateTimeUtc, false⟩)⟩,
        ⟨"fees", .leaf (.primitive ⟨.decimal, false⟩)⟩,
        ⟨"before", .list ()⟩] }

theorem distinctNames_stopShapes (i : Unit) : (stopShapes i).DistinctNames where
  fields := by
    cases i
    decide +kernel
  members := by
    intro field hfield type htype
    simp only [stopShapes, List.mem_cons, List.not_mem_nil, or_false] at hfield
    rcases hfield with rfl | rfl | rfl <;> cases htype

/-- The fees at a stop before. -/
def feesBefore : Path := [.named "before", .index 0, .named "fees"]

/-- What is left of a fee that is too small to be written, with its sign. -/
def tinyFee : Decimal := ⟨true, 0, 28, by decide, by decide⟩

/-- Half a second into a leap second. -/
def leapSecond : Moment := ⟨⟨2016, 12, 31, by decide⟩, ⟨23, 59, 60, 500000000, by decide⟩⟩

/-- A stop behind one where the fee was paid. -/
def stopBehind : Stop := ⟨leapSecond, [], [⟨leapSecond, [tinyFee], []⟩]⟩

/-- The fees at the stops before a stop. -/
def feesReading : Reading Stop :=
  Reading.within Stop.before ⟨.decimal, fun stop => [stop.fees.map .decimal]⟩

theorem serves_feesBefore :
    Serves .standard stopShapes stopTypes (stopShapes ()) () 0 feesBefore feesReading := by
  have hbefore : (⟨"before", .list ()⟩ : FieldShape Unit) ∈ (stopShapes ()).fields := by
    simp [stopShapes]
  have hfees : (⟨"fees", .leaf (.primitive ⟨.decimal, false⟩)⟩ : FieldShape Unit) ∈
      (stopShapes ()).fields := by simp [stopShapes]
  exact .list hbefore rfl rfl rfl (by decide) (by decide) (.leaf hfees rfl rfl (.values rfl))

theorem accepts_own_text_stops :
    Kind.decimal ≠ .f64 ∧ Coercer.standard "-0.1e-28" .decimal = .ok (.decimal tinyFee) ∧
    (∀ m, Value.decimal tinyFee = .dateTime m → 0 ≤ m.date.year ∧ m.date.year ≤ 9999) ∧
    (Value.decimal tinyFee).write = "-0.0000000000000000000000000000" ∧
    (∃ w, Coercer.standard (Value.decimal tinyFee).write .decimal = .ok w ∧
      w.isEqualTo (.decimal tinyFee) = true) ∧
    Key.parse? "Before[0][fees][eq]" = some ⟨feesBefore, some .eq⟩ ∧
    feesReading.Meets false (· = .decimal tinyFee) stopBehind ∧
    Accepts stopTypes () {} stopShapes (stopShapes ()) []
      (Query.ofPairs [("Before[0][fees][eq]", (Value.decimal tinyFee).write)]) stopBehind ∧
    ¬ Accepts stopTypes () {} stopShapes (stopShapes ()) []
      (Query.ofPairs [("Before[0][fees][eq]", (Value.decimal tinyFee).write)])
      ⟨leapSecond, [tinyFee], []⟩ ∧
    (∀ m, Value.dateTime leapSecond = .dateTime m → 0 ≤ m.date.year ∧ m.date.year ≤ 9999) ∧
    (Value.dateTime leapSecond).write = "2016-12-31T23:59:60.500+00:00" ∧
    ∃ w, Coercer.standard (Value.dateTime leapSecond).write .dateTimeUtc = .ok w ∧
      w.isEqualTo (.dateTime leapSecond) = true := by
  have hkey : Key.parse? "Before[0][fees][eq]" = some ⟨feesBefore, some .eq⟩ := by decide +kernel
  have hnoMoment : ∀ m, Value.decimal tinyFee = .dateTime m →
      0 ≤ m.date.year ∧ m.date.year ≤ 9999 := by
    simp only [reduceCtorEq, false_imp_iff, implies_true]
  have hmoment : ∀ m, Value.dateTime leapSecond = .dateTime m →
      0 ≤ m.date.year ∧ m.date.year ≤ 9999 := by
    rintro _ ⟨⟩
    decide
  have hdecimal : Kind.decimal ≠ .f64 := by decide
  obtain ⟨hfee, haccepts⟩ := accepts_own_text hdecimal (v := .decimal tinyFee) rfl hnoMoment
  obtain ⟨hleap, -⟩ := accepts_own_text (by decide) (v := .dateTime leapSecond) rfl hmoment
  have hheld : feesReading.Meets false (· = .decimal tinyFee) stopBehind :=
    ⟨_, List.mem_singleton_self _, _, List.mem_singleton_self _, rfl⟩
  exact ⟨hdecimal, by decide +kernel, hnoMoment, by decide +kernel, hfee, hkey, hheld,
    haccepts distinctNames_stopShapes (distinctNames_stopShapes ()) hkey serves_feesBefore rfl _
      hheld,
    by decide +kernel, hmoment, by decide +kernel, hleap⟩

end BracketFilter
