import BracketFilter.Value
import Mathlib.Algebra.Order.Field.Basic
import Mathlib.Algebra.Order.Field.Rat
import Mathlib.Tactic.Positivity

/-!
# The order of values

* `Decimal.toRat` — the number that a decimal stands for.
* `KindOrder` — the values of a kind, each with one payload, and the comparison of the payloads.
* `Value.AtMost` — a value is less than another, or equal to it.
* `Value.Coherent` — the order of three values holds together.

The payloads of each kind but that of floating-point numbers are compared transitively
(`exists_kindOrder`), and values of different kinds are not compared at all; what holds of the order
of values follows from these two facts, without looking at the kinds again.

Principal results: `Decimal.compare_eq` — decimals are compared as the numbers that they stand for,
whatever their scales; `Value.coherent` — the order of all values that are no floating-point numbers
holds together.
-/

set_option autoImplicit false

namespace BracketFilter

/-! ## Comparisons of payloads -/

/-- The number that a decimal stands for. -/
def Decimal.toRat (d : Decimal) : ℚ := d.coefficient / 10 ^ d.scale

/-- **Decimals are compared as the numbers that they stand for**, whatever their scales. -/
theorem Decimal.compare_eq (a b : Decimal) : a.compare b = compareOn toRat a b := by
  have hlt (a b : Decimal) : a.toRat < b.toRat ↔
      a.coefficient * Nat.pow 10 b.scale < b.coefficient * Nat.pow 10 a.scale := by
    unfold toRat
    rw [div_lt_div_iff₀ (by positivity) (by positivity)]
    exact_mod_cast Iff.rfl
  unfold compare compareOn
  rcases lt_trichotomy a.toRat b.toRat with h | h | h
  · rw [compare_lt_iff_lt.2 h, compare_lt_iff_lt]
    exact (hlt a b).1 h
  · rw [compare_eq_iff_eq.2 h, compare_eq_iff_eq]
    have hle := mt (hlt a b).2 h.not_lt
    have hge := mt (hlt b a).2 h.not_gt
    omega
  · rw [compare_gt_iff_gt.2 h, compare_gt_iff_gt]
    exact (hlt b a).1 h

instance Decimal.transCmp_compare : Std.TransCmp Decimal.compare := by
  have hcompare : Decimal.compare = compareOn Decimal.toRat := by
    funext a b
    exact compare_eq a b
  rw [hcompare]
  infer_instance

instance Uuid.transCmp_compare : Std.TransCmp Uuid.compare :=
  inferInstanceAs (Std.TransCmp (compareOn fun u : Uuid => u.bits.toNat))

instance Date.transCmp_compare : Std.TransCmp Date.compare :=
  inferInstanceAs (Std.TransCmp (compareLex (compareOn fun d : Date => d.year)
    (compareLex (compareOn fun d : Date => d.month) (compareOn fun d : Date => d.day))))

instance Time.transCmp_compare : Std.TransCmp Time.compare :=
  inferInstanceAs (Std.TransCmp (compareLex (compareOn fun t : Time => t.hour)
    (compareLex (compareOn fun t : Time => t.minute)
      (compareLex (compareOn fun t : Time => t.second)
        (compareOn fun t : Time => t.nanosecond)))))

instance Moment.transCmp_compare : Std.TransCmp Moment.compare :=
  inferInstanceAs (Std.TransCmp (compareLex (Ordering.byKey (fun m : Moment => m.date) Date.compare)
    (Ordering.byKey (fun m : Moment => m.time) Time.compare)))

/-! ## Kinds -/

/-- The values of a kind, each with one payload, and the comparison of the payloads. -/
structure KindOrder (kind : Kind) where
  Payload : Type
  value : Payload → Value
  compare : Payload → Payload → Ordering
  trans : Std.TransCmp compare := by infer_instance
  exists_payload : ∀ v : Value, v.kind? = some kind → ∃ x, value x = v := by
    intro v h
    cases v <;> cases h
    exact ⟨_, rfl⟩
  compare?_value : ∀ x y, (value x).compare? (value y) = some (compare x y) := by
    intro x y
    rfl

/-- The payloads of each kind are compared transitively, floating-point numbers apart. -/
theorem exists_kindOrder {kind : Kind} (h : kind ≠ .f64) : Nonempty (KindOrder kind) := by
  cases kind with
  | string => exact ⟨{ Payload := String, value := .string, compare := Ord.compare }⟩
  | i64 => exact ⟨{ Payload := Int64, value := .i64, compare := compareOn Int64.toInt }⟩
  | f64 => exact absurd rfl h
  | bool => exact ⟨{ Payload := Bool, value := .bool, compare := Ord.compare }⟩
  | uuid => exact ⟨{ Payload := Uuid, value := .uuid, compare := Uuid.compare }⟩
  | dateTimeUtc => exact ⟨{ Payload := Moment, value := .dateTime, compare := Moment.compare }⟩
  | date => exact ⟨{ Payload := Date, value := .date, compare := Date.compare }⟩
  | time => exact ⟨{ Payload := Time, value := .time, compare := Time.compare }⟩
  | decimal => exact ⟨{ Payload := Decimal, value := .decimal, compare := Decimal.compare }⟩

namespace Value

theorem exists_kind_of_compare? {a b : Value} {order : Ordering} (h : a.compare? b = some order) :
    ∃ kind, a.kind? = some kind ∧ b.kind? = some kind := by
  cases a <;> cases b <;> first | exact ⟨_, rfl, rfl⟩ | cases h

theorem compare?_eq_none {a b : Value} (h : a.kind? = none ∨ a.kind? ≠ b.kind?) :
    a.compare? b = none := by
  rw [Option.eq_none_iff_forall_ne_some]
  intro order horder
  obtain ⟨kind, ha, hb⟩ := exists_kind_of_compare? horder
  rw [ha, hb] at h
  simp at h

/-- A value is less than another, or equal to it. -/
def AtMost (a b : Value) : Prop := a.compare? b = some .lt ∨ a.compare? b = some .eq

theorem kind?_eq_of_compare? {a b : Value} {order : Ordering} (h : a.compare? b = some order) :
    a.kind? = b.kind? := by
  obtain ⟨kind, ha, hb⟩ := exists_kind_of_compare? h
  rw [ha, hb]

theorem atMost_iff {a b : Value} :
    a.AtMost b ↔ ∃ order, a.compare? b = some order ∧ order.isLE = true := by
  unfold AtMost
  cases a.compare? b with
  | none => simp
  | some order => cases order <;> simp

variable {a b c : Value}

/-- Two values of one kind have payloads that decide their order. -/
theorem exists_payloads (plain : a.kind? ≠ some .f64) {kind : Kind} (ha : a.kind? = some kind)
    (hb : b.kind? = some kind) :
    ∃ (ord : KindOrder kind) (x y : ord.Payload), ord.value x = a ∧ ord.value y = b := by
  have hkind : kind ≠ .f64 := by
    rintro rfl
    exact plain ha
  obtain ⟨ord⟩ := exists_kindOrder hkind
  obtain ⟨x, hx⟩ := ord.exists_payload a ha
  obtain ⟨y, hy⟩ := ord.exists_payload b hb
  exact ⟨ord, x, y, hx, hy⟩

/-- **Two values are compared exactly if they are there and of one kind.** -/
theorem compare?_isSome_iff (plain : a.kind? ≠ some .f64) :
    (a.compare? b).isSome = true ↔ ∃ kind, a.kind? = some kind ∧ b.kind? = some kind := by
  constructor
  · intro h
    obtain ⟨order, horder⟩ := Option.isSome_iff_exists.1 h
    exact exists_kind_of_compare? horder
  · rintro ⟨kind, ha, hb⟩
    obtain ⟨ord, x, y, rfl, rfl⟩ := exists_payloads plain ha hb
    rw [ord.compare?_value]
    rfl

theorem compare?_eq_swap (plain : a.kind? ≠ some .f64) {order : Ordering}
    (h : a.compare? b = some order) : b.compare? a = some order.swap := by
  obtain ⟨kind, ha, hb⟩ := exists_kind_of_compare? h
  obtain ⟨ord, x, y, rfl, rfl⟩ := exists_payloads plain ha hb
  have htrans := ord.trans
  rw [ord.compare?_value, Option.some.injEq] at h ⊢
  rw [← h]
  exact Std.OrientedCmp.eq_swap

/-- **The order of two values in reverse** is the reverse of their order. -/
theorem compare?_swap (plain : a.kind? ≠ some .f64) :
    b.compare? a = (a.compare? b).map Ordering.swap := by
  cases h : a.compare? b with
  | some order => exact compare?_eq_swap plain h
  | none =>
    rw [Option.map_none, Option.eq_none_iff_forall_ne_some]
    intro order horder
    obtain ⟨kind, hb, ha⟩ := exists_kind_of_compare? horder
    have hback := compare?_eq_swap (by rwa [hb, ← ha]) horder
    cases h.symm.trans hback

theorem atMost_iff_compare? (plain : a.kind? ≠ some .f64) :
    a.AtMost b ↔ b.compare? a = some .gt ∨ b.compare? a = some .eq := by
  unfold AtMost
  rw [compare?_swap plain]
  cases a.compare? b with
  | none => simp
  | some order => cases order <;> simp

theorem isEqualTo_self (plain : a.kind? ≠ some .f64) (present : a.kind? ≠ none) :
    a.isEqualTo a = true := by
  obtain ⟨kind, ha⟩ := Option.ne_none_iff_exists'.1 present
  obtain ⟨ord, x, -, rfl, -⟩ := exists_payloads plain ha ha
  have htrans := ord.trans
  rw [isEqualTo, ord.compare?_value, beq_iff_eq, Option.some.injEq]
  exact Std.ReflCmp.compare_self

theorem isEqualTo_symm (plain : a.kind? ≠ some .f64) (h : a.isEqualTo b = true) :
    b.isEqualTo a = true := by
  rw [isEqualTo, beq_iff_eq] at h ⊢
  exact compare?_eq_swap plain h

/-- Steps that are less or equal lead to a value that is less or equal, and less if one of them
is. -/
theorem compare?_trans (plain : a.kind? ≠ some .f64) {order order' : Ordering}
    (h : a.compare? b = some order) (h' : b.compare? c = some order') (hle : order.isLE = true)
    (hle' : order'.isLE = true) : a.compare? c = some (order.then order') := by
  obtain ⟨kind, ha, hb⟩ := exists_kind_of_compare? h
  obtain ⟨kind', hb', hc⟩ := exists_kind_of_compare? h'
  cases hb.symm.trans hb'
  obtain ⟨ord, x, y, rfl, rfl⟩ := exists_payloads plain ha hb
  obtain ⟨z, rfl⟩ := ord.exists_payload c hc
  have htrans := ord.trans
  rw [ord.compare?_value, Option.some.injEq] at h h' ⊢
  cases order with
  | lt =>
    rw [← h'] at hle'
    exact Std.TransCmp.lt_of_lt_of_isLE h hle'
  | eq => exact (Std.TransCmp.congr_left h).trans h'
  | gt => cases hle

theorem isEqualTo_trans (plain : a.kind? ≠ some .f64) (h : a.isEqualTo b = true)
    (h' : b.isEqualTo c = true) : a.isEqualTo c = true := by
  rw [isEqualTo, beq_iff_eq] at h h' ⊢
  exact compare?_trans plain h h' rfl rfl

theorem AtMost.trans (plain : a.kind? ≠ some .f64) (h : a.AtMost b) (h' : b.AtMost c) :
    a.AtMost c := by
  obtain ⟨order, horder, hle⟩ := atMost_iff.1 h
  obtain ⟨order', horder', hle'⟩ := atMost_iff.1 h'
  refine atMost_iff.2 ⟨_, compare?_trans plain horder horder' hle hle', ?_⟩
  cases order with
  | lt => rfl
  | eq => exact hle'
  | gt => cases hle

theorem lt_of_lt_of_atMost (plain : a.kind? ≠ some .f64) (h : a.compare? b = some .lt)
    (h' : b.AtMost c) : a.compare? c = some .lt := by
  obtain ⟨order, horder, hle⟩ := atMost_iff.1 h'
  exact compare?_trans plain h horder rfl hle

theorem lt_of_atMost_of_lt (plain : a.kind? ≠ some .f64) (h : a.AtMost b)
    (h' : b.compare? c = some .lt) : a.compare? c = some .lt := by
  obtain ⟨order, horder, hle⟩ := atMost_iff.1 h
  rw [compare?_trans plain horder h' hle rfl]
  cases order with
  | lt => rfl
  | eq => rfl
  | gt => cases hle

/-- The order of three values holds together. -/
structure Coherent (a b c : Value) : Prop where
  /-- Two values are compared exactly if they are there and of one kind. -/
  compared : (a.compare? b).isSome = true ↔ ∃ kind, a.kind? = some kind ∧ b.kind? = some kind
  /-- The order of two values, read from the other side, is reversed. -/
  reversed : b.compare? a = (a.compare? b).map Ordering.swap
  /-- A value that is there is equal to itself. -/
  equal_self : a.kind? ≠ none → a.isEqualTo a = true
  /-- Equality does not tell sides. -/
  equal_symm : a.isEqualTo b = true → b.isEqualTo a = true
  /-- What is equal to an equal value is equal. -/
  equal_trans : a.isEqualTo b = true → b.isEqualTo c = true → a.isEqualTo c = true
  /-- What is at most a value is at most what that value is at most. -/
  atMost_trans : a.AtMost b → b.AtMost c → a.AtMost c
  /-- Decimals are compared as the numbers that they stand for. -/
  decimals : ∀ d e, a = .decimal d → b = .decimal e →
    a.compare? b = some (compare d.toRat e.toRat)

/-- **The order of values holds together**, floating-point numbers apart. -/
theorem coherent (plain : a.kind? ≠ some .f64) (b c : Value) : Coherent a b c where
  compared := compare?_isSome_iff plain
  reversed := compare?_swap plain
  equal_self := isEqualTo_self plain
  equal_symm := isEqualTo_symm plain
  equal_trans := isEqualTo_trans plain
  atMost_trans := AtMost.trans plain
  decimals := by
    rintro d e rfl rfl
    exact congrArg some (Decimal.compare_eq d e)

end Value

end BracketFilter
