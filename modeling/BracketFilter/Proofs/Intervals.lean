import BracketFilter.Proofs.TextSearch
import BracketFilter.Proofs.ValueOrder

/-!
# Comparisons form intervals

* `Operation.asking` — the comparison that asks for an order.
* `Cell.compares` — what the filter with one comparison on a cell answers on a record.
* `Cell.FormsIntervals` — the comparisons on a cell fit together.

Principal result: `comparisons_fit` — the order of values holds together, and on every field that is
read as one value the comparisons ask for the intervals of that order.
-/

set_option autoImplicit false

namespace BracketFilter

variable {ι κ : Type} {C : κ → Type} {types : RecordTypes κ C} {k : κ}

/-- The comparison that asks for an order and for no other. -/
def Operation.asking : Ordering → Operation
  | .lt => .lt
  | .eq => .eq
  | .gt => .gt

/-- Of three comparisons each order is what one asks for. -/
theorem acceptsOrder_asking (order : Ordering) : Operation.asking order ∈ [.lt, .eq, .gt] ∧
    ∀ op ∈ [Operation.lt, .eq, .gt],
      Test.acceptsOrder op (some order) = decide (op = .asking order) := by
  cases order <;> decide

namespace Cell

/-- What the filter with one comparison on the cell answers on a record. -/
def compares (cell : Cell ι types k) (op : Operation) (x : Value) (r : C k) : Option Bool :=
  cell.verdict? (cell.asking [(op, x)]) r

/-- What the filter with two comparisons on the cell answers on a record. -/
def comparesBoth (cell : Cell ι types k) (op op' : Operation) (x y : Value) (r : C k) :
    Option Bool :=
  cell.verdict? (cell.asking [(op, x), (op', y)]) r

variable {cell : Cell ι types k} {op op' : Operation} {x y : Value}

theorem compares_eq (family : op.family = .comparison) (takes : cell.Takes x) (r : C k) :
    cell.compares op x r = some (Test.acceptsOrder op ((cell.read r).compare? x)) := by
  unfold compares
  rw [verdict?_asking (by simp) (by simpa using family) (by simpa using takes)]
  simp

theorem comparesBoth_eq (family : op.family = .comparison) (family' : op'.family = .comparison)
    (takes : cell.Takes x) (takes' : cell.Takes y) (r : C k) :
    cell.comparesBoth op op' x y r = some (Test.acceptsOrder op ((cell.read r).compare? x) &&
      Test.acceptsOrder op' ((cell.read r).compare? y)) := by
  unfold comparesBoth
  rw [verdict?_asking (by simp) (by simp [family, family']) (by simp [takes, takes'])]
  simp

section Accepts

variable (takes : cell.Takes x) {r : C k}
include takes

theorem compares_lt_iff :
    cell.compares .lt x r = some true ↔ (cell.read r).compare? x = some .lt := by
  rw [compares_eq rfl takes]
  simp [Test.acceptsOrder]

theorem compares_lte_iff : cell.compares .lte x r = some true ↔ (cell.read r).AtMost x := by
  rw [compares_eq rfl takes]
  simp [Test.acceptsOrder, Value.AtMost]

variable (plain : x.kind? ≠ some .f64)
include plain

theorem compares_gt_iff :
    cell.compares .gt x r = some true ↔ x.compare? (cell.read r) = some .lt := by
  rw [compares_eq rfl takes, Value.compare?_swap plain]
  cases x.compare? (cell.read r) with
  | none => simp [Test.acceptsOrder]
  | some order => cases order <;> simp [Test.acceptsOrder]

theorem compares_gte_iff : cell.compares .gte x r = some true ↔ x.AtMost (cell.read r) := by
  rw [compares_eq rfl takes, Value.atMost_iff_compare? plain]
  simp [Test.acceptsOrder]

end Accepts

/-- The comparisons on a cell fit together. -/
structure FormsIntervals (cell : Cell ι types k) : Prop where
  /-- Every comparison answers. -/
  answers : ∀ {op : Operation} {x : Value}, op.family = .comparison → cell.Takes x →
    ∀ r, (cell.compares op x r).isSome = true
  /-- Of `lt`, `eq` and `gt` exactly one accepts a value of the kind of the operand. -/
  trichotomy : ∀ {x : Value} {r : C k} {kind : Kind}, kind ≠ .f64 → cell.Takes x →
    (cell.read r).kind? = some kind → x.kind? = some kind →
      ∃ op ∈ [Operation.lt, .eq, .gt], ∀ op' ∈ [Operation.lt, .eq, .gt],
        cell.compares op' x r = some (decide (op' = op))
  /-- `gte` accepts what `gt` or `eq` does. -/
  gte_iff : ∀ {x : Value}, cell.Takes x → ∀ r, cell.compares .gte x r = some true ↔
    cell.compares .gt x r = some true ∨ cell.compares .eq x r = some true
  /-- `lte` accepts what `lt` or `eq` does. -/
  lte_iff : ∀ {x : Value}, cell.Takes x → ∀ r, cell.compares .lte x r = some true ↔
    cell.compares .lt x r = some true ∨ cell.compares .eq x r = some true
  /-- `gte` and `lte` together accept exactly the values between their operands. -/
  between : ∀ {x y : Value}, x.kind? ≠ some .f64 → cell.Takes x → cell.Takes y → ∀ r,
    cell.comparesBoth .gte .lte x y r = some true ↔
      x.AtMost (cell.read r) ∧ (cell.read r).AtMost y
  /-- A lower operand does not make `gt` or `gte` reject what they accepted. -/
  lower : ∀ {x y : Value}, x.kind? ≠ some .f64 → cell.Takes x → cell.Takes y → x.AtMost y →
    ∀ r, ∀ op ∈ [Operation.gt, .gte], cell.compares op y r = some true →
      cell.compares op x r = some true
  /-- A higher operand does not make `lt` or `lte` reject what they accepted. -/
  raise : ∀ {x y : Value}, x.kind? ≠ some .f64 → cell.Takes x → cell.Takes y → x.AtMost y →
    ∀ r, ∀ op ∈ [Operation.lt, .lte], cell.compares op x r = some true →
      cell.compares op y r = some true
  /-- Only `ne` accepts an absent value, or one of another kind than the operand. -/
  apart : ∀ {x : Value} {r : C k}, cell.Takes x →
    (cell.read r).kind? = none ∨ (cell.read r).kind? ≠ x.kind? →
      (∀ op ∈ [Operation.eq, .gt, .gte, .lt, .lte], cell.compares op x r = some false) ∧
        cell.compares .ne x r = some true

/-- **The comparisons on a cell fit together.** -/
theorem formsIntervals (cell : Cell ι types k) : cell.FormsIntervals where
  answers := by
    intro op x family takes r
    rw [compares_eq family takes]
    rfl
  trichotomy := by
    intro x r kind plain takes hread hx
    have hsome : ((cell.read r).compare? x).isSome = true := by
      rw [Value.compare?_isSome_iff (by simpa [hread] using plain)]
      exact ⟨kind, hread, hx⟩
    obtain ⟨order, horder⟩ := Option.isSome_iff_exists.1 hsome
    obtain ⟨hmem, haccepts⟩ := acceptsOrder_asking order
    refine ⟨.asking order, hmem, fun op hop => ?_⟩
    rw [compares_eq (by revert op; decide) takes, horder, haccepts op hop]
  gte_iff := by
    intro x takes r
    rw [compares_eq rfl takes, compares_eq rfl takes, compares_eq rfl takes]
    simp [Test.acceptsOrder]
  lte_iff := by
    intro x takes r
    rw [compares_eq rfl takes, compares_eq rfl takes, compares_eq rfl takes]
    simp [Test.acceptsOrder]
  between := by
    intro x y plain takes takes' r
    rw [comparesBoth_eq rfl rfl takes takes', Value.atMost_iff_compare? plain]
    simp [Test.acceptsOrder, Value.AtMost]
  lower := by
    intro x y plain takes takes' hle r
    have plain' : y.kind? ≠ some .f64 := by
      obtain ⟨order, horder, -⟩ := Value.atMost_iff.1 hle
      rwa [← Value.kind?_eq_of_compare? horder]
    simp only [List.forall_mem_cons, List.not_mem_nil, false_imp_iff, implies_true, and_true,
      compares_gt_iff takes plain, compares_gt_iff takes' plain', compares_gte_iff takes plain,
      compares_gte_iff takes' plain']
    exact ⟨Value.lt_of_atMost_of_lt plain hle, Value.AtMost.trans plain hle⟩
  raise := by
    intro x y plain takes takes' hle r
    have plain' {order : Ordering} (h : (cell.read r).compare? x = some order) :
        (cell.read r).kind? ≠ some .f64 := by
      rwa [Value.kind?_eq_of_compare? h]
    simp only [List.forall_mem_cons, List.not_mem_nil, false_imp_iff, implies_true, and_true,
      compares_lt_iff takes, compares_lt_iff takes', compares_lte_iff takes,
      compares_lte_iff takes']
    constructor
    · intro h
      exact Value.lt_of_lt_of_atMost (plain' h) h hle
    · intro h
      obtain ⟨order, horder, -⟩ := Value.atMost_iff.1 h
      exact Value.AtMost.trans (plain' horder) h hle
  apart := by
    intro x r takes h
    have hnone := Value.compare?_eq_none h
    constructor
    · intro op hop
      rw [compares_eq (by revert op; decide) takes, hnone]
      revert op
      decide
    · rw [compares_eq rfl takes, hnone]
      rfl

end Cell

/-- **Comparisons fit together.** The order of values holds together, floating-point numbers apart,
and on every field that is read as one value the comparisons ask for the intervals of that order. -/
theorem comparisons_fit :
    (∀ a b c : Value, a.kind? ≠ some .f64 → Value.Coherent a b c) ∧
      ∀ cell : Cell ι types k, cell.FormsIntervals :=
  ⟨fun _ b c plain => Value.coherent plain b c, Cell.formsIntervals⟩

/-- Three halves, with one digit behind the point or with two. -/
def threeHalves : Decimal × Decimal :=
  (⟨false, 15, 1, by decide +kernel, by decide⟩, ⟨false, 150, 2, by decide +kernel, by decide⟩)

/-- A title lies between two letters, and decimals are equal whatever their scales. -/
theorem comparisons_fit_titles :
    (titleCell 0).comparesBoth .gte .lte (.string "M") (.string "P") note = some true ∧
    (∃ op ∈ [Operation.lt, .eq, .gt], ∀ op' ∈ [Operation.lt, .eq, .gt],
      (titleCell 0).compares op' (.string "M") note = some (decide (op' = op))) ∧
    (Value.decimal threeHalves.1).isEqualTo (.decimal threeHalves.2) = true ∧
    (Value.decimal threeHalves.2).isEqualTo (.decimal threeHalves.1) = true := by
  obtain ⟨hvalues, hcells⟩ := @comparisons_fit (Fin 1) (Fin 1) (fun _ => Note) noteTypes 0
  have htitle := hcells (titleCell 0)
  have hlow : (Value.string "M").AtMost (.string "On Lean") := .inl (by decide +kernel)
  have hhigh : (Value.string "On Lean").AtMost (.string "P") := .inl (by decide +kernel)
  have hequal : (Value.decimal threeHalves.1).isEqualTo (.decimal threeHalves.2) = true := by
    decide +kernel
  have htakes (x : Value) : (titleCell 0).Takes x := .inl rfl
  refine ⟨?_, ?_, hequal, ?_⟩
  · exact (htitle.between (by decide) (htakes _) (htakes _) note).2 ⟨hlow, hhigh⟩
  · exact @Cell.FormsIntervals.trichotomy _ _ _ _ _ _ htitle (.string "M") note .string (by decide)
      (htakes _) rfl rfl
  · exact (hvalues _ _ .null (by decide)).equal_symm hequal

end BracketFilter
