import BracketFilter.Compile
import Mathlib.Data.List.Infix

/-!
# What a tree asks of a record

The meaning of a tree, stated by rules and without the compiler.

* `Operation.Meets` — what an operation, or the one that it negates, asks of a value for an operand.
* `Applied.Holds`, `Applied.HoldsAmong` — what an operation with its operands asks of a value, and
  of a collection of values.
* `Contributes` — a tree asks for an operation on the records of a type.
* `Satisfies` — a record has what a tree asks for.

Principal result: `holds_of_ofApplied?` — the test that an operation makes decides what it asks of a
value.
-/

set_option autoImplicit false

namespace BracketFilter

open BracketFilter.Text

/-! ## Operations -/

/-- The texts of an operand and of a value, in lower case, are in a relation. -/
def Value.TextsRelated (related : List Char → List Char → Prop) (operand value : Value) : Prop :=
  ∃ needle text, operand.text? = some needle ∧ value.text? = some text ∧
    related (lower needle.toList) (lower text.toList)

/-- What an operation, or the one that it negates, asks of a value for an operand. -/
def Operation.Meets (op : Operation) (operand value : Value) : Prop :=
  match op with
  | .eq | .ne | .inside | .notInside => value.compare? operand = some .eq
  | .gt => value.compare? operand = some .gt
  | .gte => value.compare? operand = some .gt ∨ value.compare? operand = some .eq
  | .lt => value.compare? operand = some .lt
  | .lte => value.compare? operand = some .lt ∨ value.compare? operand = some .eq
  | .like | .notLike => Value.TextsRelated (fun needle text => needle <:+: text) operand value
  | .startsWith | .notStartsWith =>
    Value.TextsRelated (fun needle text => needle <+: text) operand value
  | .endsWith | .notEndsWith =>
    Value.TextsRelated (fun needle text => needle <:+ text) operand value

/-- Some operand is met by a value, or, if the operation is negated, none. -/
def Applied.Holds (applied : Applied) (value : Value) : Prop :=
  if applied.operation.isNegated then
    ¬ ∃ operand ∈ applied.values, applied.operation.Meets operand value
  else ∃ operand ∈ applied.values, applied.operation.Meets operand value

/-- An operation holds on some value of a collection, or, if it is negated, on all of them. -/
def Applied.HoldsAmong (applied : Applied) (values : List Value) : Prop :=
  if applied.operation.isNegated then ∀ value ∈ values, applied.Holds value
  else ∃ value ∈ values, applied.Holds value

/-! ## Trees -/

section Trees

variable {ι κ : Type} {C : κ → Type}

mutual

/-- A tree asks for an operation on the records of a type. -/
inductive Contributes (types : RecordTypes κ C) : κ → Node ι → Prop
  | mk {k : κ} {node : Node ι} {e : String × Entry ι} (mem : e ∈ node.entries)
      (entry : EntryContributes types k e.1 e.2) : Contributes types k node

/-- An entry asks for an operation on the records of a type, which have its field. -/
inductive EntryContributes (types : RecordTypes κ C) : κ → String → Entry ι → Prop
  | leaf {k : κ} {name : String} {leaf : Leaf} {field : RecordField κ C (C k)} {applied : Applied}
      (has : (types k).field? name = some field) (asked : applied ∈ leaf.operations) :
      EntryContributes types k name (.leaf leaf)
  | nested {k : κ} {name : String} {child : Node ι} {field : RecordField κ C (C k)} {target : κ}
      {read : C k → Option (C target)} (has : (types k).field? name = some field)
      (reads : field.access = .nested target read) (inner : Contributes types target child) :
      EntryContributes types k name (.nested child)
  | list {k : κ} {name : String} {items : List (Node ι)} {item : Node ι}
      {field : RecordField κ C (C k)} {target : κ} {read : C k → List (C target)}
      (has : (types k).field? name = some field) (reads : field.access = .list target read)
      (mem : item ∈ items) (inner : Contributes types target item) :
      EntryContributes types k name (.list items)

end

/-- A leaf holds on a record, as its field is read. -/
inductive LeafHolds {R : Type} (r : R) (leaf : Leaf) : Access κ C R → Prop
  | value {type : ValueType} {read : R → Value}
      (each : ∀ applied ∈ leaf.operations, applied.Holds (read r)) :
      LeafHolds r leaf (.value type read)
  | values {type : ValueType} {read : R → List Value}
      (each : ∀ applied ∈ leaf.operations, applied.HoldsAmong (read r)) :
      LeafHolds r leaf (.values type read)
  | composite {name : String} {members : List (MemberAccess R)}
      (each : ∀ applied ∈ leaf.operations, ∃ member found, applied.member = some member ∧
        memberAccess? members member = some found ∧ applied.Holds (found.read r)) :
      LeafHolds r leaf (.composite name members)

mutual

/-- A record has what every entry of a tree asks for. -/
inductive Satisfies (types : RecordTypes κ C) : (k : κ) → C k → Node ι → Prop
  | mk {k : κ} {r : C k} {node : Node ι}
      (each : ∀ e ∈ node.entries, EntryHolds types k r e.1 e.2) : Satisfies types k r node

/-- A record has what an entry asks for. Parameters, and entries of fields that the records lack,
ask for nothing; so does an embedded filter that contributes nothing. -/
inductive EntryHolds (types : RecordTypes κ C) : (k : κ) → C k → String → Entry ι → Prop
  | scalar {k : κ} {r : C k} {name : String} {value : Value} :
      EntryHolds types k r name (.scalar value)
  | lacking {k : κ} {r : C k} {name : String} {entry : Entry ι}
      (lacks : (types k).field? name = none) : EntryHolds types k r name entry
  | leaf {k : κ} {r : C k} {name : String} {leaf : Leaf} {field : RecordField κ C (C k)}
      (has : (types k).field? name = some field) (holds : LeafHolds r leaf field.access) :
      EntryHolds types k r name (.leaf leaf)
  | silent {k : κ} {r : C k} {name : String} {child : Node ι} {field : RecordField κ C (C k)}
      {target : κ} {read : C k → Option (C target)} (has : (types k).field? name = some field)
      (reads : field.access = .nested target read) (silent : ¬ Contributes types target child) :
      EntryHolds types k r name (.nested child)
  | nested {k : κ} {r : C k} {name : String} {child : Node ι} {field : RecordField κ C (C k)}
      {target : κ} {read : C k → Option (C target)} {s : C target}
      (has : (types k).field? name = some field) (reads : field.access = .nested target read)
      (present : read r = some s) (inner : Satisfies types target s child) :
      EntryHolds types k r name (.nested child)
  | list {k : κ} {r : C k} {name : String} {items : List (Node ι)} {field : RecordField κ C (C k)}
      {target : κ} {read : C k → List (C target)} (has : (types k).field? name = some field)
      (reads : field.access = .list target read)
      (each : ∀ item ∈ items, ItemHolds types target (read r) item) :
      EntryHolds types k r name (.list items)

/-- Some record of a list has the whole of what an entry of a list filter asks for, unless the entry
contributes nothing. -/
inductive ItemHolds (types : RecordTypes κ C) : (k : κ) → List (C k) → Node ι → Prop
  | silent {k : κ} {records : List (C k)} {item : Node ι} (silent : ¬ Contributes types k item) :
      ItemHolds types k records item
  | some {k : κ} {records : List (C k)} {item : Node ι} {s : C k} (mem : s ∈ records)
      (inner : Satisfies types k s item) : ItemHolds types k records item

end

/-! ## The rules read backwards -/

variable {types : RecordTypes κ C} {k : κ} {name : String} {field : RecordField κ C (C k)}
  {target : κ}

theorem contributes_iff {node : Node ι} :
    Contributes types k node ↔ ∃ e ∈ node.entries, EntryContributes types k e.1 e.2 := by
  constructor
  · rintro ⟨mem, entry⟩
    exact ⟨_, mem, entry⟩
  · rintro ⟨e, mem, entry⟩
    exact .mk mem entry

theorem not_entryContributes_of_lacking {entry : Entry ι} (lacks : (types k).field? name = none) :
    ¬ EntryContributes types k name entry := by
  intro h
  cases h with
  | leaf has => exact nomatch lacks.symm.trans has
  | nested has => exact nomatch lacks.symm.trans has
  | list has => exact nomatch lacks.symm.trans has

theorem entryContributes_leaf_iff {leaf : Leaf} (has : (types k).field? name = some field) :
    EntryContributes types k name (.leaf leaf : Entry ι) ↔
      ∃ applied, applied ∈ leaf.operations := by
  constructor
  · rintro ⟨-, asked⟩
    exact ⟨_, asked⟩
  · rintro ⟨applied, asked⟩
    exact .leaf has asked

theorem entryContributes_nested_iff {child : Node ι} {read : C k → Option (C target)}
    (has : (types k).field? name = some field) (reads : field.access = .nested target read) :
    EntryContributes types k name (.nested child) ↔ Contributes types target child := by
  constructor
  · intro h
    cases h with
    | nested has' reads' inner =>
      cases has.symm.trans has'
      cases reads.symm.trans reads'
      exact inner
  · exact .nested has reads

theorem entryContributes_list_iff {items : List (Node ι)} {read : C k → List (C target)}
    (has : (types k).field? name = some field) (reads : field.access = .list target read) :
    EntryContributes types k name (.list items) ↔
      ∃ item ∈ items, Contributes types target item := by
  constructor
  · intro h
    cases h with
    | list has' reads' mem inner =>
      cases has.symm.trans has'
      cases reads.symm.trans reads'
      exact ⟨_, mem, inner⟩
  · rintro ⟨item, mem, inner⟩
    exact .list has reads mem inner

theorem satisfies_iff {r : C k} {node : Node ι} :
    Satisfies types k r node ↔ ∀ e ∈ node.entries, EntryHolds types k r e.1 e.2 :=
  ⟨fun ⟨each⟩ => each, .mk⟩

theorem entryHolds_leaf_iff {r : C k} {leaf : Leaf} (has : (types k).field? name = some field) :
    EntryHolds types k r name (.leaf leaf : Entry ι) ↔ LeafHolds r leaf field.access := by
  constructor
  · intro h
    cases h with
    | lacking lacks => exact nomatch lacks.symm.trans has
    | leaf has' holds =>
      cases has.symm.trans has'
      exact holds
  · exact .leaf has

theorem entryHolds_nested_iff {r : C k} {child : Node ι} {read : C k → Option (C target)}
    (has : (types k).field? name = some field) (reads : field.access = .nested target read) :
    EntryHolds types k r name (.nested child) ↔
      (Contributes types target child → ∃ s, read r = some s ∧ Satisfies types target s child) := by
  constructor
  · intro h contributes
    cases h with
    | lacking lacks => exact nomatch lacks.symm.trans has
    | silent has' reads' silent =>
      cases has.symm.trans has'
      cases reads.symm.trans reads'
      exact absurd contributes silent
    | nested has' reads' present inner =>
      cases has.symm.trans has'
      cases reads.symm.trans reads'
      exact ⟨_, present, inner⟩
  · intro h
    by_cases contributes : Contributes types target child
    · obtain ⟨s, present, inner⟩ := h contributes
      exact .nested has reads present inner
    · exact .silent has reads contributes

/-- Each entry of a list filter asks for a record of its own choice, if it contributes something. -/
theorem entryHolds_list_iff {r : C k} {items : List (Node ι)} {read : C k → List (C target)}
    (has : (types k).field? name = some field) (reads : field.access = .list target read) :
    EntryHolds types k r name (.list items) ↔ ∀ item ∈ items,
      Contributes types target item → ∃ s ∈ read r, Satisfies types target s item := by
  constructor
  · intro h item hitem contributes
    cases h with
    | lacking lacks => exact nomatch lacks.symm.trans has
    | list has' reads' each =>
      cases has.symm.trans has'
      cases reads.symm.trans reads'
      cases each item hitem with
      | silent silent => exact absurd contributes silent
      | some mem inner => exact ⟨_, mem, inner⟩
  · intro h
    refine .list has reads fun item hitem => ?_
    by_cases contributes : Contributes types target item
    · obtain ⟨s, mem, inner⟩ := h item hitem contributes
      exact .some mem inner
    · exact .silent contributes

end Trees

/-! ## Tests decide operations -/

theorem occursIn_iff {needle text : List Char} :
    Test.occursIn needle text = true ↔ needle <:+: text := by
  induction text with
  | nil => rw [Test.occursIn, List.isEmpty_iff, List.infix_nil]
  | cons c rest ih =>
    rw [Test.occursIn, Bool.or_eq_true, List.isPrefixOf_iff_prefix, ih, List.infix_cons_iff]

/-- An order is what a comparison asks for exactly if the value meets the operand, or, for a negated
comparison, does not. -/
theorem acceptsOrder_iff {op : Operation} (h : op.family = .comparison) (operand value : Value) :
    Test.acceptsOrder op (value.compare? operand) = true ↔
      if op.isNegated then ¬ op.Meets operand value else op.Meets operand value := by
  cases op <;> simp [Operation.family] at h <;>
    simp [Test.acceptsOrder, Operation.Meets, Operation.isNegated]

theorem finds_iff {op : Operation} (h : op.family = .text) {operand value : Value}
    {needle : String} (hneedle : operand.text? = some needle) :
    (match value.text? with
      | some text => Test.finds op (lower needle.toList) (lower text.toList)
      | none => false) = true ↔ op.Meets operand value := by
  cases htext : value.text? with
  | none =>
    cases op <;> simp [Operation.family] at h <;>
      simp [Operation.Meets, Value.TextsRelated, htext]
  | some text =>
    cases op <;> simp [Operation.family] at h <;>
      simp [Operation.Meets, Value.TextsRelated, htext, hneedle, Test.finds, occursIn_iff]

/-- What has been found, or not found by a negated operation, is what the operation asks for. -/
theorem Applied.holds_iff_of_found {applied : Applied} {value : Value} {found : Bool}
    (h : found = true ↔ ∃ operand ∈ applied.values, applied.operation.Meets operand value) :
    (found != applied.operation.isNegated) = true ↔ applied.Holds value := by
  unfold Holds
  rw [← h]
  cases applied.operation.isNegated <;> cases found <;> simp

/-- An operation whose operands fit it has one operand, unless it is a membership. -/
theorem values_eq_of_fitsArity {applied : Applied} (h : Test.fitsArity applied = true)
    (single : applied.operation.family ≠ .membership) : ∃ operand, applied.values = [operand] := by
  have hmulti : applied.operation.isMultiValued = false := by
    simpa [Operation.isMultiValued] using single
  simp only [Test.fitsArity, hmulti, Bool.false_eq_true, if_false, Bool.and_eq_true,
    beq_iff_eq] at h
  exact List.length_eq_one_iff.1 h.2

/-- **The test that an operation makes decides what it asks of a value.** -/
theorem holds_of_ofApplied? {applied : Applied} {test : Value → Bool}
    (h : Test.ofApplied? applied = some test) (value : Value) :
    test value = true ↔ applied.Holds value := by
  simp only [Test.ofApplied?] at h
  split at h
  · rename_i harity
    cases hfamily : applied.operation.family with
    | comparison =>
      obtain ⟨operand, hvalues⟩ := values_eq_of_fitsArity harity (by simp [hfamily])
      simp only [hfamily, hvalues, List.head?_cons, Option.map_some, Option.some.injEq] at h
      rw [← h, acceptsOrder_iff hfamily]
      simp only [Applied.Holds, hvalues, List.mem_singleton, exists_eq_left]
    | text =>
      obtain ⟨operand, hvalues⟩ := values_eq_of_fitsArity harity (by simp [hfamily])
      simp only [hfamily, hvalues, List.head?_cons, Option.bind_some, Option.map_eq_some_iff] at h
      obtain ⟨needle, hneedle, rfl⟩ := h
      refine Applied.holds_iff_of_found ?_
      simp only [hvalues, List.mem_singleton, exists_eq_left]
      exact finds_iff hfamily hneedle
    | membership =>
      simp only [hfamily, Option.some.injEq] at h
      rw [← h]
      refine Applied.holds_iff_of_found ?_
      simp only [List.any_eq_true, Value.isEqualTo, beq_iff_eq]
      cases hop : applied.operation <;> simp [hop, Operation.family] at hfamily <;>
        simp [Operation.Meets]
  · cases h

theorem holdsAmong_of_ofApplied? {applied : Applied} {test : Value → Bool}
    (h : Test.ofApplied? applied = some test) (values : List Value) :
    Test.onElements applied.operation test values = true ↔ applied.HoldsAmong values := by
  unfold Test.onElements Applied.HoldsAmong
  split
  · simp only [List.all_eq_true, holds_of_ofApplied? h]
  · simp only [List.any_eq_true, holds_of_ofApplied? h]

end BracketFilter
