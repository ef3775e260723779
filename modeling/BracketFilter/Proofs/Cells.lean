import BracketFilter.Proofs.Negation

/-!
# Fields that are read as one value

* `ReadsOne` — a field is read from the records of a type as one value, or a member of it is.
* `Cell` — such a field, or such a member, as filters of a shape ask about it.
* `Cell.verdict?` — what the filter with one leaf on a cell answers on a record.
* `Cell.verdictOn?` — what it answers if the leaf is what an operation and a raw operand ask for.

Principal results: `Cell.verdict?_eq_some_iff` — a verdict is that of the tests that the operations
of the leaf make on the value of the cell; `Cell.verdictOn?_text` and
`Cell.exists_operand_of_verdictOn?` — the verdicts of text operations and of comparisons.
-/

set_option autoImplicit false

namespace BracketFilter

open BracketFilter.Text

variable {ι κ : Type} {C : κ → Type}

/-! ## Conjunctions of tests -/

theorem forall₂_through_iff {α β γ : Type} {related : α → β → Prop} {f : β → γ} {as : List α}
    {cs : List γ} :
    List.Forall₂ (fun a c => ∃ b, related a b ∧ f b = c) as cs ↔
      ∃ bs, List.Forall₂ related as bs ∧ bs.map f = cs := by
  constructor
  · intro h
    induction h with
    | nil => exact ⟨[], .nil, rfl⟩
    | cons first _ ih =>
      obtain ⟨b, hb, rfl⟩ := first
      obtain ⟨bs, hbs, rfl⟩ := ih
      exact ⟨b :: bs, .cons hb hbs, rfl⟩
  · rintro ⟨bs, hbs, rfl⟩
    rw [List.forall₂_map_right_iff]
    exact hbs.imp fun a b h => ⟨b, h, rfl⟩

theorem map_accepts_all_eq_some_iff {R : Type} {parts : List (PurePredicate R)} {r : R}
    {b : Bool} :
    (Predicate.all parts).map (PurePredicate.accepts · r) = some b ↔
      parts ≠ [] ∧ parts.all (PurePredicate.accepts · r) = b := by
  cases parts with
  | nil => simp [Predicate.all]
  | cons p ps => simp [Predicate.all, PurePredicate.accepts_foldl_and]

/-! ## Cells -/

/-- A field is read from the records of a type as one value, or a member of it is, where a filter
has a leaf of a type on the field. -/
inductive ReadsOne (types : RecordTypes κ C) (k : κ) (name : String) :
    LeafType → Option String → ValueType → (C k → Value) → Prop
  | value {field : RecordField κ C (C k)} {declared found : ValueType} {read : C k → Value}
      (has : (types k).field? name = some field) (reads : field.access = .value found read)
      (fits : declared.kind = found.kind) :
      ReadsOne types k name (.primitive declared) none found read
  | member {field : RecordField κ C (C k)} {composite : Composite} {provided m : String}
      {members : List (MemberAccess (C k))} {found : MemberAccess (C k)}
      (has : (types k).field? name = some field)
      (reads : field.access = .composite provided members)
      (finds : memberAccess? members m = some found) :
      ReadsOne types k name (.composite composite) (some m) found.type found.read

/-- A field of filters of a shape, or a member of it, that is read from the records of a type as one
value. -/
structure Cell (ι : Type) (types : RecordTypes κ C) (k : κ) where
  shape : Shape ι
  name : String
  type : LeafType
  member : Option String
  declared : ValueType
  found : ValueType
  read : C k → Value
  declares : Leaf.operandType? type member = some declared
  reads : ReadsOne types k name type member found read

namespace Cell

variable {types : RecordTypes κ C} {k : κ} (cell : Cell ι types k)

/-- What the filter with one leaf on the cell answers on a record: `none` if it is refused or asks
for nothing. -/
def verdict? (leaf : Leaf) (r : C k) : Option Bool :=
  (compile types k (leaf.alone cell.shape cell.name)).toOption.join.map fun p => p.accepts r

/-- What the filter answers that asks for an operation with a raw operand. -/
def verdictOn? (site : Site) (op : Operation) (raw : String) (r : C k) : Option Bool :=
  match (Leaf.empty cell.type).apply site cell.member op raw with
  | (.ok true, leaf) => cell.verdict? leaf r
  | _ => none

/-- An operation makes a test on the values of the cell. -/
def Tests (applied : Applied) (test : Value → Bool) : Prop :=
  Test.ofApplied? applied = some test ∧
    (cell.member = none ∨ kindConflict? applied cell.found = none)

variable {cell}

/-- The predicates of a leaf on the cell are those of the tests on its value. -/
theorem exists_field (cell : Cell ι types k) :
    ∃ field, (types k).field? cell.name = some field ∧
      ∀ {leaf : Leaf} {parts : List (PurePredicate (C k))}, leaf.type = cell.type →
        (∀ applied ∈ leaf.operations, applied.member = cell.member) →
        (AccessCompiled leaf field.access parts ↔ List.Forall₂ (fun applied p => ∃ test,
          cell.Tests applied test ∧ .ofTest (fun r => test (cell.read r)) = p)
          leaf.operations parts) := by
  obtain ⟨shape, name, type, member, declared, found, read, declares, reads⟩ := cell
  cases reads with
  | @value field declared found read has reads fits =>
    refine ⟨field, has, fun {leaf parts} typed about => ?_⟩
    dsimp only at typed
    simp only [Tests, true_or, and_true, reads]
    constructor
    · intro h
      cases h with
      | value _ _ each => exact each
    · exact .value typed fits
  | @member field composite provided m members found has reads finds =>
    refine ⟨field, has, fun {leaf parts} typed about => ?_⟩
    simp only [Tests, reads, reduceCtorEq, false_or]
    constructor
    · intro h
      cases h with
      | composite each =>
        refine (forall₂_and_mem each).imp ?_
        rintro applied p ⟨hmem, m', found', hm', hfound', hconflict, test, htest, rfl⟩
        cases hm'.symm.trans (about applied hmem)
        cases hfound'.symm.trans finds
        exact ⟨test, ⟨htest, hconflict⟩, rfl⟩
    · intro each
      refine .composite ((forall₂_and_mem each).imp ?_)
      rintro applied p ⟨hmem, test, ⟨htest, hconflict⟩, rfl⟩
      exact ⟨m, found, about applied hmem, finds, hconflict, test, htest, rfl⟩

theorem verdict?_iff_compiled {field : RecordField κ C (C k)}
    (has : (types k).field? cell.name = some field) {leaf : Leaf} {r : C k} {b : Bool} :
    cell.verdict? leaf r = some b ↔ ∃ parts, AccessCompiled leaf field.access parts ∧
      (Predicate.all parts).map (PurePredicate.accepts · r) = some b := by
  unfold verdict?
  constructor
  · intro h
    cases hcompile : compile types k (leaf.alone cell.shape cell.name) with
    | error e =>
      rw [hcompile] at h
      cases h
    | ok made =>
      rw [hcompile] at h
      obtain ⟨parts, hparts, rfl⟩ := (compile_alone_iff has).1 hcompile
      exact ⟨parts, hparts, h⟩
  · rintro ⟨parts, hparts, h⟩
    rw [(compile_alone_iff has).2 ⟨parts, hparts, rfl⟩]
    exact h

/-- **A verdict is that of the tests** that the operations of the leaf make on the value of the
cell. -/
theorem verdict?_eq_some_iff {leaf : Leaf} (typed : leaf.type = cell.type)
    (about : ∀ applied ∈ leaf.operations, applied.member = cell.member) {r : C k} {b : Bool} :
    cell.verdict? leaf r = some b ↔
      ∃ tests, tests ≠ [] ∧ List.Forall₂ cell.Tests leaf.operations tests ∧
        (tests.all fun test => test (cell.read r)) = b := by
  obtain ⟨field, has, compiled⟩ := cell.exists_field
  simp only [verdict?_iff_compiled has, compiled typed about, forall₂_through_iff,
    map_accepts_all_eq_some_iff]
  constructor
  · rintro ⟨_, ⟨tests, htests, rfl⟩, hne, h⟩
    refine ⟨tests, by simpa using hne, htests, ?_⟩
    simpa [Function.comp_def] using h
  · rintro ⟨tests, hne, htests, h⟩
    refine ⟨_, ⟨tests, htests, rfl⟩, by simpa using hne, ?_⟩
    simpa [Function.comp_def] using h

theorem verdict?_single_iff {applied : Applied} (about : applied.member = cell.member) {r : C k}
    {b : Bool} :
    cell.verdict? ⟨cell.type, [applied]⟩ r = some b ↔
      ∃ test, cell.Tests applied test ∧ test (cell.read r) = b := by
  rw [verdict?_eq_some_iff rfl (by simpa using about)]
  simp only [List.forall₂_cons_left_iff, List.forall₂_nil_left_iff]
  constructor
  · rintro ⟨_, -, ⟨test, _, htest, rfl, rfl⟩, h⟩
    exact ⟨test, htest, by simpa using h⟩
  · rintro ⟨test, htest, h⟩
    exact ⟨[test], by simp, ⟨test, [], htest, rfl, rfl⟩, by simpa using h⟩

/-! ## Operations with one operand -/

/-- A comparison tests the order of a value and its operand. -/
theorem ofApplied?_comparison {op : Operation} (family : op.family = .comparison) (x : Value)
    (member : Option String) :
    Test.ofApplied? ⟨op, [x], false, member⟩ =
      some fun value => Test.acceptsOrder op (value.compare? x) := by
  simp [Test.ofApplied?, Test.fitsArity, Operation.isMultiValued, family]

/-- A text operation tests where the lower-case form of its operand stands in that of a text. -/
theorem ofApplied?_text {op : Operation} (family : op.family = .text) (raw : String)
    (member : Option String) :
    ∃ test, Test.ofApplied? ⟨op, [.string raw], false, member⟩ = some test ∧
      ∀ value text, value.text? = some text →
        test value = (Test.finds op (lower raw.toList) (lower text.toList) != op.isNegated) := by
  refine ⟨_, by
    simp only [Test.ofApplied?, Test.fitsArity, Operation.isMultiValued, family]; rfl, ?_⟩
  intro value text htext
  simp [htext, Value.write]

/-- **A text operation** on a cell of texts looks for the lower-case form of its operand in that of
the text, whatever the operand. -/
theorem verdictOn?_text {op : Operation} (family : op.family = .text)
    (string : cell.declared.kind = .string) (site : Site) (raw : String) {r : C k} {text : String}
    (reads : (cell.read r).text? = some text) :
    cell.verdictOn? site op raw r =
      some (Test.finds op (lower raw.toList) (lower text.toList) != op.isNegated) := by
  have happly : (Leaf.empty cell.type).apply site cell.member op raw =
      (.ok true, ⟨cell.type, [⟨op, [.string raw], false, cell.member⟩]⟩) := by
    simp [Leaf.apply, Leaf.extend, Leaf.empty, cell.declares, Leaf.read, family, string,
      Kind.isText]
  obtain ⟨test, htest, hfinds⟩ := ofApplied?_text family raw cell.member
  unfold verdictOn?
  rw [happly]
  refine (verdict?_single_iff rfl).2 ⟨test, ⟨htest, .inr ?_⟩, hfinds _ _ reads⟩
  simp [kindConflict?, family]

theorem exists_operand_of_verdictOn? {op : Operation} (family : op.family = .comparison)
    {site : Site} {raw : String} {r : C k} {b : Bool} (h : cell.verdictOn? site op raw r = some b) :
    ∃ x, site.coercer raw cell.declared.kind = .ok x ∧
      Test.acceptsOrder op ((cell.read r).compare? x) = b := by
  unfold verdictOn? at h
  split at h
  · rename_i leaf happly
    obtain ⟨operand, applied, hoperand, rfl, hasks⟩ := Leaf.exists_answers_of_apply happly
    cases hoperand.symm.trans cell.declares
    cases hasks with
    | @comparison _ _ _ _ x _ hread =>
      obtain ⟨test, ⟨htest, -⟩, hb⟩ := (verdict?_single_iff rfl).1 h
      rw [ofApplied?_comparison family, Option.some.injEq] at htest
      subst htest
      exact ⟨x, hread, hb⟩
    | text family' => exact nomatch family.symm.trans family'
    | membership family' => exact nomatch family.symm.trans family'
  · cases h

variable (cell) in
/-- The leaf with operations on the cell, each with one operand. -/
def asking (asks : List (Operation × Value)) : Leaf :=
  ⟨cell.type, asks.map fun a => ⟨a.1, [a.2], false, cell.member⟩⟩

variable (cell) in
/-- The records take the operand for the cell: the member of a composite is not compared with
operands of another kind. -/
def Takes (x : Value) : Prop :=
  cell.member = none ∨ x.kind? = none ∨ x.kind? = some cell.found.kind

/-- **Comparisons** accept a record exactly if the order of the value of the cell and each operand
is one that they ask for. -/
theorem verdict?_asking {asks : List (Operation × Value)} (some_asked : asks ≠ [])
    (family : ∀ a ∈ asks, a.1.family = .comparison) (takes : ∀ a ∈ asks, cell.Takes a.2)
    (r : C k) :
    cell.verdict? (cell.asking asks) r =
      some (asks.all fun a => Test.acceptsOrder a.1 ((cell.read r).compare? a.2)) := by
  have about : ∀ applied ∈ (cell.asking asks).operations, applied.member = cell.member :=
    List.forall_mem_map.2 fun _ _ => rfl
  rw [verdict?_eq_some_iff rfl about]
  refine ⟨asks.map fun a value => Test.acceptsOrder a.1 (value.compare? a.2),
    by simpa using some_asked, ?_, by simp [Function.comp_def]⟩
  simp only [asking, List.forall₂_map_left_iff, List.forall₂_map_right_iff]
  refine List.forall₂_same.2 fun a ha => ⟨ofApplied?_comparison (family a ha) _ _, ?_⟩
  rcases takes a ha with hwhole | hnone | hsame
  · exact .inl hwhole
  · exact .inr (by simp [kindConflict?, family a ha, hnone])
  · exact .inr (by simp [kindConflict?, family a ha, hsame])

end Cell

end BracketFilter
