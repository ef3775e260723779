import BracketFilter.Proofs.Readings

/-!
# Negated operations are complements

* `Operation.negation?` — the negated operation beside an operation that has one.
* `Leaf.alone` — the filter that asks for what a leaf does and for nothing else.

What is asked of one value is negated by a flag of the operation, and what is asked of a collection
by asking it of all values in place of some. `Applied.holds_negated_iff` and
`Applied.holdsAmong_negated_iff` say that both give the opposite, and `leafHolds_negated_iff` that
they do so however the field is read.

Principal result: `negation_complements` — where an operation and its negation are appended with one
operand and compile, every record is accepted by exactly one of the two.
-/

set_option autoImplicit false

namespace BracketFilter

variable {ι κ : Type} {C : κ → Type}

/-! ## Pairs of operations -/

/-- The negated operation beside an operation that has one. -/
def Operation.negation? : Operation → Option Operation
  | .eq => some .ne
  | .like => some .notLike
  | .startsWith => some .notStartsWith
  | .endsWith => some .notEndsWith
  | .inside => some .notInside
  | _ => none

section Pair

variable {op negated : Operation} (pair : op.negation? = some negated)
include pair

theorem Operation.isNegated_of_negation? :
    negated.isNegated = true ∧ op.isNegated = false := by
  cases op <;> cases pair <;> decide

theorem Operation.family_of_negation? : negated.family = op.family := by
  cases op <;> cases pair <;> rfl

theorem Operation.meets_of_negation? (operand value : Value) :
    negated.Meets operand value ↔ op.Meets operand value := by
  cases op <;> cases pair <;> exact Iff.rfl

/-! ## Operands -/

theorem Answers.negation {coercer : Coercer} {member : Option String} {kind : Kind} {raw : String}
    {applied : Applied}
    (h : Answers coercer (.operation member kind op) raw (.operation applied)) :
    Answers coercer (.operation member kind negated) raw
      (.operation { applied with operation := negated }) := by
  have hfamily := Operation.family_of_negation? pair
  cases h with
  | comparison family read => exact .comparison (hfamily.trans family) read
  | text family isText => exact .text (hfamily.trans family) isText
  | membership family listed read => exact .membership (hfamily.trans family) listed read

/-! ## What is asked of values -/

/-- The negation holds on a value exactly if the operation does not. -/
theorem Applied.holds_negated_iff {applied : Applied} (asks : applied.operation = op)
    (value : Value) :
    Applied.Holds { applied with operation := negated } value ↔ ¬ applied.Holds value := by
  subst asks
  obtain ⟨hnegated, hplain⟩ := Operation.isNegated_of_negation? pair
  unfold Applied.Holds
  rw [if_pos hnegated, if_neg (by simp [hplain])]
  simp only [Operation.meets_of_negation? pair]

theorem Applied.holdsAmong_negated_iff {applied : Applied} (asks : applied.operation = op)
    (values : List Value) :
    Applied.HoldsAmong { applied with operation := negated } values ↔
      ¬ applied.HoldsAmong values := by
  subst asks
  obtain ⟨hnegated, hplain⟩ := Operation.isNegated_of_negation? pair
  unfold Applied.HoldsAmong
  rw [if_pos hnegated, if_neg (by simp [hplain])]
  simp only [Applied.holds_negated_iff pair rfl, not_exists, not_and]

/-- However a field is read, the negation holds on a record exactly if the operation does not. -/
theorem leafHolds_negated_iff {R : Type} {r : R} {type : LeafType} {applied : Applied}
    (asks : applied.operation = op) {access : Access κ C R} {parts : List (PurePredicate R)}
    (compiled : AccessCompiled ⟨type, [applied]⟩ access parts) :
    LeafHolds r ⟨type, [{ applied with operation := negated }]⟩ access ↔
      ¬ LeafHolds r ⟨type, [applied]⟩ access := by
  cases compiled with
  | value =>
    simp only [leafHolds_value_iff, List.mem_singleton, forall_eq]
    exact Applied.holds_negated_iff pair asks _
  | values =>
    simp only [leafHolds_values_iff, List.mem_singleton, forall_eq]
    exact Applied.holdsAmong_negated_iff pair asks _
  | composite each =>
    -- Both name the member that was found, so that both read one value.
    obtain ⟨_, _, ⟨member, found, hmember, hfound, -⟩, -⟩ := List.forall₂_cons_left_iff.1 each
    simp only [leafHolds_composite_iff, List.mem_singleton, forall_eq, hmember, Option.some.injEq,
      exists_and_left, exists_eq_left', hfound]
    exact Applied.holds_negated_iff pair asks _

end Pair

/-! ## Filters of one leaf -/

/-- The filter that asks for what a leaf does and for nothing else. -/
def Leaf.alone (shape : Shape ι) (name : String) (leaf : Leaf) : Node ι :=
  .mk shape [(name, .leaf leaf)]

theorem AccessCompiled.length_eq {R : Type} {leaf : Leaf} {access : Access κ C R}
    {parts : List (PurePredicate R)} (h : AccessCompiled leaf access parts) :
    parts.length = leaf.operations.length := by
  cases h with
  | value _ _ each => exact each.length_eq.symm
  | values _ _ each => exact each.length_eq.symm
  | composite each => exact each.length_eq.symm

section Alone

variable {types : RecordTypes κ C} {k : κ} {shape : Shape ι} {name : String}
  {field : RecordField κ C (C k)} (has : (types k).field? name = some field)
include has

theorem compile_alone_iff {leaf : Leaf} {compiled : Option (PurePredicate (C k))} :
    compile types k (leaf.alone shape name) = .ok compiled ↔
      ∃ parts, AccessCompiled leaf field.access parts ∧ Predicate.all parts = compiled := by
  rw [compile_ok_iff]
  simp only [Leaf.alone, Node.entries, List.forall₂_cons_left_iff, List.forall₂_nil_left_iff]
  constructor
  · rintro ⟨_, ⟨parts, _, entry, rfl, rfl⟩, rfl⟩
    cases entry with
    | lacking lacks => cases lacks.symm.trans has
    | leaf has' compiled =>
      cases has.symm.trans has'
      exact ⟨parts, compiled, by simp⟩
  · rintro ⟨parts, compiled, rfl⟩
    exact ⟨[parts], ⟨parts, [], .leaf has compiled, rfl, rfl⟩, by simp⟩

theorem exists_of_compile_single {type : LeafType} {applied : Applied}
    {compiled : Option (PurePredicate (C k))}
    (h : compile types k (Leaf.alone shape name ⟨type, [applied]⟩) = .ok compiled) :
    ∃ p, compiled = some p ∧ AccessCompiled ⟨type, [applied]⟩ field.access [p] ∧
      ∀ r, p.accepts r = true ↔ LeafHolds r ⟨type, [applied]⟩ field.access := by
  obtain ⟨parts, hparts, rfl⟩ := (compile_alone_iff has).1 h
  obtain ⟨p, rfl⟩ := List.length_eq_one_iff.1 hparts.length_eq
  refine ⟨p, rfl, hparts, fun r => ?_⟩
  rw [← hparts.partsMean.accepts r, List.forall_mem_singleton]

end Alone

theorem Leaf.exists_answers_of_apply {site : Site} {type : LeafType} {member : Option String}
    {op : Operation} {raw : String} {leaf : Leaf}
    (h : (empty type).apply site member op raw = (.ok true, leaf)) :
    ∃ operand applied, operandType? type member = some operand ∧ leaf = ⟨type, [applied]⟩ ∧
      Answers site.coercer (.operation member operand.kind op) raw (.operation applied) := by
  rw [apply_eq, extend_eq_appended_iff] at h
  obtain ⟨applied, hanswer, rfl⟩ := h
  obtain ⟨operand, hoperand, hasks⟩ := exists_answers_of_answer hanswer
  exact ⟨operand, applied, hoperand, rfl, hasks⟩

/-- **Negated operations are complements.** Where an operation and its negation are appended to a
leaf with one raw operand, and the filters on a field of the records compile, the filter with the
negation accepts exactly the records that the other rejects, whatever the field holds. -/
theorem negation_complements {types : RecordTypes κ C} {k : κ} {shape : Shape ι} {name : String}
    {field : RecordField κ C (C k)} {site : Site} {type : LeafType} {member : Option String}
    {op negated : Operation} {raw : String} {positive negative : Leaf}
    {compiled compiled' : Option (PurePredicate (C k))} (pair : op.negation? = some negated)
    (has : (types k).field? name = some field)
    (appended : (Leaf.empty type).apply site member op raw = (.ok true, positive))
    (appended' : (Leaf.empty type).apply site member negated raw = (.ok true, negative))
    (compiles : compile types k (positive.alone shape name) = .ok compiled)
    (compiles' : compile types k (negative.alone shape name) = .ok compiled') :
    ∃ p n, compiled = some p ∧ compiled' = some n ∧
      ∀ r, n.accepts r = true ↔ p.accepts r = false := by
  obtain ⟨operand, applied, hoperand, rfl, hasks⟩ := Leaf.exists_answers_of_apply appended
  obtain ⟨operand', applied', hoperand', rfl, hasks'⟩ := Leaf.exists_answers_of_apply appended'
  cases hoperand.symm.trans hoperand'
  cases hasks'.unique (hasks.negation pair)
  obtain ⟨p, rfl, hp, haccepts⟩ := exists_of_compile_single has compiles
  obtain ⟨n, rfl, -, haccepts'⟩ := exists_of_compile_single has compiles'
  refine ⟨p, n, rfl, rfl, fun r => ?_⟩
  rw [haccepts' r, leafHolds_negated_iff pair hasks.operation_eq hp, ← haccepts r,
    Bool.not_eq_true]

/-- Where tags of notes are asked for. -/
def tagSite : Site := ⟨"tags", .standard, 2⟩

/-- The leaf that asks for tags of a list, or for none of them. -/
def tagLeaf (op : Operation) : Leaf :=
  ⟨.primitive ⟨.string, false⟩, [⟨op, [.string "x", .string "new"], true, none⟩]⟩

/-- A note without tags is accepted by the negation. -/
theorem negation_complements_notes :
    Operation.negation? .inside = some .notInside ∧
    (∀ op ∈ [Operation.inside, .notInside],
      (Leaf.empty (.primitive ⟨.string, false⟩)).apply tagSite none op "x,new" =
        (.ok true, tagLeaf op)) ∧
    ∃ p n, compile noteTypes 0 ((tagLeaf .inside).alone (noteShapes 0) "tags") = .ok (some p) ∧
      compile noteTypes 0 ((tagLeaf .notInside).alone (noteShapes 0) "tags") = .ok (some n) ∧
      (∀ r, n.accepts r = true ↔ p.accepts r = false) ∧
      p.accepts note = true ∧ n.accepts { note with tags := [] } = true := by
  have happlied : ∀ op ∈ [Operation.inside, .notInside],
      (Leaf.empty (.primitive ⟨.string, false⟩)).apply tagSite none op "x,new" =
        (.ok true, tagLeaf op) := by
    decide +kernel
  have hpositive : (compile noteTypes 0 ((tagLeaf .inside).alone (noteShapes 0) "tags")).map
      (Option.map fun p => (p.accepts note, p.accepts { note with tags := [] })) =
        .ok (some (true, false)) := by
    decide +kernel
  have hnegative : (compile noteTypes 0 ((tagLeaf .notInside).alone (noteShapes 0) "tags")).map
      Option.isSome = .ok true := by
    decide +kernel
  obtain ⟨compiled, hcompiled, hsome⟩ := map_ok_iff.1 hpositive
  obtain ⟨compiled', hcompiled', -⟩ := map_ok_iff.1 hnegative
  obtain ⟨p, n, rfl, rfl, hopposite⟩ := negation_complements rfl rfl (happlied _ (by decide))
    (happlied _ (by decide)) hcompiled hcompiled'
  simp only [Option.map_some, Option.some.injEq, Prod.mk.injEq] at hsome
  exact ⟨rfl, happlied, p, n, hcompiled, hcompiled', hopposite, hsome.1, (hopposite _).2 hsome.2⟩

end BracketFilter
