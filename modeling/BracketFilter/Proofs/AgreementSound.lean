import BracketFilter.Agreement
import BracketFilter.Proofs.Answers
import BracketFilter.Proofs.CompileMeaning

/-!
# A check at the start is enough

* `Coercer.Faithful` — a coercer gives absent values or values of the kind that it is asked for.
* `AccessFits`, `FieldAgrees`, `ShapeAgrees` — what a comparison of a field has found, where a set
  of pairs tells which embedded shapes and record types are taken to agree.
* `closed_of_agreeFrom` — a search that ends without an error has found a set of pairs that agree
  as long as the pairs of the set do.

Principal result: `compiles_of_agree` — if a shape and a record type agree, each tree that is bound
for the shape compiles on the records of the type.
-/

set_option autoImplicit false

namespace BracketFilter

open BracketFilter.Text

variable {ι κ : Type} {C : κ → Type}

/-! ## Coercers -/

/-- The coercer gives absent values or values of the kind that it is asked for. -/
def Coercer.Faithful (coercer : Coercer) : Prop :=
  ∀ raw kind value, coercer raw kind = .ok value → value.kind? = none ∨ value.kind? = some kind

theorem Coercer.kind?_of_read? {kind : Kind} {raw : String} {value : Value}
    (h : read? kind raw = some value) : value.kind? = some kind := by
  cases kind <;> simp only [read?, Option.map_eq_some_iff, Option.some.injEq] at h
  case string => exact h ▸ rfl
  all_goals
    obtain ⟨_, -, rfl⟩ := h
    rfl

theorem Coercer.faithful_standard : standard.Faithful := by
  intro raw kind value h
  unfold standard at h
  split at h
  · rename_i hread
    cases h
    exact .inr (kind?_of_read? hread)
  · cases h

/-! ## Operations that are bound compile -/

section Operations

variable {coercer : Coercer} {member : Option String} {kind : Kind} {op : Operation} {raw : String}
  {applied : Applied} (h : Answers coercer (.operation member kind op) raw (.operation applied))

include h

theorem Answers.member_eq : applied.member = member := by
  cases h <;> rfl

theorem Answers.exists_test : ∃ test, Test.ofApplied? applied = some test := by
  rw [← Option.isSome_iff_exists]
  cases h with
  | comparison family read =>
    simp [Test.ofApplied?, Test.fitsArity, Operation.isMultiValued, family]
  | text family isText =>
    simp [Test.ofApplied?, Test.fitsArity, Operation.isMultiValued, family, Value.text?,
      Value.isNull, Value.kind?]
  | membership family listed read =>
    simp [Test.ofApplied?, Test.fitsArity, Operation.isMultiValued, family, listed]

/-- The operands of an operation are not of another kind than the one that they were read for. -/
theorem Answers.kindConflict?_eq_none (faithful : coercer.Faithful) {type : ValueType}
    (hkind : kind = type.kind) : kindConflict? applied type = none := by
  subst hkind
  have unchanged {value : Value} {text : String} (hread : coercer text type.kind = .ok value) :
      value.kind?.filter (· ≠ type.kind) = none := by
    rcases faithful _ _ _ hread with hnone | hsome
    · rw [hnone]
      rfl
    · rw [hsome]
      simp
  unfold kindConflict?
  cases h with
  | comparison family read =>
    rw [if_neg (by simp [family])]
    simpa using unchanged read
  | text family isText => rw [if_pos family]
  | @membership member kind op raw values family listed read =>
    rw [if_neg (by simp [family])]
    cases values with
    | nil => exact absurd rfl listed
    | cons first rest =>
      obtain ⟨token, _, hfirst, -, -⟩ := List.forall₂_cons_right_iff.1 read
      simpa using unchanged hfirst

end Operations

/-- Each operation of a leaf that is bound was asked for, on an operand of the leaf. -/
theorem exists_answers_of_mem {site : Site} {type : LeafType}
    {requests : List (Option String × Operation × String)} {answers : List (Option Applied)}
    (h : List.Forall₂ (fun r a => Leaf.answer site type r = .ok a) requests answers)
    {applied : Applied} (hmem : applied ∈ answers.filterMap id) :
    ∃ member operand op raw, Leaf.operandType? type member = some operand ∧
      Answers site.coercer (.operation member operand.kind op) raw (.operation applied) := by
  obtain ⟨answer, hanswer, rfl⟩ := List.mem_filterMap.1 hmem
  obtain ⟨⟨member, op, raw⟩, -, hread⟩ := exists_of_mem_forall₂ h.flip hanswer
  unfold Leaf.answer at hread
  split at hread
  · cases hread
  · rename_i operand hoperand
    refine ⟨member, operand, op, raw, hoperand, ?_⟩
    rcases Leaf.read_ok_cases hread with ⟨_, hsome, hasks⟩ | ⟨hnone, -⟩
    · cases hsome
      exact hasks
    · cases hnone

theorem exists_test_of_mem {site : Site} {type : LeafType}
    {requests : List (Option String × Operation × String)} {answers : List (Option Applied)}
    (h : List.Forall₂ (fun r a => Leaf.answer site type r = .ok a) requests answers)
    {applied : Applied} (hmem : applied ∈ answers.filterMap id) :
    ∃ test, Test.ofApplied? applied = some test := by
  obtain ⟨member, operand, op, raw, -, hasks⟩ := exists_answers_of_mem h hmem
  exact hasks.exists_test

/-! ## What a comparison has found -/

/-- The role of a field of a filter fits what a field of a record is read as, and demands that the
shape and the record type that are embedded in the two agree. -/
inductive AccessFits {R : Type} : Role ι → Access κ C R → Option (ι × κ) → Prop
  | scalar {type : ValueType} {access : Access κ C R} : AccessFits (.scalar type) access none
  | value {declared found : ValueType} {read : R → Value} (fits : declared.kind = found.kind) :
      AccessFits (.leaf (.primitive declared)) (.value found read) none
  | values {declared found : ValueType} {read : R → List Value}
      (fits : declared.kind = found.kind) :
      AccessFits (.leaf (.primitive declared)) (.values found read) none
  | composite {declared : Composite} {name : String} {members : List (MemberAccess R)}
      (fits : ∀ m ∈ declared.members, ∃ found, memberAccess? members m.name = some found ∧
        m.type.kind = found.type.kind) :
      AccessFits (.leaf (.composite declared)) (.composite name members) none
  | nested {shape : ι} {target : κ} {read : R → Option (C target)} :
      AccessFits (.nested shape) (.nested target read) (some (shape, target))
  | list {shape : ι} {target : κ} {read : R → List (C target)} :
      AccessFits (.list shape) (.list target read) (some (shape, target))

theorem fits_of_compareTypes {field : String} {declared found : ValueType}
    {demand : Option (ι × κ)} (h : compareTypes field declared found = .ok demand) :
    demand = none ∧ declared.kind = found.kind := by
  unfold compareTypes at h
  split at h
  · rename_i hcompatible
    cases h
    exact ⟨rfl, by simpa [ValueType.compatible] using hcompatible⟩
  · cases h

theorem fits_of_compareMembers {R : Type} {field : String} {provided : List (MemberAccess R)}
    {declared : List Member} (h : compareMembers field provided declared = .ok ()) :
    ∀ m ∈ declared, ∃ found, memberAccess? provided m.name = some found ∧
      m.type.kind = found.type.kind := by
  induction declared with
  | nil => simp
  | cons first rest ih =>
    rw [compareMembers] at h
    split at h
    · cases h
    · rename_i found hfound
      split at h
      · rename_i hcompatible
        rw [List.forall_mem_cons]
        exact ⟨⟨found, hfound, by simpa [ValueType.compatible] using hcompatible⟩, ih h⟩
      · cases h

theorem accessFits_of_compareAccess {R : Type} {field : FieldShape ι} {access : Access κ C R}
    {demand : Option (ι × κ)} (h : compareAccess field access = .ok demand) :
    AccessFits field.role access demand := by
  obtain ⟨name, role⟩ := field
  simp only [compareAccess] at h
  split at h
  · cases h
    exact .scalar
  · obtain ⟨rfl, hkind⟩ := fits_of_compareTypes h
    exact .value hkind
  · obtain ⟨rfl, hkind⟩ := fits_of_compareTypes h
    exact .values hkind
  · obtain ⟨_, hmembers, rfl⟩ := map_ok_iff.1 h
    exact .composite (fits_of_compareMembers hmembers)
  · cases h
    exact .nested
  · cases h
    exact .list
  · cases h

/-- A field of a filter was compared with a record type without an error, and what it demands is in
a set of pairs. -/
def FieldAgrees (types : RecordTypes κ C) (closed : ι × κ → Prop) (field : FieldShape ι) (k : κ) :
    Prop :=
  ∃ demand, compareField field (types k) = .ok demand ∧ ∀ pair, demand = some pair → closed pair

/-- Each field of a shape agrees with a record type, given the pairs of a set. -/
def ShapeAgrees (types : RecordTypes κ C) (closed : ι × κ → Prop) (shape : Shape ι) (k : κ) :
    Prop := ∀ field ∈ shape.fields, FieldAgrees types closed field k

/-- A field that agrees fits the field of the records with its name, if they have one. -/
theorem FieldAgrees.accessFits {types : RecordTypes κ C} {closed : ι × κ → Prop}
    {field : FieldShape ι} {k : κ} (h : FieldAgrees types closed field k)
    {found : RecordField κ C (C k)} (has : (types k).field? field.name = some found) :
    ∃ demand, AccessFits field.role found.access demand ∧
      ∀ pair, demand = some pair → closed pair := by
  obtain ⟨demand, hcompare, hclosed⟩ := h
  simp only [compareField, has] at hcompare
  exact ⟨demand, accessFits_of_compareAccess hcompare, hclosed⟩

/-! ## What agrees compiles -/

section Compiles

variable {types : RecordTypes κ C} {closed : ι × κ → Prop} {b : Binder} {shapes : ι → Shape ι}
  {q : Query}

theorem exists_accessCompiled (faithful : b.coercer.Faithful) {R : Type} {type : LeafType}
    {access : Access κ C R} {demand : Option (ι × κ)} {path : Path}
    {answers : List (Option Applied)} (fits : AccessFits (.leaf type) access demand)
    (hanswers : List.Forall₂ (fun r a => Leaf.answer (b.site path) type r = .ok a)
      (Binder.leafRequests q path type) answers) :
    ∃ parts, AccessCompiled ⟨type, answers.filterMap id⟩ access parts := by
  cases fits with
  | @value declared found read fits =>
    have each : ∀ applied ∈ answers.filterMap id, ∃ p : PurePredicate R, ∃ test,
        Test.ofApplied? applied = some test ∧ .ofTest (fun r => test (read r)) = p := by
      intro applied hmem
      obtain ⟨test, htest⟩ := exists_test_of_mem hanswers hmem
      exact ⟨_, test, htest, rfl⟩
    obtain ⟨parts, hparts⟩ := exists_forall₂_of_forall_mem each
    exact ⟨parts, .value rfl fits hparts⟩
  | @values declared found read fits =>
    have each : ∀ applied ∈ answers.filterMap id, ∃ p : PurePredicate R, ∃ test,
        Test.ofApplied? applied = some test ∧
          .ofTest (fun r => Test.onElements applied.operation test (read r)) = p := by
      intro applied hmem
      obtain ⟨test, htest⟩ := exists_test_of_mem hanswers hmem
      exact ⟨_, test, htest, rfl⟩
    obtain ⟨parts, hparts⟩ := exists_forall₂_of_forall_mem each
    exact ⟨parts, .values rfl fits hparts⟩
  | @composite declared name members fits =>
    have each : ∀ applied ∈ answers.filterMap id, ∃ p : PurePredicate R, ∃ member found,
        applied.member = some member ∧ memberAccess? members member = some found ∧
          kindConflict? applied found.type = none ∧ ∃ test, Test.ofApplied? applied = some test ∧
          .ofTest (fun r => test (found.read r)) = p := by
      intro applied hmem
      obtain ⟨member, operand, op, raw, hoperand, hasks⟩ := exists_answers_of_mem hanswers hmem
      obtain ⟨test, htest⟩ := hasks.exists_test
      cases member with
      | none => cases hoperand
      | some name =>
        obtain ⟨m, hm, rfl⟩ := Option.map_eq_some_iff.1 hoperand
        obtain ⟨found, hfound, hkind⟩ := fits m (List.mem_of_find?_eq_some hm)
        have hsame : lowerAscii m.name = lowerAscii name := by
          simpa [sameName_iff] using List.find?_some hm
        have hlookup : memberAccess? members name = memberAccess? members m.name := by
          simp only [memberAccess?, sameName, hsame]
        exact ⟨_, name, found, hasks.member_eq, hlookup.trans hfound,
          hasks.kindConflict?_eq_none faithful hkind, test, htest, rfl⟩
    obtain ⟨parts, hparts⟩ := exists_forall₂_of_forall_mem each
    exact ⟨parts, .composite hparts⟩

/-- A node compiles on the records of each type that its shape agrees with. -/
def CompilesWhereAgreed (types : RecordTypes κ C) (closed : ι × κ → Prop) (shape : Shape ι)
    (node : Node ι) : Prop :=
  ∀ k, ShapeAgrees types closed shape k → ∃ compiled, compile types k node = .ok compiled

theorem exists_entryCompiled (faithful : b.coercer.Faithful)
    (family : ∀ pair, closed pair → ShapeAgrees types closed (shapes pair.1) pair.2) {here : Path}
    {depth : Nat} {field : FieldShape ι} {entry : Entry ι} {k : κ}
    (agrees : FieldAgrees types closed field k)
    (bound : Binder.FieldBound b shapes q (fun shape _ _ => CompilesWhereAgreed types closed shape)
      here depth field.role (some entry)) :
    ∃ parts, EntryCompiled types (CompilesTo types) k field.name entry parts := by
  cases hhas : (types k).field? field.name with
  | none => exact ⟨[], .lacking hhas⟩
  | some found =>
    obtain ⟨demand, hfits, hdemand⟩ := agrees.accessFits hhas
    generalize field.role = role at bound hfits
    cases bound.entryBound with
    | scalar found read => exact ⟨[], .scalar⟩
    | leaf answered asks =>
      obtain ⟨parts, hparts⟩ := exists_accessCompiled faithful hfits answered
      exact ⟨parts, .leaf hhas hparts⟩
    | nested reached within builds asks =>
      generalize hreads : found.access = access at hfits
      cases hfits with
      | @nested shape target read =>
        obtain ⟨p, hp⟩ := builds target (family _ (hdemand _ rfl))
        exact ⟨_, .nested hhas hreads hp⟩
    | @list shape items reached within short length builds asks =>
      generalize hreads : found.access = access at hfits
      cases hfits with
      | @list _ target read =>
        have each : ∀ item ∈ items, ∃ p, CompilesTo types target item p := by
          intro item hitem
          obtain ⟨i, hi, rfl⟩ := List.getElem_of_mem hitem
          exact builds i hi target (family _ (hdemand _ rfl))
        obtain ⟨ps, hps⟩ := exists_forall₂_of_forall_mem each
        exact ⟨_, .list hhas hreads hps⟩

/-- **A node that is bound for a shape compiles where the shape agrees**, if the pairs that are
taken to agree do. -/
theorem compilesWhereAgreed_of_build (faithful : b.coercer.Faithful)
    (family : ∀ pair, closed pair → ShapeAgrees types closed (shapes pair.1) pair.2)
    {shape : Shape ι} {path : Path} {depth : Nat} {node : Node ι}
    (built : b.buildNode shapes q shape path depth = .ok node) :
    CompilesWhereAgreed types closed shape node := by
  refine Binder.buildNode_induct (motive := fun shape _ _ node =>
    CompilesWhereAgreed types closed shape node) ?_ built
  intro shape path depth given hgiven k hagrees
  have each : ∀ e ∈ given.filterMap id, ∃ parts,
      EntryCompiled types (CompilesTo types) k e.1 e.2 parts := by
    intro e he
    obtain ⟨_, hmem, rfl⟩ := List.mem_filterMap.1 he
    obtain ⟨field, -, hfield, entry, hbound, hentry⟩ :=
      exists_of_mem_forall₂ (forall₂_and_mem hgiven).flip hmem
    obtain ⟨entry, rfl, rfl⟩ := Option.map_eq_some_iff.1 hentry.symm
    exact exists_entryCompiled faithful family (hagrees field hfield) hbound
  obtain ⟨pss, hpss⟩ := exists_forall₂_of_forall_mem each
  exact ⟨_, compile_ok_iff.2 ⟨pss, hpss, rfl⟩⟩

end Compiles

/-! ## What the search has found -/

section Search

variable {n m : Nat} {D : Fin m → Type} {shapes : Fin n → Shape (Fin n)}
  {types : RecordTypes (Fin m) D}

/-- **A search that ends without an error has found a set of pairs that agree as long as the pairs
of the set do.** The set holds the pairs that were met before, and the fields that waited agree. -/
theorem closed_of_agreeFrom {met : List (Fin n × Fin m)}
    {waiting : List (FieldShape (Fin n) × Fin m)}
    (h : agreeFrom shapes types met waiting = .ok ()) :
    ∃ closed : Fin n × Fin m → Prop, (∀ pair ∈ met, closed pair) ∧
      (∀ x ∈ waiting, FieldAgrees types closed x.1 x.2) ∧
      ∀ pair, closed pair → pair ∉ met → ShapeAgrees types closed (shapes pair.1) pair.2 := by
  -- The closed set is that of the pairs that have been met when the search ends.
  induction met, waiting using agreeFrom.induct shapes types with
  | case1 met => exact ⟨(· ∈ met), by simp, by simp, fun pair hin hout => absurd hin hout⟩
  | case2 met field target waiting e hcompare =>
    rw [agreeFrom, hcompare] at h
    cases h
  | case3 met field target waiting hcompare ih =>
    rw [agreeFrom, hcompare] at h
    obtain ⟨closed, hmet, hwaiting, hclosed⟩ := ih h
    refine ⟨closed, hmet, ?_, hclosed⟩
    rw [List.forall_mem_cons]
    exact ⟨⟨none, hcompare, by simp⟩, hwaiting⟩
  | case4 met field target waiting pair hcompare hold ih =>
    rw [agreeFrom, hcompare] at h
    simp only [dif_pos hold] at h
    obtain ⟨closed, hmet, hwaiting, hclosed⟩ := ih h
    refine ⟨closed, hmet, ?_, hclosed⟩
    rw [List.forall_mem_cons]
    refine ⟨⟨some pair, hcompare, ?_⟩, hwaiting⟩
    rintro _ ⟨⟩
    exact hmet pair hold
  | case5 met field target waiting pair hcompare hnew ih =>
    rw [agreeFrom, hcompare] at h
    simp only [dif_neg hnew] at h
    obtain ⟨closed, hmet, hwaiting, hclosed⟩ := ih h
    rw [List.forall_mem_cons] at hmet
    refine ⟨closed, hmet.2, ?_, ?_⟩
    · rw [List.forall_mem_cons]
      refine ⟨⟨some pair, hcompare, ?_⟩, fun x hx => hwaiting x (List.mem_append_right _ hx)⟩
      rintro _ ⟨⟩
      exact hmet.1
    · intro other hother hnotmet
      by_cases hsame : other = pair
      · subst hsame
        intro f hf
        exact hwaiting (f, other.2) (List.mem_append_left _ (List.mem_map.2 ⟨f, hf, rfl⟩))
      · exact hclosed other hother (by simp [hsame, hnotmet])

/-- **A check at the start is enough.** If a shape and a record type agree, each tree that is bound
for the shape compiles on the records of the type. -/
theorem compiles_of_agree {shape : Fin n} {target : Fin m} {b : Binder} {q : Query} {path : Path}
    {node : Node (Fin n)} (faithful : b.coercer.Faithful)
    (agrees : agree shapes types shape target = .ok ())
    (built : b.build shapes (shapes shape) q path = .ok node) :
    ∃ compiled, compile types target node = .ok compiled := by
  obtain ⟨closed, hmet, hwaiting, hclosed⟩ := closed_of_agreeFrom agrees
  have hroot : ShapeAgrees types closed (shapes shape) target := by
    intro field hfield
    exact hwaiting (field, target) (List.mem_map.2 ⟨field, hfield, rfl⟩)
  have family : ∀ pair, closed pair → ShapeAgrees types closed (shapes pair.1) pair.2 := by
    intro pair hpair
    by_cases hsame : pair = (shape, target)
    · subst hsame
      exact hroot
    · exact hclosed pair hpair (by simpa using hsame)
  exact compilesWhereAgreed_of_build faithful family built target hroot

theorem compiles_of_agree_notes :
    Coercer.standard.Faithful ∧ agree noteShapes noteTypes 0 0 = .ok () ∧
      ∃ node, Binder.build {} noteShapes (noteShapes 0) (Query.ofPairs
          [("parts[0][answers][author][name][sw]", "a"), ("colour", "red"), ("tags[nin]", "x,y")])
          [] = .ok node ∧
        node.size = 3 ∧ ∃ compiled, compile noteTypes 0 node = .ok compiled := by
  have hdemands : (noteShapes 0).fields.map (fun field => compareField field (noteTypes 0)) =
      [.ok none, .ok none, .ok none, .ok none, .ok (some (0, 0)), .ok (some (0, 0))] := by
    decide +kernel
  have hagrees : agree noteShapes noteTypes 0 0 = .ok () := by
    simp only [noteShapes, List.map_cons, List.map_nil, List.cons.injEq] at hdemands
    simp [agree, agreeFrom, noteShapes, hdemands]
  have hsize : (Binder.build {} noteShapes (noteShapes 0) (Query.ofPairs
      [("parts[0][answers][author][name][sw]", "a"), ("colour", "red"), ("tags[nin]", "x,y")])
      []).map Node.size = .ok 3 := by
    decide +kernel
  obtain ⟨node, hnode, hthree⟩ := map_ok_iff.1 hsize
  exact ⟨Coercer.faithful_standard, hagrees, node, hnode, hthree,
    compiles_of_agree Coercer.faithful_standard hagrees hnode⟩

end Search

end BracketFilter
