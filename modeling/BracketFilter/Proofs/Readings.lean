import BracketFilter.Proofs.AgreementSound
import BracketFilter.Proofs.Coverage
import BracketFilter.Proofs.KindsAgree
import BracketFilter.Proofs.OneKey

/-!
# What one key asks of a record

* `Reading` — what a path reads of the records of a type: values of a kind, in the collections that
  are reached on the way through embedded records and lists.
* `Access.reading?`, `readingAt?` — the reading of a path, from a field and from a record type.
* `Reading.Meets` — some collection that is reached has a value that passes a test, or, if the test
  is negated, none that fails.

Principal results: `asksAlong_of_build` — where the tree of one key contributes, a record satisfies
it exactly if the reading of the path meets the test of the operation; `Reading.meets_exists` and
`Reading.meets_forall` — what is asked for in several ways is asked for in one of them, or, where no
list is crossed and the operation is negated, in all of them.
-/

set_option autoImplicit false

namespace BracketFilter

open BracketFilter.Text

variable {ι κ : Type} {C : κ → Type}

/-! ## Readings -/

/-- What a path reads of records: values of a kind, in the collections that are reached. A single
value is a collection of its own. -/
structure Reading (R : Type) where
  kind : Kind
  groups : R → List (List Value)

namespace Reading

variable {R S : Type}

/-- The reading of the records that are embedded in a record. -/
def within (embedded : R → List S) (inner : Reading S) : Reading R :=
  ⟨inner.kind, fun r => (embedded r).flatMap inner.groups⟩

/-- Some collection that is reached has a value that passes the test; or, if the test is negated,
all of its values pass. -/
def Meets (reading : Reading R) (negated : Bool) (test : Value → Prop) (r : R) : Prop :=
  ∃ group ∈ reading.groups r, if negated then ∀ v ∈ group, test v else ∃ v ∈ group, test v

theorem meets_within {embedded : R → List S} {inner : Reading S} {negated : Bool}
    {test : Value → Prop} {r : R} :
    (within embedded inner).Meets negated test r ↔
      ∃ s ∈ embedded r, inner.Meets negated test s := by
  unfold Meets within
  simp only [List.mem_flatMap]
  constructor
  · rintro ⟨group, ⟨s, hs, hgroup⟩, htest⟩
    exact ⟨s, hs, group, hgroup, htest⟩
  · rintro ⟨s, hs, group, hgroup, htest⟩
    exact ⟨group, ⟨s, hs, hgroup⟩, htest⟩

theorem meets_single {kind : Kind} {read : R → Value} {negated : Bool} {test : Value → Prop}
    {r : R} : (⟨kind, fun r => [[read r]]⟩ : Reading R).Meets negated test r ↔ test (read r) := by
  unfold Meets
  cases negated <;> simp

/-- **A value that passes one of several tests is asked for by one of them**, through any number of
embedded records and lists. -/
theorem meets_exists {τ : Type} {reading : Reading R} {ts : List τ} {test : τ → Value → Prop}
    {r : R} : reading.Meets false (fun v => ∃ t ∈ ts, test t v) r ↔
      ∃ t ∈ ts, reading.Meets false (test t) r := by
  unfold Meets
  simp only [Bool.false_eq_true, if_false]
  constructor
  · rintro ⟨group, hgroup, v, hv, t, ht, htest⟩
    exact ⟨t, ht, group, hgroup, v, hv, htest⟩
  · rintro ⟨t, ht, group, hgroup, v, hv, htest⟩
    exact ⟨group, hgroup, v, hv, t, ht, htest⟩

/-- **Where one collection at most is reached, values that pass several tests are asked for by each
of them.** -/
theorem meets_forall {τ : Type} {reading : Reading R} {ts : List τ} {test : τ → Value → Prop}
    {r : R} (single : (reading.groups r).length ≤ 1) (nonempty : ts ≠ []) :
    reading.Meets true (fun v => ∀ t ∈ ts, test t v) r ↔
      ∀ t ∈ ts, reading.Meets true (test t) r := by
  unfold Meets
  simp only [if_true]
  constructor
  · rintro ⟨group, hgroup, hall⟩ t ht
    exact ⟨group, hgroup, fun v hv => hall v hv t ht⟩
  · intro h
    obtain ⟨first, hfirst⟩ := List.exists_mem_of_ne_nil ts nonempty
    obtain ⟨group, hgroup, -⟩ := h first hfirst
    refine ⟨group, hgroup, fun v hv t ht => ?_⟩
    obtain ⟨group', hgroup', hall⟩ := h t ht
    have hsame : group' = group := by
      obtain ⟨only, honly⟩ := List.length_eq_one_iff.1
        (Nat.le_antisymm single (List.length_pos_of_mem hgroup))
      rw [honly, List.mem_singleton] at hgroup hgroup'
      rw [hgroup, hgroup']
    exact hall v (hsame ▸ hv)

end Reading

/-- The reading of a path behind a field. Of a list, the first entry of the filter is meant, which
stands for some record of the list. -/
def Access.reading? (types : RecordTypes κ C) :
    Path → {R : Type} → Access κ C R → Option (Reading R)
  | [], _, .value type read => some ⟨type.kind, fun r => [[read r]]⟩
  | [], _, .values type read => some ⟨type.kind, fun r => [read r]⟩
  | [.field name], _, .composite _ members =>
    (memberAccess? members name).map fun found => ⟨found.type.kind, fun r => [[found.read r]]⟩
  | .field name :: rest, _, .nested target read =>
    ((types target).field? name).bind fun field =>
      (reading? types rest field.access).map (Reading.within fun r => (read r).toList)
  | .index 0 :: .field name :: rest, _, .list target read =>
    ((types target).field? name).bind fun field =>
      (reading? types rest field.access).map (Reading.within read)
  | _, _, _ => none

/-- The reading of a path on the records of a type. -/
def readingAt? (types : RecordTypes κ C) (k : κ) : Path → Option (Reading (C k))
  | .field name :: rest =>
    ((types k).field? name).bind fun field => field.access.reading? types rest
  | _ => none

section Readings

variable {types : RecordTypes κ C}

theorem Access.reading?_nested {R : Type} {target : κ} {read : R → Option (C target)}
    (name : String) (rest : Path) :
    (Access.nested target read : Access κ C R).reading? types (.field name :: rest) =
      ((types target).field? name).bind fun field =>
        (field.access.reading? types rest).map (Reading.within fun r => (read r).toList) := by
  cases rest <;> rfl

/-- Apart from lists, one collection at most is reached. -/
theorem Access.length_groups_le_one {rest : Path} {R : Type} {access : Access κ C R}
    {reading : Reading R} (h : access.reading? types rest = some reading)
    (noIndex : ∀ i, Segment.index i ∉ rest) (r : R) : (reading.groups r).length ≤ 1 := by
  induction rest generalizing R with
  | nil =>
    cases access with
    | value type read =>
      cases h
      exact Nat.le_refl 1
    | values type read =>
      cases h
      exact Nat.le_refl 1
    | composite name members => cases h
    | nested target read => cases h
    | list target read => cases h
  | cons segment rest ih =>
    cases segment with
    | index i => exact absurd List.mem_cons_self (noIndex i)
    | field name =>
      cases access with
      | value type read => cases rest <;> cases h
      | values type read => cases rest <;> cases h
      | composite composite members =>
        cases rest with
        | nil =>
          obtain ⟨found, -, rfl⟩ := Option.map_eq_some_iff.1 h
          exact Nat.le_refl 1
        | cons next rest => cases h
      | nested target read =>
        rw [reading?_nested] at h
        obtain ⟨field, -, hfield⟩ := Option.bind_eq_some_iff.1 h
        obtain ⟨inner, hinner, rfl⟩ := Option.map_eq_some_iff.1 hfield
        have hrest : ∀ i, Segment.index i ∉ rest :=
          fun i hi => noIndex i (List.mem_cons_of_mem _ hi)
        cases hread : read r with
        | none => simp [Reading.within, hread]
        | some s => simpa [Reading.within, hread] using ih hinner hrest s
      | list target read => cases rest <;> cases h

theorem length_groups_le_one {k : κ} {path : Path} {reading : Reading (C k)}
    (h : readingAt? types k path = some reading) (noIndex : ∀ i, Segment.index i ∉ path)
    (r : C k) : (reading.groups r).length ≤ 1 := by
  cases path with
  | nil => cases h
  | cons segment rest =>
    cases segment with
    | index i => cases h
    | field name =>
      obtain ⟨field, -, hfield⟩ := Option.bind_eq_some_iff.1 h
      exact Access.length_groups_le_one hfield (fun i hi => noIndex i (List.mem_cons_of_mem _ hi)) r

theorem sameName_lowerAscii (name : String) : sameName (lowerAscii name) name = true := by
  rw [sameName_iff, lowerAscii_lowerAscii]

theorem memberAccess?_congr {R : Type} (members : List (MemberAccess R)) {name name' : String}
    (same : lowerAscii name = lowerAscii name') :
    memberAccess? members name = memberAccess? members name' := by
  simp only [memberAccess?, sameName, same]

theorem readingAt?_named {k : κ} {name : String} {field : RecordField κ C (C k)}
    (has : (types k).field? name = some field) (rest : Path) :
    readingAt? types k (.named name :: rest) = field.access.reading? types rest := by
  show ((types k).field? (lowerAscii name)).bind _ = _
  rw [RecordType.field?_congr _ (sameName_lowerAscii name), has, Option.bind_some]

/-- The reading of an embedded record is one of the record, a field further up. -/
theorem readingAt?_nested {k target : κ} {name : String} {field : RecordField κ C (C k)}
    {read : C k → Option (C target)} (has : (types k).field? name = some field)
    (reads : field.access = .nested target read) {rest : Path} {reading : Reading (C target)}
    (h : readingAt? types target rest = some reading) :
    readingAt? types k (.named name :: rest) =
      some (Reading.within (fun r => (read r).toList) reading) := by
  rw [readingAt?_named has, reads]
  cases rest with
  | nil => cases h
  | cons segment rest =>
    cases segment with
    | index i => cases h
    | field next =>
      obtain ⟨field, hfield, hreading⟩ := Option.bind_eq_some_iff.1 h
      rw [Access.reading?_nested, hfield, Option.bind_some, hreading, Option.map_some]

theorem readingAt?_list {k target : κ} {name : String} {field : RecordField κ C (C k)}
    {read : C k → List (C target)} (has : (types k).field? name = some field)
    (reads : field.access = .list target read) {rest : Path} {reading : Reading (C target)}
    (h : readingAt? types target rest = some reading) :
    readingAt? types k (.named name :: .index 0 :: rest) = some (Reading.within read reading) := by
  rw [readingAt?_named has, reads]
  cases rest with
  | nil => cases h
  | cons segment rest =>
    cases segment with
    | index i => cases h
    | field next =>
      obtain ⟨field, hfield, hreading⟩ := Option.bind_eq_some_iff.1 h
      show (((types target).field? next).bind fun field =>
        (field.access.reading? types rest).map (Reading.within read)) = _
      rw [hfield, Option.bind_some, hreading, Option.map_some]

end Readings

/-! ## Coercers that give values of the kind that is asked for -/

/-- The coercer gives values of the kind that it is asked for, and no absent ones. -/
def Coercer.Strict (coercer : Coercer) : Prop :=
  ∀ raw kind value, coercer raw kind = .ok value → value.kind? = some kind

theorem Coercer.strict_standard : standard.Strict := fun _ _ _ h => kind?_of_standard h

theorem Coercer.Strict.faithful {coercer : Coercer} (strict : coercer.Strict) : coercer.Faithful :=
  fun raw kind value h => .inr (strict raw kind value h)

section Operations

variable {coercer : Coercer} {member : Option String} {kind : Kind} {op : Operation} {raw : String}
  {applied : Applied} (h : Answers coercer (.operation member kind op) raw (.operation applied))

include h

theorem Answers.operation_eq : applied.operation = op := by
  cases h <;> rfl

/-- The operands of a comparison or a membership are of the kind of a type exactly if they were read
for that kind. -/
theorem Answers.kindConflict?_eq_none_iff (strict : coercer.Strict) (noText : op.family ≠ .text)
    {type : ValueType} : kindConflict? applied type = none ↔ kind = type.kind := by
  constructor
  · intro free
    have agree {values : List Value} {value : Value} {text : String}
        (first : values.head? = some value) (read : coercer text kind = .ok value)
        (none : (values.head?.bind Value.kind?).filter (· ≠ type.kind) = none) :
        kind = type.kind := by
      simpa [first, strict _ _ _ read] using none
    unfold kindConflict? at free
    rw [if_neg (by rw [h.operation_eq]; exact noText)] at free
    cases h with
    | comparison family read => exact agree rfl read free
    | text family isText => exact absurd family noText
    | membership family listed read =>
      obtain ⟨first, rest, rfl⟩ := List.exists_cons_of_ne_nil listed
      obtain ⟨token, _, hfirst, -, -⟩ := List.forall₂_cons_right_iff.1 read
      exact agree rfl hfirst free
  · exact h.kindConflict?_eq_none strict.faithful

end Operations

/-! ## Leaves -/

theorem Leaf.exists_answers_of_answer {site : Site} {type : LeafType} {member : Option String}
    {op : Operation} {raw : String} {applied : Applied}
    (h : answer site type (member, op, raw) = .ok (some applied)) :
    ∃ operand, operandType? type member = some operand ∧
      Answers site.coercer (.operation member operand.kind op) raw (.operation applied) := by
  unfold answer at h
  split at h
  · cases h
  · rename_i operand hoperand
    refine ⟨operand, hoperand, ?_⟩
    rcases read_ok_cases h with ⟨_, hsome, hasks⟩ | ⟨hnone, -⟩
    · cases hsome
      exact hasks
    · cases hnone

section LeafHolds

variable {R : Type} {r : R} {leaf : Leaf} {type : ValueType}

theorem leafHolds_value_iff {read : R → Value} :
    LeafHolds r leaf (.value type read : Access κ C R) ↔
      ∀ applied ∈ leaf.operations, applied.Holds (read r) := ⟨fun | .value each => each, .value⟩

theorem leafHolds_values_iff {read : R → List Value} :
    LeafHolds r leaf (.values type read : Access κ C R) ↔
      ∀ applied ∈ leaf.operations, applied.HoldsAmong (read r) :=
  ⟨fun | .values each => each, .values⟩

theorem leafHolds_composite_iff {name : String} {members : List (MemberAccess R)} :
    LeafHolds r leaf (.composite name members : Access κ C R) ↔
      ∀ applied ∈ leaf.operations, ∃ member found, applied.member = some member ∧
        memberAccess? members member = some found ∧ applied.Holds (found.read r) :=
  ⟨fun | .composite each => each, .composite⟩

end LeafHolds

/-- Each operation of a leaf is asked for by one key, on an operand that the path leads to. -/
def Leaf.AskedBy (coercer : Coercer) (here path : Path) (op : Operation) (raw : String)
    (leaf : Leaf) : Prop :=
  ∀ applied ∈ leaf.operations, (applied.member, path) ∈ operands here leaf.type ∧
    ∃ operand, operandType? leaf.type applied.member = some operand ∧
      Answers coercer (.operation applied.member operand.kind op) raw (.operation applied)

/-- The answers to one key make up a leaf that it asks for. -/
theorem Leaf.askedBy_of_answers {site : Site} {here path : Path} {type : LeafType} {op : Operation}
    {raw : String} {answers : List (Option Applied)}
    (answered : List.Forall₂ (fun r a => answer site type r = .ok a)
      ((addressed here path type).map fun member => (member, op, raw)) answers) :
    (⟨type, answers.filterMap id⟩ : Leaf).AskedBy site.coercer here path op raw := by
  intro applied hmem
  obtain ⟨answer, hanswer, rfl⟩ := List.mem_filterMap.1 hmem
  obtain ⟨request, hrequest, hread⟩ := exists_of_mem_forall₂ answered.flip hanswer
  obtain ⟨member, hmember, rfl⟩ := List.mem_map.1 hrequest
  obtain ⟨operand, hoperand, hasks⟩ := exists_answers_of_answer hread
  obtain rfl := hasks.member_eq
  exact ⟨mem_addressed_iff.1 hmember, operand, hoperand, hasks⟩

/-- The operation decides a test on the values of each kind, whenever its operands are read for the
kind. -/
def Decides (coercer : Coercer) (op : Operation) (raw : String) (test : Kind → Value → Prop) :
    Prop :=
  ∀ member kind applied, Answers coercer (.operation member kind op) raw (.operation applied) →
    ∀ v, applied.Holds v ↔ test kind v

theorem Decides.congr {coercer : Coercer} {op : Operation} {raw : String}
    {test test' : Kind → Value → Prop} (decides : Decides coercer op raw test)
    (same : ∀ kind v, test kind v ↔ test' kind v) : Decides coercer op raw test' :=
  fun member kind applied h v => (decides member kind applied h v).trans (same kind v)

section OneKey

variable {types : RecordTypes κ C} {coercer : Coercer} {here path : Path} {op : Operation}
  {raw : String} {test : Kind → Value → Prop}

theorem Decides.holdsAmong_iff (decides : Decides coercer op raw test) {member : Option String}
    {kind : Kind} {applied : Applied}
    (h : Answers coercer (.operation member kind op) raw (.operation applied))
    (values : List Value) : applied.HoldsAmong values ↔
      if op.isNegated then ∀ v ∈ values, test kind v else ∃ v ∈ values, test kind v := by
  unfold Applied.HoldsAmong
  rw [h.operation_eq]
  simp only [decides _ _ _ h]

/-- What one key asks of a leaf without members, it asks at the path of the leaf. -/
theorem Leaf.AskedBy.of_primitive {leaf : Leaf} (askedBy : leaf.AskedBy coercer here path op raw)
    {declared : ValueType} (primitive : leaf.type = .primitive declared) {applied : Applied}
    (asked : applied ∈ leaf.operations) : path = here ∧
      Answers coercer (.operation applied.member declared.kind op) raw (.operation applied) := by
  obtain ⟨hoperand, operand, htyped, hanswers⟩ := askedBy applied asked
  rw [primitive] at hoperand htyped
  obtain ⟨hnone, hpath⟩ := Prod.mk.inj (List.mem_singleton.1 hoperand)
  rw [hnone] at htyped
  obtain rfl : declared = operand := Option.some.inj htyped
  exact ⟨hpath, hanswers⟩

/-- What one key asks of a member, it asks at the path of the member and by the test for the kind
that the records have. -/
theorem Leaf.AskedBy.of_member (strict : coercer.Strict) (noText : op.family ≠ .text)
    (decides : Decides coercer op raw test) {leaf : Leaf}
    (askedBy : leaf.AskedBy coercer here path op raw) {applied : Applied}
    (asked : applied ∈ leaf.operations) {member : String} (named : applied.member = some member)
    {type : ValueType} (free : kindConflict? applied type = none) :
    path = here ++ [.named member] ∧ ∀ v, applied.Holds v ↔ test type.kind v := by
  obtain ⟨hoperand, operand, -, hanswers⟩ := askedBy applied asked
  have hkind := (hanswers.kindConflict?_eq_none_iff strict noText).1 free
  refine ⟨?_, fun v => ?_⟩
  · rw [named] at hoperand
    generalize leaf.type = leafType at hoperand
    cases leafType with
    | primitive type => cases List.mem_singleton.1 hoperand
    | composite type =>
      obtain ⟨m, -, hm⟩ := List.mem_map.1 hoperand
      cases hm
      rfl
  · rw [decides _ _ _ hanswers, hkind]

theorem forall_mem_iff_of_each {α : Type} {xs : List α} {x : α} (mem : x ∈ xs) {p : α → Prop}
    {q : Prop} (same : ∀ a ∈ xs, p a ↔ q) : (∀ a ∈ xs, p a) ↔ q :=
  ⟨fun h => (same x mem).1 (h x mem), fun hq a ha => (same a ha).2 hq⟩

/-- **A leaf that one key asks for holds exactly if its reading meets the test.** -/
theorem exists_reading_of_leaf (strict : coercer.Strict) (noText : op.family ≠ .text)
    (decides : Decides coercer op raw test) {leaf : Leaf}
    (askedBy : leaf.AskedBy coercer here path op raw) {R : Type} {access : Access κ C R}
    {parts : List (PurePredicate R)} (compiled : AccessCompiled leaf access parts)
    {applied : Applied} (asked : applied ∈ leaf.operations) :
    ∃ rest reading, path = here ++ rest ∧ (∀ i, Segment.index i ∉ rest) ∧
      access.reading? types rest = some reading ∧
      ∀ r, LeafHolds r leaf access ↔ reading.Meets op.isNegated (test reading.kind) r := by
  cases compiled with
  | @value found declared read parts primitive fits each =>
    obtain ⟨hpath, -⟩ := askedBy.of_primitive primitive asked
    refine ⟨[], _, by rw [hpath, List.append_nil], by simp, rfl, fun r => ?_⟩
    rw [Reading.meets_single, leafHolds_value_iff]
    refine forall_mem_iff_of_each asked fun a ha => ?_
    rw [decides _ _ _ (askedBy.of_primitive primitive ha).2, fits]
  | @values found declared read parts primitive fits each =>
    obtain ⟨hpath, -⟩ := askedBy.of_primitive primitive asked
    refine ⟨[], _, by rw [hpath, List.append_nil], by simp, rfl, fun r => ?_⟩
    rw [leafHolds_values_iff]
    simp only [Reading.Meets, List.mem_singleton, exists_eq_left]
    refine forall_mem_iff_of_each asked fun a ha => ?_
    rw [decides.holdsAmong_iff (askedBy.of_primitive primitive ha).2, fits]
  | @composite name members parts each =>
    obtain ⟨-, -, member, found, hmember, hfound, hfree, -⟩ := exists_of_mem_forall₂ each asked
    obtain ⟨hpath, -⟩ := askedBy.of_member strict noText decides asked hmember hfree
    refine ⟨[.named member], ⟨found.type.kind, fun r => [[found.read r]]⟩, hpath,
      by simp [Segment.named], ?_, fun r => ?_⟩
    · show (memberAccess? members (lowerAscii member)).map _ = _
      rw [memberAccess?_congr members (lowerAscii_lowerAscii member), hfound, Option.map_some]
    · rw [Reading.meets_single, leafHolds_composite_iff]
      refine forall_mem_iff_of_each asked fun a ha => ?_
      obtain ⟨-, -, member', found', hmember', hfound', hfree', -⟩ := exists_of_mem_forall₂ each ha
      obtain ⟨hpath', htest⟩ := askedBy.of_member strict noText decides ha hmember' hfree'
      -- Both members have the name that the path ends in, so that they are read alike.
      have hsegments := List.append_cancel_left (hpath'.symm.trans hpath)
      have hsame : lowerAscii member' = lowerAscii member :=
        Segment.field.inj (List.cons.inj hsegments).1
      have hagain : memberAccess? members member' = some found := by
        rw [memberAccess?_congr members hsame, hfound]
      cases hagain.symm.trans hfound'
      rw [← htest]
      constructor
      · rintro ⟨member'', found'', hmember'', hfound'', holds⟩
        cases hmember'.symm.trans hmember''
        cases hagain.symm.trans hfound''
        exact holds
      · exact fun holds => ⟨member', found, hmember', hagain, holds⟩

/-- What a node, or an entry, at `here` asks of records is what the reading of the rest of a path
meets, which has indices only if the path reaches a list. -/
def AsksAlong (types : RecordTypes κ C) (op : Operation) (test : Kind → Value → Prop)
    (shapes : ι → Shape ι) (shape : Shape ι) (here path : Path) (k : κ) (holds : C k → Prop) :
    Prop :=
  ∃ rest reading, path = here ++ rest ∧ readingAt? types k rest = some reading ∧
    (∀ r, holds r ↔ reading.Meets op.isNegated (test reading.kind) r) ∧
    (¬ ReachesList shapes path shape here → ∀ i, Segment.index i ∉ rest)

theorem entryHolds_of_silent {k : κ} {name : String} {entry : Entry ι}
    {parts : List (PurePredicate (C k))}
    (compiled : EntryCompiled types (CompilesTo types) k name entry parts)
    (silent : ¬ EntryContributes types k name entry) (r : C k) :
    EntryHolds types k r name entry := by
  have hmeans := (compiled.imp fun _ _ _ _ hp => means_of_compile hp).partsMean
  rw [← hmeans.accepts r, hmeans.empty.2 silent]
  exact List.forall_mem_nil _

section Steps

variable {shapes : ι → Shape ι} {shape : Shape ι} {k target : κ}

/-- A node asks for what its entries do, if one of them contributes. -/
theorem asksAlong_of_entries {node : Node ι} {compiled : Option (PurePredicate (C k))}
    (compiles : compile types k node = .ok compiled) (contributes : Contributes types k node)
    (each : ∀ e ∈ node.entries, EntryContributes types k e.1 e.2 →
      AsksAlong types op test shapes shape here path k fun r => EntryHolds types k r e.1 e.2) :
    AsksAlong types op test shapes shape here path k fun r => Satisfies types k r node := by
  obtain ⟨e, he, hcontributes⟩ := contributes_iff.1 contributes
  obtain ⟨rest, reading, hpath, hreading, hholds, hindex⟩ := each e he hcontributes
  refine ⟨rest, reading, hpath, hreading, fun r => ?_, hindex⟩
  rw [← hholds r]
  show Satisfies types k r node ↔ EntryHolds types k r e.1 e.2
  rw [satisfies_iff]
  refine ⟨fun hall => hall e he, fun hself e' he' => ?_⟩
  by_cases hcontributes' : EntryContributes types k e'.1 e'.2
  · -- The other entry has the same reading.
    obtain ⟨rest', reading', hpath', hreading', hholds', -⟩ := each e' he' hcontributes'
    cases List.append_cancel_left (hpath'.symm.trans hpath)
    cases hreading.symm.trans hreading'
    exact (hholds' r).2 ((hholds r).1 hself)
  · obtain ⟨pss, hpss, -⟩ := compile_ok_iff.1 compiles
    obtain ⟨parts, -, hparts⟩ := exists_of_mem_forall₂ hpss he'
    exact entryHolds_of_silent hparts hcontributes' r

variable {field : FieldShape ι} {inner : ι} {found : RecordField κ C (C k)} {child : Node ι}
  (mem : field ∈ shape.fields) (has : (types k).field? field.name = some found)

include mem has

/-- An embedded filter asks of the embedded record what its tree asks for. -/
theorem AsksAlong.nested {read : C k → Option (C target)} (role : field.role = .nested inner)
    (reads : found.access = .nested target read) (contributes : Contributes types target child)
    (h : AsksAlong types op test shapes (shapes inner) (here ++ [.named field.name]) path target
      fun s => Satisfies types target s child) :
    AsksAlong types op test shapes shape here path k fun r =>
      EntryHolds types k r field.name (.nested child) := by
  obtain ⟨rest, reading, hpath, hreading, hholds, hindex⟩ := h
  refine ⟨.named field.name :: rest, _, ?_, readingAt?_nested has reads hreading, fun r => ?_, ?_⟩
  · rw [hpath, List.append_assoc]
    rfl
  · show EntryHolds types k r field.name (.nested child) ↔ _
    rw [entryHolds_nested_iff has reads, Reading.meets_within]
    simp only [contributes, true_imp_iff, Option.mem_toList]
    exact exists_congr fun s => and_congr_right fun _ => hholds s
  · intro hfree i hi
    rcases List.mem_cons.1 hi with hname | hi
    · cases hname
    · exact hindex (fun hreaches => hfree (.nested mem role hreaches)) i hi

/-- A list filter of one entry asks some record of the list for what the tree of the entry asks
for. -/
theorem AsksAlong.list {read : C k → List (C target)} (role : field.role = .list inner)
    (reads : found.access = .list target read) (contributes : Contributes types target child)
    (h : AsksAlong types op test shapes (shapes inner) (here ++ [.named field.name] ++ [.index 0])
      path target fun s => Satisfies types target s child) :
    AsksAlong types op test shapes shape here path k fun r =>
      EntryHolds types k r field.name (.list [child]) := by
  obtain ⟨rest, reading, hpath, hreading, hholds, -⟩ := h
  have hbelow : path = here ++ .named field.name :: .index 0 :: rest := by
    rw [hpath, List.append_assoc, List.append_assoc]
    rfl
  refine ⟨.named field.name :: .index 0 :: rest, _, hbelow, readingAt?_list has reads hreading,
    fun r => ?_, ?_⟩
  · show EntryHolds types k r field.name (.list [child]) ↔ _
    rw [entryHolds_list_iff has reads, Reading.meets_within]
    simp only [List.forall_mem_singleton, contributes, true_imp_iff]
    exact exists_congr fun s => and_congr_right fun _ => hholds s
  · intro hfree
    refine absurd (.here mem role ?_) hfree
    rw [hpath, List.append_assoc]
    exact List.prefix_append _ _

end Steps

theorem AsksAlong.leaf {shapes : ι → Shape ι} {shape : Shape ι} {k : κ} (strict : coercer.Strict)
    (noText : op.family ≠ .text) (decides : Decides coercer op raw test) {leaf : Leaf}
    {field : FieldShape ι}
    (askedBy : leaf.AskedBy coercer (here ++ [.named field.name]) path op raw)
    {found : RecordField κ C (C k)} (has : (types k).field? field.name = some found)
    {parts : List (PurePredicate (C k))} (compiled : AccessCompiled leaf found.access parts)
    {applied : Applied} (asked : applied ∈ leaf.operations) :
    AsksAlong types op test shapes shape here path k fun r =>
      EntryHolds types k r field.name (.leaf leaf : Entry ι) := by
  obtain ⟨rest, reading, hpath, hindex, hreading, hholds⟩ :=
    exists_reading_of_leaf strict noText decides askedBy compiled asked
  refine ⟨.named field.name :: rest, reading, ?_, ?_, fun r => ?_, ?_⟩
  · rw [hpath, List.append_assoc]
    rfl
  · rw [readingAt?_named has, hreading]
  · show EntryHolds types k r field.name (.leaf leaf) ↔ _
    rw [entryHolds_leaf_iff has, hholds r]
  · intro _ i hi
    rcases List.mem_cons.1 hi with hname | hi
    · cases hname
    · exact hindex i hi

/-- **What one key asks of a record.** Where the tree of the key contributes, a record satisfies it
exactly if the reading of the path meets the test of the operation. -/
theorem asksAlong_of_build {b : Binder} (strict : b.coercer.Strict) (noText : op.family ≠ .text)
    (decides : Decides b.coercer op raw test) {shapes : ι → Shape ι} {shape : Shape ι} {depth : Nat}
    {node : Node ι} (apart : shape.KeepsApart shapes here path op)
    (built : b.buildNode shapes (Query.asking path op raw) shape here depth = .ok node) {k : κ}
    {compiled : Option (PurePredicate (C k))} (compiles : compile types k node = .ok compiled)
    (contributes : Contributes types k node) :
    AsksAlong types op test shapes shape here path k fun r => Satisfies types k r node := by
  induction shape, here, depth using Binder.position_induct (q := Query.asking path op raw)
    generalizing node k compiled with
  | step shape here depth ih =>
    refine asksAlong_of_entries compiles contributes ?_
    rintro ⟨name, entry⟩ he hcontributes
    obtain ⟨field, hfield, rfl, hgives⟩ := (Binder.mem_entries_iff built).1 he
    obtain ⟨pss, hpss, -⟩ := compile_ok_iff.1 compiles
    obtain ⟨parts, -, hparts⟩ := exists_of_mem_forall₂ hpss he
    have hbound := (Binder.bindField_ok_iff.1 hgives).entryBound
    generalize hrole : field.role = role at hbound
    cases hbound with
    | scalar found read => cases hcontributes
    | leaf answered asks =>
      cases hcontributes with
      | leaf has asked =>
        cases hparts with
        | lacking lacks => exact nomatch lacks.symm.trans has
        | leaf has' hcompiled =>
          cases has.symm.trans has'
          rw [leafRequests_asking apart hfield hrole raw] at answered
          exact .leaf strict noText decides (Leaf.askedBy_of_answers answered) has hcompiled asked
    | nested reached within bound asks =>
      cases hcontributes with
      | nested has reads inner =>
        cases hparts with
        | lacking lacks => exact nomatch lacks.symm.trans has
        | nested has' reads' hcompiled =>
          cases has.symm.trans has'
          cases reads.symm.trans reads'
          refine .nested hfield has hrole reads inner ?_
          exact ih field.name _ _ reached (List.prefix_refl _) (apart.nested hfield hrole) bound
            hcompiled inner
    | @list target items reached within short length bound asks =>
      -- The key asks for the first entry of the list alone.
      have hone : items.length = 1 := by
        have hle : (Query.asking path op raw).listLength (here ++ [.named field.name]) ≤ 1 :=
          Query.listLength_asking_le_one _
        have hpos := List.length_pos_of_ne_nil asks
        omega
      obtain ⟨item, rfl⟩ := List.length_eq_one_iff.1 hone
      cases hcontributes with
      | list has reads memItem inner =>
        cases List.mem_singleton.1 memItem
        cases hparts with
        | lacking lacks => exact nomatch lacks.symm.trans has
        | list has' reads' hcompiled =>
          cases has.symm.trans has'
          cases reads.symm.trans reads'
          obtain ⟨p, -, hp⟩ := exists_of_mem_forall₂ hcompiled (List.mem_singleton_self item)
          refine .list hfield has hrole reads inner ?_
          exact ih field.name _ _ reached (List.prefix_append _ _) (apart.list hfield hrole 0)
            (bound 0 (by simp)) hp inner

end OneKey

end BracketFilter
