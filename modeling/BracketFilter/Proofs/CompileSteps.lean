import BracketFilter.Compile
import BracketFilter.Proofs.Traversal

/-!
# Compiling, one step at a time

What a compilation that succeeds has done, said once, so that no other module unfolds the compiler.

* `compileValue_ok_iff` and its companions — an operation is compiled exactly if it makes a test,
  and to that test on what is read.
* `AccessCompiled` — the predicates of a leaf on what a field is read as.
* `EntryCompiled` — the predicates of an entry, where a relation tells what its nodes compile to.
* `compile_ok_iff` — a node compiles exactly if each of its entries does.

Principal result: `Node.induct` — what holds of a node as soon as it holds of the nodes below its
entries holds of every node.
-/

set_option autoImplicit false

namespace BracketFilter

open BracketFilter.Text

variable {ι κ : Type} {C : κ → Type}

/-! ## Nodes below nodes -/

/-- The nodes that an entry is made of. -/
def Entry.children : Entry ι → List (Node ι)
  | .scalar _ => []
  | .leaf _ => []
  | .nested child => [child]
  | .list items => items

theorem Node.sizeOf_lt_of_mem_children {node child : Node ι} {e : String × Entry ι}
    (he : e ∈ node.entries) (hchild : child ∈ e.2.children) : sizeOf child < sizeOf node := by
  obtain ⟨shape, entries⟩ := node
  obtain ⟨name, entry⟩ := e
  have hentry : sizeOf child < sizeOf entry := by
    cases entry with
    | scalar value => cases hchild
    | leaf leaf => cases hchild
    | nested inner =>
      rw [List.mem_singleton.1 hchild, Entry.nested.sizeOf_spec]
      omega
    | list items =>
      have := List.sizeOf_lt_of_mem (show child ∈ items from hchild)
      rw [Entry.list.sizeOf_spec]
      omega
  have hpair : sizeOf (name, entry) < sizeOf entries := List.sizeOf_lt_of_mem he
  rw [Prod.mk.sizeOf_spec] at hpair
  rw [Node.mk.sizeOf_spec]
  omega

/-- **Induction over a node.** What holds of a node as soon as it holds of the nodes below its
entries holds of every node. -/
theorem Node.induct {motive : Node ι → Prop}
    (step : ∀ node, (∀ e ∈ node.entries, ∀ child ∈ e.2.children, motive child) → motive node)
    (node : Node ι) : motive node :=
  step node fun _ he child hchild =>
    have := Node.sizeOf_lt_of_mem_children he hchild
    Node.induct step child
  termination_by sizeOf node

/-! ## Leaves -/

theorem ofApplied_ok_iff {field : String} {applied : Applied} {test : Value → Bool} :
    Test.ofApplied field applied = .ok test ↔ Test.ofApplied? applied = some test := by
  unfold Test.ofApplied
  cases Test.ofApplied? applied with
  | none => simp
  | some made => simp

theorem compileValue_ok_iff {R : Type} {field : String} {read : R → Value} {applied : Applied}
    {p : PurePredicate R} :
    compileValue field read applied = .ok p ↔
      ∃ test, Test.ofApplied? applied = some test ∧ .ofTest (fun r => test (read r)) = p := by
  unfold compileValue
  simp only [map_ok_iff, ofApplied_ok_iff]

theorem compileElements_ok_iff {R : Type} {field : String} {read : R → List Value}
    {applied : Applied} {p : PurePredicate R} :
    compileElements field read applied = .ok p ↔
      ∃ test, Test.ofApplied? applied = some test ∧
        .ofTest (fun r => Test.onElements applied.operation test (read r)) = p := by
  unfold compileElements
  simp only [map_ok_iff, ofApplied_ok_iff]

theorem compileMember_ok_iff {R : Type} {field composite : String}
    {members : List (MemberAccess R)} {applied : Applied} {p : PurePredicate R} :
    compileMember field composite members applied = .ok p ↔
      ∃ name found, applied.member = some name ∧ memberAccess? members name = some found ∧
        kindConflict? applied found.type = none ∧
        ∃ test, Test.ofApplied? applied = some test ∧
          .ofTest (fun r => test (found.read r)) = p := by
  unfold compileMember
  cases applied.member with
  | none => simp
  | some name =>
    simp only [Option.some.injEq, exists_and_left, exists_eq_left']
    cases memberAccess? members name with
    | none => simp
    | some found =>
      simp only [Option.some.injEq, exists_eq_left']
      cases kindConflict? applied found.type with
      | some kind => simp
      | none => simp only [compileValue_ok_iff, true_and]

theorem checkPrimitive_ok_iff {field : String} {leaf : Leaf} {type : ValueType}
    {provided : String} :
    checkPrimitive field leaf type provided = .ok () ↔
      ∃ declared, leaf.type = .primitive declared ∧ declared.kind = type.kind := by
  unfold checkPrimitive
  cases leaf.type with
  | primitive declared =>
    simp only [LeafType.primitive.injEq, exists_eq_left', ValueType.compatible]
    by_cases hkind : declared.kind = type.kind
    · simp [hkind]
    · simp [hkind]
  | composite declared => simp

/-- The predicates of a leaf on what a field is read as. -/
inductive AccessCompiled {R : Type} (leaf : Leaf) :
    Access κ C R → List (PurePredicate R) → Prop
  | value {type declared : ValueType} {read : R → Value} {parts : List (PurePredicate R)}
      (primitive : leaf.type = .primitive declared) (fits : declared.kind = type.kind)
      (each : List.Forall₂ (fun applied p => ∃ test, Test.ofApplied? applied = some test ∧
        .ofTest (fun r => test (read r)) = p) leaf.operations parts) :
      AccessCompiled leaf (.value type read) parts
  | values {type declared : ValueType} {read : R → List Value} {parts : List (PurePredicate R)}
      (primitive : leaf.type = .primitive declared) (fits : declared.kind = type.kind)
      (each : List.Forall₂ (fun applied p => ∃ test, Test.ofApplied? applied = some test ∧
        .ofTest (fun r => Test.onElements applied.operation test (read r)) = p)
        leaf.operations parts) :
      AccessCompiled leaf (.values type read) parts
  | composite {name : String} {members : List (MemberAccess R)} {parts : List (PurePredicate R)}
      (each : List.Forall₂ (fun applied p => ∃ member found, applied.member = some member ∧
        memberAccess? members member = some found ∧ kindConflict? applied found.type = none ∧
        ∃ test, Test.ofApplied? applied = some test ∧ .ofTest (fun r => test (found.read r)) = p)
        leaf.operations parts) :
      AccessCompiled leaf (.composite name members) parts

/-- **A leaf compiles exactly by one of the rules.** -/
theorem compileAccess_ok_iff {R : Type} {name : String} {leaf : Leaf} {access : Access κ C R}
    {parts : List (PurePredicate R)} :
    compileAccess name leaf access = .ok parts ↔ AccessCompiled leaf access parts := by
  constructor
  · intro h
    cases access with
    | value type read =>
      simp only [compileAccess] at h
      split at h
      · cases h
      · rename_i hcheck
        obtain ⟨declared, hdeclared, hkind⟩ := checkPrimitive_ok_iff.1 hcheck
        refine .value hdeclared hkind ((mapM_ok_iff.1 h).imp fun _ _ => compileValue_ok_iff.1)
    | values type read =>
      simp only [compileAccess] at h
      split at h
      · cases h
      · rename_i hcheck
        obtain ⟨declared, hdeclared, hkind⟩ := checkPrimitive_ok_iff.1 hcheck
        refine .values hdeclared hkind ((mapM_ok_iff.1 h).imp fun _ _ => compileElements_ok_iff.1)
    | composite composite members =>
      exact .composite ((mapM_ok_iff.1 h).imp fun _ _ => compileMember_ok_iff.1)
    | nested target read => cases h
    | list target read => cases h
  · intro h
    cases h with
    | value primitive fits each =>
      simp only [compileAccess, checkPrimitive_ok_iff.2 ⟨_, primitive, fits⟩]
      exact mapM_ok_iff.2 (each.imp fun _ _ => compileValue_ok_iff.2)
    | values primitive fits each =>
      simp only [compileAccess, checkPrimitive_ok_iff.2 ⟨_, primitive, fits⟩]
      exact mapM_ok_iff.2 (each.imp fun _ _ => compileElements_ok_iff.2)
    | composite each => exact mapM_ok_iff.2 (each.imp fun _ _ => compileMember_ok_iff.2)

/-! ## Entries and nodes -/

/-- The predicates of an entry on the records of a type. `Compiled` tells what its nodes compile
to. -/
inductive EntryCompiled (types : RecordTypes κ C)
    (Compiled : (k : κ) → Node ι → Option (PurePredicate (C k)) → Prop) (k : κ) (name : String) :
    Entry ι → List (PurePredicate (C k)) → Prop
  | scalar {value : Value} : EntryCompiled types Compiled k name (.scalar value) []
  | lacking {entry : Entry ι} (lacks : (types k).field? name = none) :
      EntryCompiled types Compiled k name entry []
  | leaf {leaf : Leaf} {field : RecordField κ C (C k)} {parts : List (PurePredicate (C k))}
      (has : (types k).field? name = some field)
      (compiled : AccessCompiled leaf field.access parts) :
      EntryCompiled types Compiled k name (.leaf leaf) parts
  | nested {child : Node ι} {field : RecordField κ C (C k)} {target : κ}
      {read : C k → Option (C target)} {p : Option (PurePredicate (C target))}
      (has : (types k).field? name = some field) (reads : field.access = .nested target read)
      (compiled : Compiled target child p) :
      EntryCompiled types Compiled k name (.nested child) (p.map (onNested read)).toList
  | list {items : List (Node ι)} {field : RecordField κ C (C k)} {target : κ}
      {read : C k → List (C target)} {ps : List (Option (PurePredicate (C target)))}
      (has : (types k).field? name = some field) (reads : field.access = .list target read)
      (compiled : List.Forall₂ (Compiled target) items ps) :
      EntryCompiled types Compiled k name (.list items)
        (ps.flatMap fun p => (p.map (onList read)).toList)

/-- A node compiles to a predicate, or to none, on the records of a type. -/
abbrev CompilesTo (types : RecordTypes κ C) (k : κ) (node : Node ι)
    (compiled : Option (PurePredicate (C k))) : Prop := compile types k node = .ok compiled

theorem compileItems_ok_iff {types : RecordTypes κ C} {k : κ} {items : List (Node ι)}
    {parts : List (PurePredicate (C k))} :
    compileItems types k items = .ok parts ↔
      ∃ ps, List.Forall₂ (fun item p => compile types k item = .ok p) items ps ∧
        ps.flatMap Option.toList = parts := by
  induction items generalizing parts with
  | nil =>
    simp only [compileItems, List.forall₂_nil_left_iff, exists_eq_left, List.flatMap_nil,
      Except.ok.injEq]
  | cons item rest ih =>
    simp only [compileItems, List.forall₂_cons_left_iff]
    cases hitem : compile types k item with
    | error e => simp
    | ok p =>
      simp only [map_ok_iff, ih, Except.ok.injEq]
      constructor
      · rintro ⟨_, ⟨ps, hps, rfl⟩, rfl⟩
        exact ⟨_, ⟨p, ps, rfl, hps, rfl⟩, rfl⟩
      · rintro ⟨_, ⟨_, ps, rfl, hps, rfl⟩, rfl⟩
        exact ⟨_, ⟨ps, hps, rfl⟩, rfl⟩

/-- **An entry compiles exactly by one of the rules.** -/
theorem compileEntry_ok_iff {types : RecordTypes κ C} {k : κ} {name : String} {entry : Entry ι}
    {parts : List (PurePredicate (C k))} :
    compileEntry types k name entry = .ok parts ↔
      EntryCompiled types (CompilesTo types) k name entry parts := by
  constructor
  · intro h
    cases entry with
    | scalar value =>
      cases h
      exact .scalar
    | leaf leaf =>
      simp only [compileEntry] at h
      split at h
      · rename_i hlacks
        cases h
        exact .lacking hlacks
      · rename_i field hhas
        exact .leaf hhas (compileAccess_ok_iff.1 h)
    | nested child =>
      simp only [compileEntry] at h
      split at h
      · rename_i hlacks
        cases h
        exact .lacking hlacks
      · rename_i field hhas
        split at h
        · rename_i target read hreads
          obtain ⟨p, hp, rfl⟩ := map_ok_iff.1 h
          exact .nested hhas hreads hp
        · cases h
    | list items =>
      simp only [compileEntry] at h
      split at h
      · rename_i hlacks
        cases h
        exact .lacking hlacks
      · rename_i field hhas
        split at h
        · rename_i target read hreads
          obtain ⟨_, hitems, rfl⟩ := map_ok_iff.1 h
          obtain ⟨ps, hps, rfl⟩ := compileItems_ok_iff.1 hitems
          rw [List.map_flatMap]
          simp only [← Option.toList_map]
          exact .list hhas hreads hps
        · cases h
  · intro h
    cases h with
    | scalar => rfl
    | lacking lacks => cases entry <;> simp only [compileEntry, lacks]
    | leaf has compiled =>
      simp only [compileEntry, has]
      exact compileAccess_ok_iff.2 compiled
    | nested has reads compiled =>
      simp only [compileEntry, has, reads]
      exact map_ok_iff.2 ⟨_, compiled, rfl⟩
    | list has reads compiled =>
      simp only [compileEntry, has, reads]
      refine map_ok_iff.2 ⟨_, compileItems_ok_iff.2 ⟨_, compiled, rfl⟩, ?_⟩
      rw [List.map_flatMap]
      simp only [← Option.toList_map]

theorem compileEntries_ok_iff {types : RecordTypes κ C} {k : κ}
    {entries : List (String × Entry ι)} {parts : List (PurePredicate (C k))} :
    compileEntries types k entries = .ok parts ↔
      ∃ pss, List.Forall₂ (fun e ps => EntryCompiled types (CompilesTo types) k e.1 e.2 ps)
          entries pss ∧
        pss.flatten = parts := by
  induction entries generalizing parts with
  | nil =>
    simp only [compileEntries, List.forall₂_nil_left_iff, exists_eq_left, List.flatten_nil,
      Except.ok.injEq]
  | cons e rest ih =>
    obtain ⟨name, entry⟩ := e
    simp only [compileEntries, List.forall₂_cons_left_iff, ← compileEntry_ok_iff] at ih ⊢
    cases hentry : compileEntry types k name entry with
    | error e => simp
    | ok ps =>
      simp only [map_ok_iff, ih, Except.ok.injEq]
      constructor
      · rintro ⟨_, ⟨pss, hpss, rfl⟩, rfl⟩
        exact ⟨_, ⟨ps, pss, rfl, hpss, rfl⟩, rfl⟩
      · rintro ⟨_, ⟨_, pss, rfl, hpss, rfl⟩, rfl⟩
        exact ⟨_, ⟨pss, hpss, rfl⟩, rfl⟩

/-- **A node compiles exactly if each of its entries does.** -/
theorem compile_ok_iff {types : RecordTypes κ C} {k : κ} {node : Node ι}
    {compiled : Option (PurePredicate (C k))} :
    compile types k node = .ok compiled ↔
      ∃ pss, List.Forall₂ (fun e ps => EntryCompiled types (CompilesTo types) k e.1 e.2 ps)
          node.entries pss ∧
        Predicate.all pss.flatten = compiled := by
  obtain ⟨shape, entries⟩ := node
  simp only [compile, map_ok_iff, compileEntries_ok_iff, Node.entries]
  constructor
  · rintro ⟨_, ⟨pss, hpss, rfl⟩, rfl⟩
    exact ⟨pss, hpss, rfl⟩
  · rintro ⟨pss, hpss, rfl⟩
    exact ⟨_, ⟨pss, hpss, rfl⟩, rfl⟩

/-- An entry compiles to the same predicates if other nodes count as compiled, as long as its own
do. -/
theorem EntryCompiled.imp {types : RecordTypes κ C}
    {Compiled Compiled' : (k : κ) → Node ι → Option (PurePredicate (C k)) → Prop} {k : κ}
    {name : String} {entry : Entry ι} {parts : List (PurePredicate (C k))}
    (h : EntryCompiled types Compiled k name entry parts)
    (imp : ∀ target, ∀ child ∈ entry.children, ∀ p, Compiled target child p →
      Compiled' target child p) :
    EntryCompiled types Compiled' k name entry parts := by
  cases h with
  | scalar => exact .scalar
  | lacking lacks => exact .lacking lacks
  | leaf has compiled => exact .leaf has compiled
  | nested has reads compiled =>
    exact .nested has reads (imp _ _ (List.mem_singleton.2 rfl) _ compiled)
  | list has reads compiled =>
    exact .list has reads ((forall₂_and_mem compiled).imp fun item p h => imp _ _ h.1 _ h.2)

end BracketFilter
