import BracketFilter.Proofs.AgreementSound
import BracketFilter.Proofs.LeafCalls

/-!
# Leaves stay compilable

* `Stored` — the form in which an operation that was asked for is on a leaf.
* `Leaf.run` — the leaf behind a sequence of calls.
* `Supported` — a compilation that does not find operands that fail to fit their operation.

Principal result: `stays_compilable` — whatever the calls on a leaf, each of its operations has the
form that its operation takes, so that no compilation of the leaf, and none of a tree that was
bound, finds operands that do not fit.
-/

set_option autoImplicit false

namespace BracketFilter

open BracketFilter.Text

variable {ι κ : Type} {C : κ → Type}

/-! ## Runs of calls -/

/-- An operation on a leaf as a call asked for it, on an operand of a type. A membership operation
holds some values, as many as the call allows at most, and each other operation holds one: for a
text operation, on a string, the raw value itself. -/
structure Stored (type : LeafType) (call : Call) (operand : ValueType) (applied : Applied) :
    Prop where
  operation : applied.operation = call.operation
  member : applied.member = call.member
  offered : type.Offers applied.member operand
  listed : applied.operation.family = .membership → applied.multiValued = true ∧
    1 ≤ applied.values.length ∧ applied.values.length ≤ call.site.maxInValues
  single : applied.operation.family ≠ .membership →
    applied.multiValued = false ∧ applied.values.length = 1
  text : applied.operation.family = .text →
    applied.values = [.string call.raw] ∧ operand.kind = .string
  kinds : call.site.coercer.Faithful →
    ∀ value ∈ applied.values, value.kind? = none ∨ value.kind? = some operand.kind

/-- The operations on a leaf are what some of the calls asked for, in their order. -/
def StoredInOrder (type : LeafType) (calls : List Call) (operations : List Applied) : Prop :=
  ∃ kept, kept.Sublist calls ∧
    List.Forall₂ (fun call applied => ∃ operand, Stored type call operand applied) kept operations

/-- The leaf that a sequence of calls leaves behind. -/
def Leaf.run (leaf : Leaf) (calls : List Call) : Leaf := calls.foldl Leaf.after leaf

theorem Leaf.run_cons (leaf : Leaf) (call : Call) (rest : List Call) :
    leaf.run (call :: rest) = (leaf.after call).run rest := rfl

theorem Call.length_tokens_le {call : Call} {leaf : Leaf} {answer : Bool} {operand : ValueType}
    (offers : leaf.type.Offers call.member operand)
    (family : call.operation.family = .membership) (done : call.outcome leaf = .ok answer) :
    (Leaf.tokens call.raw).length ≤ call.site.maxInValues := by
  by_contra hmany
  have hfails := outcome_error_iff.2 ⟨operand, offers, .tooMany family (Nat.lt_of_not_le hmany)⟩
  cases done.symm.trans hfails

/-- What a call asks for is stored in the form that its operation takes. -/
theorem stored_of_answers {leaf : Leaf} {call : Call} {operand : ValueType} {applied : Applied}
    (offers : leaf.type.Offers call.member operand)
    (asks : Answers call.site.coercer (.operation call.member operand.kind call.operation)
      call.raw (.operation applied))
    (few : call.operation.family = .membership →
      (Leaf.tokens call.raw).length ≤ call.site.maxInValues) :
    Stored leaf.type call operand applied := by
  obtain ⟨site, member, op, raw⟩ := call
  simp only at offers asks few
  cases asks with
  | @comparison _ _ _ _ value family read =>
    have hother : op.family ≠ .membership := by simp [family]
    have hnoText : op.family ≠ .text := by simp [family]
    refine ⟨rfl, rfl, offers, fun h => absurd h hother, fun _ => ⟨rfl, rfl⟩,
      fun h => absurd h hnoText, fun hfaithful value hvalue => ?_⟩
    rw [List.mem_singleton.1 hvalue]
    exact hfaithful _ _ _ read
  | text family isText =>
    have hother : op.family ≠ .membership := by simp [family]
    have hstring : operand.kind = .string := by simpa [Kind.isText] using isText
    refine ⟨rfl, rfl, offers, fun h => absurd h hother, fun _ => ⟨rfl, rfl⟩,
      fun _ => ⟨rfl, hstring⟩, fun _ value hvalue => .inr ?_⟩
    rw [List.mem_singleton.1 hvalue, hstring]
    rfl
  | @membership _ _ _ _ values family listed read =>
    have hnoText : op.family ≠ .text := by simp [family]
    have hlength := few family
    rw [read.length_eq] at hlength
    refine ⟨rfl, rfl, offers, fun _ => ⟨rfl, List.length_pos_iff.2 listed, hlength⟩,
      fun h => absurd family h, fun h => absurd h hnoText, fun hfaithful value hvalue => ?_⟩
    obtain ⟨token, -, htoken⟩ := exists_of_mem_forall₂ read.flip hvalue
    exact hfaithful _ _ _ htoken

theorem Leaf.after_stored (leaf : Leaf) (call : Call) :
    (∃ operand applied, Stored leaf.type call operand applied ∧
        leaf.after call = ⟨leaf.type, leaf.operations ++ [applied]⟩) ∨
      leaf.after call = leaf := by
  rcases leaf.after_cases call with
    ⟨hdone, operand, applied, hoffers, hasks, hafter⟩ | ⟨-, hafter⟩
  · have hstored := stored_of_answers hoffers hasks fun family =>
      Call.length_tokens_le hoffers family hdone
    exact .inl ⟨operand, applied, hstored, hafter⟩
  · exact .inr hafter

/-- **A run adds operations in the form that they take**, in the order of their calls. -/
theorem Leaf.run_stored (leaf : Leaf) (calls : List Call) :
    (leaf.run calls).type = leaf.type ∧ ∃ added,
      (leaf.run calls).operations = leaf.operations ++ added ∧
      StoredInOrder leaf.type calls added := by
  induction calls generalizing leaf with
  | nil => exact ⟨rfl, [], (List.append_nil _).symm, [], List.Sublist.refl _, .nil⟩
  | cons call rest ih =>
    rw [run_cons]
    rcases leaf.after_stored call with ⟨operand, applied, hfirst, hafter⟩ | hafter
    · obtain ⟨htype, added, hadded, kept, hkept, hstored⟩ :=
        ih ⟨leaf.type, leaf.operations ++ [applied]⟩
      rw [hafter, hadded, List.append_assoc]
      exact ⟨htype, _, rfl, call :: kept, hkept.cons_cons call, .cons ⟨operand, hfirst⟩ hstored⟩
    · obtain ⟨htype, added, hadded, kept, hkept, hstored⟩ := ih leaf
      rw [hafter]
      exact ⟨htype, added, hadded, kept, hkept.cons call, hstored⟩

theorem Stored.exists_test {type : LeafType} {call : Call} {operand : ValueType}
    {applied : Applied} (h : Stored type call operand applied) :
    ∃ test, Test.ofApplied? applied = some test := by
  rw [← Option.isSome_iff_exists]
  cases hfamily : applied.operation.family with
  | comparison =>
    obtain ⟨hmulti, hlength⟩ := h.single (by simp [hfamily])
    obtain ⟨value, hvalues⟩ := List.length_eq_one_iff.1 hlength
    simp [Test.ofApplied?, Test.fitsArity, Operation.isMultiValued, hfamily, hmulti, hvalues]
  | text =>
    obtain ⟨hmulti, -⟩ := h.single (by simp [hfamily])
    obtain ⟨hvalues, -⟩ := h.text hfamily
    simp [Test.ofApplied?, Test.fitsArity, Operation.isMultiValued, hfamily, hmulti, hvalues,
      Value.text?, Value.isNull, Value.kind?]
  | membership =>
    obtain ⟨hmulti, hpositive, -⟩ := h.listed hfamily
    have hsome : applied.values ≠ [] := List.length_pos_iff.1 hpositive
    simp [Test.ofApplied?, Test.fitsArity, Operation.isMultiValued, hfamily, hmulti, hsome]

/-! ## Compilations that find the operands they need -/

/-- A compilation does not find operands that fail to fit their operation. -/
def Supported {α : Type} (x : Except CompileError α) : Prop :=
  ∀ field op, x ≠ .error (.unsupportedOperation field op)

section Supported

variable {α β : Type}

theorem Supported.ok (a : α) : Supported (.ok a : Except CompileError α) := nofun

theorem Supported.mismatch (field expected found : String) :
    Supported (.error (.schemaMismatch field expected found) : Except CompileError α) := nofun

theorem Supported.map {x : Except CompileError α} (h : Supported x) (f : α → β) :
    Supported (x.map f) := fun field op herror => h field op (map_error_iff.1 herror)

theorem Supported.stops {x : Except CompileError α} (h : Supported x) {e : CompileError}
    (stopped : x = .error e) : Supported (.error e : Except CompileError β) :=
  fun field op herror => h field op (by rw [stopped, Except.error.inj herror])

theorem Supported.mapM {f : α → Except CompileError β} {xs : List α}
    (h : ∀ x ∈ xs, Supported (f x)) : Supported (xs.mapM f) := by
  intro field op herror
  obtain ⟨before, x, after, rfl, hfail, -⟩ := mapM_error_iff.1 herror
  exact h x (by simp) field op hfail

end Supported

section Tests

variable {R : Type} {field : String} {applied : Applied}
  (tested : ∃ test, Test.ofApplied? applied = some test)

include tested

theorem supported_ofApplied : Supported (Test.ofApplied field applied) := by
  obtain ⟨test, htest⟩ := tested
  rw [ofApplied_ok_iff.2 htest]
  exact .ok test

theorem supported_compileValue (read : R → Value) :
    Supported (compileValue field read applied) := (supported_ofApplied tested).map _

theorem supported_compileElements (read : R → List Value) :
    Supported (compileElements field read applied) := (supported_ofApplied tested).map _

theorem supported_compileSingle (read : R → Value) :
    Supported (compileSingle field read applied) := by
  unfold compileSingle
  cases applied.member with
  | some name => exact .mismatch _ _ _
  | none => exact supported_compileValue tested read

theorem supported_compileMember {composite : String} (members : List (MemberAccess R)) :
    Supported (compileMember field composite members applied) := by
  unfold compileMember
  split
  · exact .mismatch _ _ _
  · simp only
    split
    · exact .mismatch _ _ _
    · split
      · exact .mismatch _ _ _
      · exact supported_compileValue tested _

end Tests

theorem supported_checkPrimitive (field : String) (leaf : Leaf) (type : ValueType)
    (provided : String) : Supported (checkPrimitive field leaf type provided) := by
  unfold checkPrimitive
  cases leaf.type with
  | composite declared => exact .mismatch _ _ _
  | primitive declared =>
    simp only
    split
    · exact .ok ()
    · exact .mismatch _ _ _

/-- A leaf whose operations make tests does not lack operands, however a field is read. -/
theorem supported_compileAccess {R : Type} {name : String} {leaf : Leaf}
    (tested : ∀ applied ∈ leaf.operations, ∃ test, Test.ofApplied? applied = some test)
    (access : Access κ C R) : Supported (compileAccess name leaf access) := by
  cases access with
  | value type read =>
    simp only [compileAccess]
    split
    · rename_i hstopped
      exact (supported_checkPrimitive _ _ _ _).stops hstopped
    · exact .mapM fun applied h => supported_compileValue (tested applied h) read
  | values type read =>
    simp only [compileAccess]
    split
    · rename_i hstopped
      exact (supported_checkPrimitive _ _ _ _).stops hstopped
    · exact .mapM fun applied h => supported_compileElements (tested applied h) read
  | composite composite members =>
    exact .mapM fun applied h => supported_compileMember (tested applied h) members
  | nested target read => exact .mismatch _ _ _
  | list target read => exact .mismatch _ _ _

/-! ## Trees -/

theorem supported_compileEntries {types : RecordTypes κ C} {k : κ}
    {entries : List (String × Entry ι)}
    (h : ∀ e ∈ entries, Supported (compileEntry types k e.1 e.2)) :
    Supported (compileEntries types k entries) := by
  induction entries with
  | nil => exact .ok []
  | cons e rest ih =>
    obtain ⟨name, entry⟩ := e
    rw [List.forall_mem_cons] at h
    simp only [compileEntries]
    split
    · rename_i hstopped
      exact h.1.stops hstopped
    · exact (ih h.2).map _

theorem supported_compileItems {types : RecordTypes κ C} {k : κ} {items : List (Node ι)}
    (h : ∀ item ∈ items, Supported (compile types k item)) :
    Supported (compileItems types k items) := by
  induction items with
  | nil => exact .ok []
  | cons item rest ih =>
    rw [List.forall_mem_cons] at h
    simp only [compileItems]
    split
    · rename_i hstopped
      exact h.1.stops hstopped
    · exact (ih h.2).map _

theorem supported_of_entryBound {types : RecordTypes κ C} {b : Binder} {shapes : ι → Shape ι}
    {q : Query} {here : Path} {depth : Nat} {role : Role ι} {entry : Entry ι}
    (h : Binder.EntryBound b shapes q
      (fun _ _ _ child => ∀ k, Supported (compile types k child)) here depth role entry)
    (k : κ) (name : String) : Supported (compileEntry types k name entry) := by
  cases h with
  | scalar found read => exact .ok []
  | leaf answered asks =>
    simp only [compileEntry]
    split
    · exact .ok []
    · exact supported_compileAccess (fun applied hmem => exists_test_of_mem answered hmem) _
  | nested reached within bound asks =>
    simp only [compileEntry]
    split
    · exact .ok []
    · split
      · exact (bound _).map _
      · exact .mismatch _ _ _
  | list reached within short length bound asks =>
    simp only [compileEntry]
    split
    · exact .ok []
    · split
      · refine (supported_compileItems fun item hitem => ?_).map _
        obtain ⟨i, hi, rfl⟩ := List.getElem_of_mem hitem
        exact bound i hi _
      · exact .mismatch _ _ _

/-- **A tree that was bound does not lack operands**, on whatever records. -/
theorem supported_of_build (types : RecordTypes κ C) {b : Binder} {shapes : ι → Shape ι}
    {q : Query} {shape : Shape ι} {path : Path} {depth : Nat} {node : Node ι}
    (built : b.buildNode shapes q shape path depth = .ok node) :
    ∀ k, Supported (compile types k node) := by
  refine Binder.buildNode_induct (motive := fun _ _ _ node =>
    ∀ k, Supported (compile types k node)) ?_ built
  intro shape path depth given hgiven k
  refine (supported_compileEntries fun e he => ?_).map _
  obtain ⟨_, hmem, rfl⟩ := List.mem_filterMap.1 he
  obtain ⟨field, -, entry, hbound, hentry⟩ := exists_of_mem_forall₂ hgiven.flip hmem
  obtain ⟨entry, rfl, rfl⟩ := Option.map_eq_some_iff.1 hentry.symm
  exact supported_of_entryBound hbound.entryBound k field.name

/-- **Whatever is asked for on a leaf, it stays compilable.** Behind every sequence of calls, each
operation on the leaf is in the form that it takes, and comes from a call of its own. So no
compilation of the leaf finds operands that do not fit their operation, and none of a tree that was
bound does, whatever the coercers give. -/
theorem stays_compilable (type : LeafType) (calls : List Call) :
    ((Leaf.empty type).run calls).type = type ∧
      StoredInOrder type calls ((Leaf.empty type).run calls).operations ∧
      (∀ (α : Type) (field : String) (read : α → Value),
        Supported (compileLeaf field ((Leaf.empty type).run calls) read)) ∧
      ∀ (b : Binder) (shapes : ι → Shape ι) (shape : Shape ι) (q : Query) (path : Path)
        (node : Node ι), b.build shapes shape q path = .ok node →
        ∀ (types : RecordTypes κ C) (k : κ), Supported (compile types k node) := by
  obtain ⟨htype, added, hadded, hstored⟩ := (Leaf.empty type).run_stored calls
  have hoperations : ((Leaf.empty type).run calls).operations = added := hadded
  rw [hoperations]
  refine ⟨htype, hstored, fun α field read => ?_,
    fun b shapes shape q path node built types k => supported_of_build types built k⟩
  obtain ⟨kept, -, hkept⟩ := hstored
  refine (Supported.mapM fun applied happlied => ?_).map _
  rw [hoperations] at happlied
  obtain ⟨call, -, operand, happlied⟩ := exists_of_mem_forall₂ hkept.flip happlied
  exact supported_compileSingle happlied.exists_test read

/-- Calls on the tags of notes: two that add an operation, with one between them that names a member
and one that lists too much. -/
def tagCalls : List Call :=
  [⟨⟨"tags", .standard, 2⟩, none, .inside, "x, ,new"⟩,
    ⟨⟨"tags", .standard, 2⟩, some "x", .eq, "a"⟩,
    ⟨⟨"tags", .standard, 2⟩, none, .notInside, "a,b,c"⟩,
    ⟨⟨"tags", .standard, 2⟩, none, .startsWith, " n"⟩]

theorem stays_compilable_notes :
    ((Leaf.empty (.primitive ⟨.string, false⟩)).run tagCalls).operations =
        [⟨.inside, [.string "x", .string "new"], true, none⟩,
          ⟨.startsWith, [.string " n"], false, none⟩] ∧
      StoredInOrder (.primitive ⟨.string, false⟩) tagCalls
        ((Leaf.empty (.primitive ⟨.string, false⟩)).run tagCalls).operations ∧
      ∃ node, Binder.build {} noteShapes (noteShapes 0) (Query.ofPairs
          [("parts[0][answers][author][name][sw]", "a"), ("tags[nin]", "x,,y")]) [] = .ok node ∧
        node.size = 2 ∧ Supported (compile noteTypes 0 node) := by
  have hrun : ((Leaf.empty (.primitive ⟨.string, false⟩)).run tagCalls).operations =
      [⟨.inside, [.string "x", .string "new"], true, none⟩,
        ⟨.startsWith, [.string " n"], false, none⟩] := by
    decide +kernel
  have hsize : (Binder.build {} noteShapes (noteShapes 0) (Query.ofPairs
      [("parts[0][answers][author][name][sw]", "a"), ("tags[nin]", "x,,y")]) []).map Node.size =
        .ok 2 := by
    decide +kernel
  obtain ⟨node, hnode, htwo⟩ := map_ok_iff.1 hsize
  obtain ⟨-, hstored, -, htrees⟩ := stays_compilable (.primitive ⟨.string, false⟩) tagCalls
  exact ⟨hrun, hstored, node, hnode, htwo, htrees _ _ _ _ _ _ hnode noteTypes 0⟩

end BracketFilter
