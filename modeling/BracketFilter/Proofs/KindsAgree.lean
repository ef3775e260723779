import BracketFilter.Proofs.AgreementSound
import BracketFilter.Proofs.LeafExact
import BracketFilter.Proofs.TreeShape

/-!
# Operations that compile are tested on values of their kind

* `Access.testedKind?` — the kind of the values that an operation on a field, or on a member of it,
  is tested on.
* `Confronts` — a node inside a tree is compiled on the records of a type.

Principal result: `kinds_agree_of_compile` — if a tree that is bound by the rules of the kinds
compiles, each of its operations on a field that the records have is tested on values of the kind
that the filter declares; only text operations on members are tested on values of any kind.
-/

set_option autoImplicit false

namespace BracketFilter

open BracketFilter.Text

variable {ι κ : Type} {C : κ → Type}

/-! ## What is tested -/

/-- The kind of the values that an operation on a field, or on a member of it, is tested on. -/
def Access.testedKind? {R : Type} : Access κ C R → Option String → Option Kind
  | .value type _, none => some type.kind
  | .values type _, none => some type.kind
  | .composite _ members, some name => (memberAccess? members name).map fun m => m.type.kind
  | _, _ => none

/-- The type of the records that are embedded in a field. -/
def Access.embedded? {R : Type} : Access κ C R → Option κ
  | .nested target _ => some target
  | .list target _ => some target
  | _ => none

/-- Where a tree is compiled on the records of a type, a node inside it is compiled on the records
of another: those that are embedded in the fields on the way there. -/
inductive Confronts (types : RecordTypes κ C) : κ → Node ι → κ → Node ι → Prop
  | here {k : κ} {node : Node ι} : Confronts types k node k node
  | inside {k k' target : κ} {node child inner : Node ι} {e : String × Entry ι}
      {field : RecordField κ C (C k)} (entry : e ∈ node.entries) (embedded : child ∈ e.2.children)
      (has : (types k).field? e.1 = some field) (embeds : field.access.embedded? = some target)
      (below : Confronts types target child k' inner) : Confronts types k node k' inner

section Confronts

variable {types : RecordTypes κ C} {k k' : κ} {node inner : Node ι}

theorem Confronts.exists_lies (h : Confronts types k node k' inner) :
    ∃ steps, node.Lies steps inner := by
  induction h with
  | here => exact ⟨0, .here⟩
  | inside entry embedded _ _ _ ih =>
    obtain ⟨steps, hlies⟩ := ih
    exact ⟨steps + 1, .inside entry embedded hlies⟩

/-- If a tree compiles, so does each node inside it on the records that it is confronted with. -/
theorem Confronts.exists_compile (h : Confronts types k node k' inner)
    {compiled : Option (PurePredicate (C k))} (compiles : compile types k node = .ok compiled) :
    ∃ compiled', compile types k' inner = .ok compiled' := by
  induction h with
  | here => exact ⟨compiled, compiles⟩
  | inside entry embedded has embeds _ ih =>
    obtain ⟨pss, hpss, -⟩ := compile_ok_iff.1 compiles
    obtain ⟨parts, -, hparts⟩ := exists_of_mem_forall₂ hpss entry
    generalize (Prod.snd _ : Entry ι) = entry' at embedded hparts
    cases hparts with
    | scalar => cases embedded
    | lacking lacks => exact nomatch lacks.symm.trans has
    | leaf has' compiled' => cases embedded
    | nested has' reads compiled' =>
      cases has.symm.trans has'
      rw [reads] at embeds
      cases embeds
      cases List.mem_singleton.1 embedded
      exact ih compiled'
    | list has' reads compiled' =>
      cases has.symm.trans has'
      rw [reads] at embeds
      cases embeds
      obtain ⟨p, -, hp⟩ := exists_of_mem_forall₂ compiled' embedded
      exact ih hp

theorem RecordType.field?_congr {R : Type} (type : RecordType κ C R) {name name' : String}
    (same : sameName name name' = true) : type.field? name = type.field? name' := by
  simp only [field?, sameName, sameName_iff.1 same]

theorem Node.exists_entry_of_leaf? {name : String} {leaf : Leaf}
    (h : node.leaf? name = some leaf) :
    ∃ name', sameName name' name = true ∧ (name', .leaf leaf) ∈ node.entries := by
  unfold leaf? at h
  split at h
  · rename_i hfound
    cases h
    obtain ⟨⟨name', _⟩, he, rfl⟩ := Option.map_eq_some_iff.1 hfound
    exact ⟨name', by simpa using List.find?_some he, List.mem_of_find?_eq_some he⟩
  · cases h

theorem Confronts.of_list? {target : κ} {child : Node ι} {items : List (Node ι)} {name : String}
    {field : RecordField κ C (C k)} (h : node.list? name = some items) (mem : child ∈ items)
    (has : (types k).field? name = some field) (embeds : field.access.embedded? = some target)
    (below : Confronts types target child k' inner) : Confronts types k node k' inner := by
  unfold Node.list? at h
  split at h
  · rename_i hfound
    cases h
    obtain ⟨e, he, hentry⟩ := Option.map_eq_some_iff.1 hfound
    have hsame : sameName e.1 name = true := by simpa using List.find?_some he
    refine .inside (List.mem_of_find?_eq_some he) (by simpa [hentry, Entry.children] using mem) ?_
      embeds below
    rwa [RecordType.field?_congr _ hsame]
  · cases h

end Confronts

/-! ## Operands -/

theorem Coercer.kind?_of_standard {raw : String} {kind : Kind} {value : Value}
    (h : standard raw kind = .ok value) : value.kind? = some kind := by
  unfold standard at h
  split at h
  · rename_i hread
    cases h
    exact kind?_of_read? hread
  · cases h

/-- An operation whose operands do not clash with a type is for operands of its kind, or a text
operation. -/
theorem Answers.kind_eq_or_text {member : Option String} {kind : Kind} {op : Operation}
    {raw : String} {applied : Applied}
    (h : Answers Coercer.standard (.operation member kind op) raw (.operation applied))
    {type : ValueType} (free : kindConflict? applied type = none) :
    kind = type.kind ∨ applied.operation.family = .text ∧ kind = .string := by
  have agree {values : List Value} {value : Value} {text : String}
      (first : values.head? = some value) (read : Coercer.standard text kind = .ok value)
      (none : (values.head?.bind Value.kind?).filter (· ≠ type.kind) = none) :
      kind = type.kind := by
    simpa [first, Coercer.kind?_of_standard read] using none
  cases h with
  | comparison family read =>
    rw [kindConflict?, if_neg (by simp [family])] at free
    exact .inl (agree rfl read free)
  | text family isText => exact .inr ⟨family, by simpa [Kind.isText] using isText⟩
  | membership family listed read =>
    rw [kindConflict?, if_neg (by simp [family])] at free
    obtain ⟨first, rest, rfl⟩ := List.exists_cons_of_ne_nil listed
    obtain ⟨token, _, hfirst, -, -⟩ := List.forall₂_cons_right_iff.1 read
    exact .inl (agree rfl hfirst free)

/-! ## Leaves -/

/-- An operation of a leaf that compiles is tested on values of the kind that it was bound for,
except for a text operation on a member. -/
theorem testedKind?_of_accessCompiled {R : Type} {leaf : Leaf} {access : Access κ C R}
    {parts : List (PurePredicate R)} (compiled : AccessCompiled leaf access parts)
    {applied : Applied} (asked : applied ∈ leaf.operations) {operand : ValueType}
    (typed : Leaf.operandType? leaf.type applied.member = some operand) {op : Operation}
    {raw : String}
    (answers : Answers Coercer.standard (.operation applied.member operand.kind op) raw
      (.operation applied)) :
    ∃ tested, access.testedKind? applied.member = some tested ∧
      (operand.kind = tested ∨ applied.operation.family = .text ∧ operand.kind = .string ∧
        ∃ name, applied.member = some name) := by
  have single {declared : ValueType} (primitive : leaf.type = .primitive declared) :
      applied.member = none ∧ operand = declared := by
    rw [primitive] at typed
    generalize applied.member = member at typed
    cases member with
    | none => exact ⟨rfl, (Option.some.inj typed).symm⟩
    | some name => cases typed
  cases compiled with
  | value primitive fits each =>
    obtain ⟨hmember, rfl⟩ := single primitive
    rw [hmember]
    exact ⟨_, rfl, .inl fits⟩
  | values primitive fits each =>
    obtain ⟨hmember, rfl⟩ := single primitive
    rw [hmember]
    exact ⟨_, rfl, .inl fits⟩
  | composite each =>
    obtain ⟨p, -, name, found, hmember, hfound, free, -⟩ := exists_of_mem_forall₂ each asked
    rw [hmember, Access.testedKind?, hfound]
    refine ⟨_, rfl, ?_⟩
    rcases answers.kind_eq_or_text free with hkind | ⟨family, text⟩
    · exact .inl hkind
    · exact .inr ⟨family, text, name, rfl⟩

/-! ## Trees -/

/-- **Operations that compile are tested on values of their kind.** In a tree that is bound by the
rules of the kinds and compiles, wherever an operation stands on a field that the records have: the
field is declared as a leaf, the operation is on an operand of it, and is tested on values of the
declared kind, unless it is a text operation on a member that is declared as text. -/
theorem kinds_agree_of_compile {limits : Limits} {shapes : ι → Shape ι} {shape : Shape ι}
    {q : Query} {path : Path} {node inner : Node ι} {types : RecordTypes κ C} {k k' : κ}
    {compiled : Option (PurePredicate (C k))} {name : String} {leaf : Leaf} {applied : Applied}
    {field : RecordField κ C (C k')}
    (built : Binder.build ⟨limits, .standard⟩ shapes shape q path = .ok node)
    (compiles : compile types k node = .ok compiled)
    (confronts : Confronts types k node k' inner) (entry : (name, .leaf leaf) ∈ inner.entries)
    (has : (types k').field? name = some field) (asked : applied ∈ leaf.operations) :
    ⟨name, .leaf leaf.type⟩ ∈ inner.shape.fields ∧
      ∃ declared tested, leaf.type.operandKind? applied.member = some declared ∧
        field.access.testedKind? applied.member = some tested ∧
        (declared = tested ∨ applied.operation.family = .text ∧ declared = .string ∧
          ∃ member, applied.member = some member) := by
  obtain ⟨steps, hlies⟩ := confronts.exists_lies
  obtain ⟨path', depth, hinner⟩ := Binder.exists_buildNode_of_lies hlies built
  obtain ⟨⟨_, role⟩, hfield, rfl, hbound⟩ := (Binder.mem_entries_iff hinner).1 entry
  cases (Binder.bindField_ok_iff.1 hbound).entryBound with
  | @leaf type answers answered asks =>
    obtain ⟨member, operand, op, raw, htyped, hanswers⟩ := exists_answers_of_mem answered asked
    obtain rfl := hanswers.member_eq
    obtain ⟨_, hcompile⟩ := confronts.exists_compile compiles
    obtain ⟨pss, hpss, -⟩ := compile_ok_iff.1 hcompile
    obtain ⟨parts, -, hparts⟩ := exists_of_mem_forall₂ hpss entry
    refine ⟨hfield, operand.kind, ?_⟩
    cases hparts with
    | lacking lacks => exact nomatch lacks.symm.trans has
    | leaf has' hcompiled =>
      cases has.symm.trans has'
      obtain ⟨tested, htested, hkinds⟩ :=
        testedKind?_of_accessCompiled hcompiled asked htyped hanswers
      exact ⟨tested, by simp [LeafType.operandKind?, htyped], htested, hkinds⟩

/-- An operation on a member of a part of a note. -/
def authorQuery : Query := Query.ofPairs [("parts[0][author][NAME][in]", "Ada, Bob")]

/-- What an operation on a member of a part of a note is tested on is a text, as it is declared. -/
theorem kinds_agree_of_compile_notes :
    ∃ node compiled inner name leaf applied field tested,
      Binder.build ⟨.standard, .standard⟩ noteShapes (noteShapes 0) authorQuery [] = .ok node ∧
      compile noteTypes 0 node = .ok compiled ∧ Confronts noteTypes 0 node 0 inner ∧
      (name, .leaf leaf) ∈ inner.entries ∧ (noteTypes 0).field? name = some field ∧
      applied ∈ leaf.operations ∧ applied.member = some "name" ∧
      leaf.type.operandKind? applied.member = some tested ∧
      field.access.testedKind? applied.member = some tested := by
  have hrun : (Binder.build ⟨.standard, .standard⟩ noteShapes (noteShapes 0) authorQuery
      []).toOption.bind (fun node => (compile noteTypes 0 node).toOption.bind fun _ =>
        (node.list? "parts").map fun items => items.map fun item => item.leaf? "author") =
      some [some ⟨.composite notePerson,
        [⟨.inside, [.string "Ada", .string "Bob"], true, some "name"⟩]⟩] := by
    decide +kernel
  obtain ⟨node, hnode, hcompile⟩ := Option.bind_eq_some_iff.1 hrun
  obtain ⟨compiled, hcompiled, hparts⟩ := Option.bind_eq_some_iff.1 hcompile
  rw [toOption_eq_some_iff] at hnode hcompiled
  obtain ⟨items, hitems, hleaves⟩ := Option.map_eq_some_iff.1 hparts
  obtain ⟨inner, rfl, hleaf⟩ := List.map_eq_singleton_iff.1 hleaves
  obtain ⟨name, hsame, hentry⟩ := Node.exists_entry_of_leaf? hleaf
  have hconfronts : Confronts noteTypes 0 node 0 inner :=
    .of_list? hitems List.mem_cons_self rfl rfl .here
  have hfield := RecordType.field?_congr (noteTypes 0) hsame
  obtain ⟨-, declared, tested, hdeclared, htested, rfl | ⟨htext, -⟩⟩ :=
    kinds_agree_of_compile hnode hcompiled hconfronts hentry hfield List.mem_cons_self
  · exact ⟨node, compiled, inner, name, _, _, _, _, hnode, hcompiled, hconfronts, hentry, hfield,
      List.mem_cons_self, rfl, hdeclared, htested⟩
  · cases htext

/-- Filters on prices, which take the currency for a text. -/
def priceShapes : Unit → Shape Unit := fun _ =>
  { name := "PriceFilter"
    fields :=
      [⟨"money", .leaf (.composite
        { name := "Money", members := [⟨"currency", ⟨.string, false⟩⟩] })⟩] }

/-- Prices, of which the currency is kept as a number. -/
def priceTypes : RecordTypes Unit (fun _ => Int64) := fun _ =>
  { name := "Price"
    fields := [⟨"money", .composite "Money" [⟨"currency", ⟨.i64, false⟩, .i64⟩]⟩] }

/-- A text operation compiles on a member that the filter declares as a text and the records keep as
a number. -/
theorem text_compiles_on_number :
    ∃ node compiled name leaf applied field,
      Binder.bind {} priceShapes () (Query.ofPairs [("money[currency][li]", "97")]) = .ok node ∧
      compile priceTypes () node = .ok compiled ∧ (name, .leaf leaf) ∈ node.entries ∧
      (priceTypes ()).field? name = some field ∧ applied ∈ leaf.operations ∧
      leaf.type.operandKind? applied.member = some .string ∧
      field.access.testedKind? applied.member = some .i64 := by
  have hrun : (Binder.bind {} priceShapes ()
      (Query.ofPairs [("money[currency][li]", "97")])).toOption.bind (fun node =>
        (compile priceTypes () node).toOption.bind fun _ => node.leaf? "money") =
      some ⟨.composite { name := "Money", members := [⟨"currency", ⟨.string, false⟩⟩] },
        [⟨.like, [.string "97"], false, some "currency"⟩]⟩ := by
    decide +kernel
  obtain ⟨node, hnode, hcompile⟩ := Option.bind_eq_some_iff.1 hrun
  obtain ⟨compiled, hcompiled, hleaf⟩ := Option.bind_eq_some_iff.1 hcompile
  rw [toOption_eq_some_iff] at hnode hcompiled
  obtain ⟨name, hsame, hentry⟩ := Node.exists_entry_of_leaf? hleaf
  have hfield := RecordType.field?_congr (priceTypes ()) hsame
  exact ⟨node, compiled, name, _, _, _, hnode, hcompiled, hentry, hfield, List.mem_cons_self,
    by decide +kernel, by decide +kernel⟩

end BracketFilter
