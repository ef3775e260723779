import BracketFilter.Proofs.Membership

/-!
# Comparisons that are served

A comparison is served where its path leads, within the limits, to a leaf or to a member of one, and
the records have a field, or a member, of the same kind there.

* `LeafType.Serves` — a leaf, or a member of it, and what a field of records is read as have one
  kind.
* `Serves` — the same behind a path through embedded filters and lists, with the reading of the
  records.

Principal results: `exists_build_of_serves` — a comparison that is served is bound and compiles, if
its operand is read; `accepts_iff_meets_of_serves` — it accepts exactly the records whose reading
meets it.
-/

set_option autoImplicit false

namespace BracketFilter

open BracketFilter.Text

variable {ι κ : Type} {C : κ → Type}

/-! ## What is served -/

/-- A leaf, or the member of it that is named, has the kind that a field of records has behind a
path, where it is read as the reading tells. -/
inductive LeafType.Serves {R : Type} :
    LeafType → Access κ C R → Option String → Path → Reading R → Prop
  | value {declared found : ValueType} {read : R → Value} (fits : declared.kind = found.kind) :
      Serves (.primitive declared) (.value found read) none [] ⟨found.kind, fun r => [[read r]]⟩
  | values {declared found : ValueType} {read : R → List Value}
      (fits : declared.kind = found.kind) :
      Serves (.primitive declared) (.values found read) none [] ⟨found.kind, fun r => [read r]⟩
  | member {type : Composite} {m : Member} {provided : String} {members : List (MemberAccess R)}
      {found : MemberAccess R} (mem : m ∈ type.members)
      (finds : memberAccess? members m.name = some found) (fits : m.type.kind = found.type.kind) :
      Serves (.composite type) (.composite provided members) (some m.name) [.named m.name]
        ⟨found.type.kind, fun r => [[found.read r]]⟩

/-- From a shape at a depth and the records of a type, a path leads within the limits to a leaf, or
to a member of one, that is served by the field of the records. -/
inductive Serves (limits : Limits) (shapes : ι → Shape ι) (types : RecordTypes κ C) :
    Shape ι → (k : κ) → Nat → Path → Reading (C k) → Prop
  | leaf {shape : Shape ι} {k : κ} {depth : Nat} {field : FieldShape ι} {type : LeafType}
      {found : RecordField κ C (C k)} {member : Option String} {rest : Path}
      {reading : Reading (C k)} (mem : field ∈ shape.fields) (role : field.role = .leaf type)
      (has : (types k).field? field.name = some found)
      (inner : type.Serves found.access member rest reading) :
      Serves limits shapes types shape k depth (.named field.name :: rest) reading
  | nested {shape : Shape ι} {k target : κ} {depth : Nat} {field : FieldShape ι} {embedded : ι}
      {found : RecordField κ C (C k)} {read : C k → Option (C target)} {rest : Path}
      {reading : Reading (C target)} (mem : field ∈ shape.fields)
      (role : field.role = .nested embedded) (has : (types k).field? field.name = some found)
      (reads : found.access = .nested target read) (within : depth < limits.maxDepth)
      (inner : Serves limits shapes types (shapes embedded) target (depth + 1) rest reading) :
      Serves limits shapes types shape k depth (.named field.name :: rest)
        (reading.within fun r => (read r).toList)
  | list {shape : Shape ι} {k target : κ} {depth : Nat} {field : FieldShape ι} {embedded : ι}
      {found : RecordField κ C (C k)} {read : C k → List (C target)} {rest : Path}
      {reading : Reading (C target)} (mem : field ∈ shape.fields)
      (role : field.role = .list embedded) (has : (types k).field? field.name = some found)
      (reads : found.access = .list target read) (within : depth < limits.maxDepth)
      (room : 1 ≤ limits.maxListItems)
      (inner : Serves limits shapes types (shapes embedded) target (depth + 1) rest reading) :
      Serves limits shapes types shape k depth (.named field.name :: .index 0 :: rest)
        (reading.within read)

section Leaves

variable {R : Type} {type : LeafType} {access : Access κ C R} {member : Option String}
  {rest : Path} {reading : Reading R} (serves : type.Serves access member rest reading)

include serves

theorem LeafType.Serves.declares (shapes : ι → Shape ι) :
    Role.Declares shapes (.leaf type) rest := by
  cases serves with
  | value fits => exact .leaf
  | values fits => exact .leaf
  | member mem finds fits => exact .member mem

theorem LeafType.Serves.reading?_eq (types : RecordTypes κ C) :
    access.reading? types rest = some reading := by
  cases serves with
  | value fits => rfl
  | values fits => rfl
  | @member type m provided members found mem finds fits =>
    show (memberAccess? members (lowerAscii m.name)).map _ = _
    rw [memberAccess?_congr members (lowerAscii_lowerAscii m.name), finds, Option.map_some]

/-- With distinct names, the path leads to the one operand that is served. -/
theorem LeafType.Serves.mem_operands_iff
    (distinct : ∀ composite, type = .composite composite →
      (composite.members.map fun m => lowerAscii m.name).Nodup)
    (here : Path) (member' : Option String) :
    (member', here ++ rest) ∈ operands here type ↔ member' = member := by
  cases serves with
  | value fits => simp [operands]
  | values fits => simp [operands]
  | @member type m provided members found mem finds fits =>
    simp only [operands, List.mem_map, Prod.mk.injEq, List.append_cancel_left_eq, List.cons.injEq,
      and_true]
    constructor
    · rintro ⟨m', hm', rfl, hname⟩
      rw [List.inj_on_of_nodup_map (distinct _ rfl) hm' mem (Segment.field.inj hname)]
    · rintro rfl
      exact ⟨m, mem, rfl, rfl⟩

theorem LeafType.Serves.exists_operandType?
    (distinct : ∀ composite, type = .composite composite →
      (composite.members.map fun m => lowerAscii m.name).Nodup) :
    ∃ operand, Leaf.operandType? type member = some operand ∧ operand.kind = reading.kind := by
  cases serves with
  | value fits => exact ⟨_, rfl, fits⟩
  | values fits => exact ⟨_, rfl, fits⟩
  | @member type m provided members found mem finds fits =>
    exact ⟨m.type, by simp [Leaf.operandType?, Composite.member?_of_mem (distinct _ rfl) mem], fits⟩

/-- Operations on the operand that is served compile, if they make tests and their operands are not
of another kind. -/
theorem LeafType.Serves.exists_accessCompiled {operations : List Applied}
    (about : ∀ applied ∈ operations, applied.member = member)
    (tests : ∀ applied ∈ operations, ∃ test, Test.ofApplied? applied = some test)
    (free : ∀ applied ∈ operations, ∀ found : ValueType, found.kind = reading.kind →
      kindConflict? applied found = none) :
    ∃ parts, AccessCompiled ⟨type, operations⟩ access parts := by
  cases serves with
  | @value declared found read fits =>
    obtain ⟨parts, hparts⟩ := exists_predicates tests fun _ test => .ofTest fun r => test (read r)
    exact ⟨parts, .value rfl fits hparts⟩
  | @values declared found read fits =>
    obtain ⟨parts, hparts⟩ := exists_predicates tests fun applied test =>
      .ofTest fun r => Test.onElements applied.operation test (read r)
    exact ⟨parts, .values rfl fits hparts⟩
  | @member composite m provided members found mem finds fits =>
    have each : ∀ applied ∈ operations, ∃ p : PurePredicate R, ∃ member found,
        applied.member = some member ∧ memberAccess? members member = some found ∧
          kindConflict? applied found.type = none ∧ ∃ test, Test.ofApplied? applied = some test ∧
          .ofTest (fun r => test (found.read r)) = p := by
      intro applied hmem
      obtain ⟨test, htest⟩ := tests applied hmem
      exact ⟨_, m.name, found, about applied hmem, finds, free applied hmem _ rfl, test, htest,
        rfl⟩
    obtain ⟨parts, hparts⟩ := exists_forall₂_of_forall_mem each
    exact ⟨parts, .composite hparts⟩

end Leaves

section Paths

variable {limits : Limits} {shapes : ι → Shape ι} {types : RecordTypes κ C} {shape : Shape ι}
  {k : κ} {depth : Nat} {rest : Path} {reading : Reading (C k)}

theorem Serves.declares (serves : Serves limits shapes types shape k depth rest reading) :
    shape.Declares shapes rest := by
  induction serves with
  | leaf mem role has inner =>
    exact ⟨_, mem, _, rfl, role ▸ inner.declares shapes⟩
  | nested mem role has reads within inner ih =>
    obtain ⟨field', mem', rest', rfl, hinner⟩ := ih
    exact ⟨_, mem, _, rfl, role ▸ .nested mem' hinner⟩
  | list mem role has reads within room inner ih =>
    obtain ⟨field', mem', rest', rfl, hinner⟩ := ih
    exact ⟨_, mem, _, rfl, role ▸ .list mem' hinner⟩

theorem Serves.readingAt?_eq (serves : Serves limits shapes types shape k depth rest reading) :
    readingAt? types k rest = some reading := by
  induction serves with
  | leaf mem role has inner =>
    rw [readingAt?_named has]
    exact inner.reading?_eq types
  | nested mem role has reads within inner ih => exact readingAt?_nested has reads ih
  | list mem role has reads within room inner ih => exact readingAt?_list has reads ih

end Paths

/-! ## Served comparisons are bound and compile -/

section Builds

variable {b : Binder} {shapes : ι → Shape ι} {types : RecordTypes κ C} {shape : Shape ι} {k : κ}
  {here path : Path} {op : Operation} {raw : String} {depth : Nat} {field : FieldShape ι}

/-- A field that the path does not go through has no entry. -/
theorem bindField_asking_of_not_prefix (apart : shape.KeepsApart shapes here path op)
    (mem : field ∈ shape.fields) (other : ¬ here ++ [.named field.name] <+: path) :
    b.bindField shapes (.asking path op raw) (here ++ [.named field.name]) depth field.role =
      .ok none := by
  have hunreached : (Query.asking path op raw).reaches (here ++ [.named field.name]) = false :=
    Bool.eq_false_iff.2 fun hreached => other (Query.reaches_asking_iff.1 hreached)
  cases hrole : field.role with
  | scalar type => exact Binder.bindScalar_of_none (get?_scalar_asking apart mem hrole raw)
  | leaf type =>
    have hnone : addressed (here ++ [.named field.name]) path type = [] := by
      rw [List.eq_nil_iff_forall_not_mem]
      intro member hmember
      exact other (Binder.isPrefix_of_mem_operands (mem_addressed_iff.1 hmember))
    simp only [Binder.bindField, Binder.bindLeaf_eq, leafRequests_asking apart mem hrole, hnone]
    rfl
  | nested target => simp [Binder.bindField, hunreached]
  | list target => simp [Binder.bindField, hunreached]

/-- The shape is bound to a node that compiles and contributes. -/
def BuildsUp (b : Binder) (shapes : ι → Shape ι) (types : RecordTypes κ C) (shape : Shape ι)
    (k : κ) (here : Path) (depth : Nat) (q : Query) : Prop :=
  ∃ node compiled, b.buildNode shapes q shape here depth = .ok node ∧
    compile types k node = .ok compiled ∧ Contributes types k node

theorem Contributes.isEmpty_eq_false {types : RecordTypes κ C} {k : κ} {node : Node ι}
    (h : Contributes types k node) : node.isEmpty = false := by
  obtain ⟨mem, -⟩ := h
  exact List.isEmpty_eq_false_iff.2 (List.ne_nil_of_mem mem)

/-- A node is bound and compiles if the one field that the path goes through has an entry that
does. -/
theorem BuildsUp.of_entry (apart : shape.KeepsApart shapes here path op)
    (distinct : shape.DistinctNames) (mem : field ∈ shape.fields)
    (through : here ++ [.named field.name] <+: path) {entry : Entry ι}
    (bound : b.bindField shapes (.asking path op raw) (here ++ [.named field.name]) depth
      field.role = .ok (some entry)) {parts : List (PurePredicate (C k))}
    (compiles : EntryCompiled types (CompilesTo types) k field.name entry parts)
    (contributes : EntryContributes types k field.name entry) :
    BuildsUp b shapes types shape k here depth (.asking path op raw) := by
  have hothers : ∀ other ∈ shape.fields, other ≠ field →
      b.bindField shapes (.asking path op raw) (here ++ [.named other.name]) depth other.role =
        .ok none := by
    intro other hother hne
    refine bindField_asking_of_not_prefix apart hother fun hprefix => hne ?_
    have hsame := (List.prefix_of_prefix_length_le hprefix through (by simp)).eq_of_length (by simp)
    exact distinct.field_ext hother mem (List.cons.inj (List.append_cancel_left hsame)).1
  have hgives : ∀ other ∈ shape.fields, ∃ given, Binder.FieldGives b shapes (.asking path op raw)
      (Binder.Builds b shapes (.asking path op raw)) here depth other given := by
    intro other hother
    by_cases hsame : other = field
    · exact ⟨_, _, Binder.bindField_ok_iff.1 (hsame ▸ bound), rfl⟩
    · exact ⟨_, _, Binder.bindField_ok_iff.1 (hothers other hother hsame), rfl⟩
  obtain ⟨given, hgiven⟩ := exists_forall₂_of_forall_mem hgives
  have hnode := Binder.buildNode_ok_iff.2 ⟨given, hgiven, rfl⟩
  have hentries : ∀ e ∈ (Binder.assemble shape given).entries, ∃ parts,
      EntryCompiled types (CompilesTo types) k e.1 e.2 parts := by
    rintro ⟨name, entry'⟩ he
    obtain ⟨other, hother, rfl, hbound⟩ := (Binder.mem_entries_iff hnode).1 he
    by_cases hsame : other = field
    · subst hsame
      cases hbound.symm.trans bound
      exact ⟨parts, compiles⟩
    · cases hbound.symm.trans (hothers other hother hsame)
  obtain ⟨pss, hpss⟩ := exists_forall₂_of_forall_mem hentries
  exact ⟨_, _, hnode, compile_ok_iff.2 ⟨pss, hpss, rfl⟩,
    .mk ((Binder.mem_entries_iff hnode).2 ⟨field, mem, rfl, bound⟩) contributes⟩

theorem BuildsUp.leaf (strict : b.coercer.Strict) (family : op.family = .comparison)
    {type : LeafType} {found : RecordField κ C (C k)} {member : Option String} {rest : Path}
    {reading : Reading (C k)} {x : Value} (read : b.coercer raw reading.kind = .ok x)
    (serves : type.Serves found.access member rest reading)
    (apart : shape.KeepsApart shapes here (here ++ .named field.name :: rest) op)
    (distinct : shape.DistinctNames) (mem : field ∈ shape.fields) (role : field.role = .leaf type)
    (has : (types k).field? field.name = some found) :
    BuildsUp b shapes types shape k here depth
      (.asking (here ++ .named field.name :: rest) op raw) := by
  have hpath : here ++ .named field.name :: rest = here ++ [.named field.name] ++ rest := by simp
  rw [hpath] at apart ⊢
  have hnames : ∀ composite, type = .composite composite →
      (composite.members.map fun m => lowerAscii m.name).Nodup := by
    rintro composite rfl
    exact distinct.members field mem composite role
  -- All that the key asks of the leaf is one operation on the operand that is served.
  obtain ⟨operand, hoperand, hkind⟩ := serves.exists_operandType? hnames
  have hanswer : Leaf.answer (b.site (here ++ [.named field.name])) type (member, op, raw) =
      .ok (some ⟨op, [x], false, member⟩) := by
    simp only [Leaf.answer, hoperand, Leaf.read, family, Binder.site, Site.coerce, hkind, read]
  have haddressed (member' : Option String) : member' ∈ addressed (here ++ [.named field.name])
      (here ++ [.named field.name] ++ rest) type ↔ member' = member :=
    mem_addressed_iff.trans (serves.mem_operands_iff hnames _ _)
  have hrequests := leafRequests_asking apart mem role raw
  generalize addressed (here ++ [.named field.name]) (here ++ [.named field.name] ++ rest) type =
    members at haddressed hrequests
  have hsome : members ≠ [] := List.ne_nil_of_mem ((haddressed member).2 rfl)
  have hoperations (applied : Applied) : applied ∈ (members.map fun _ =>
      some (⟨op, [x], false, member⟩ : Applied)).filterMap id ↔
        applied = ⟨op, [x], false, member⟩ := by
    simp [hsome]
  have hasks : Answers b.coercer (.operation member reading.kind op) raw
      (.operation ⟨op, [x], false, member⟩) := .comparison family read
  have noText : op.family ≠ .text := by simp [family]
  obtain ⟨parts, hparts⟩ := serves.exists_accessCompiled
    (fun applied h => by rw [(hoperations applied).1 h])
    (fun applied h => by rw [(hoperations applied).1 h]; exact hasks.exists_test)
    (fun applied h found hfound => by
      rw [(hoperations applied).1 h]
      exact (hasks.kindConflict?_eq_none_iff strict noText).2 hfound.symm)
  have hasked := (hoperations _).2 rfl
  refine .of_entry apart distinct mem (List.prefix_append _ _) ?_ (.leaf has hparts)
    (.leaf has hasked)
  rw [role]
  refine Binder.bindLeaf_ok_iff.2 ⟨_, ?_, if_neg (List.ne_nil_of_mem hasked)⟩
  rw [hrequests, List.forall₂_map_left_iff, List.forall₂_map_right_iff]
  refine List.forall₂_same.2 fun member' hmember' => ?_
  rw [(haddressed member').1 hmember']
  exact hanswer

theorem BuildsUp.nested {embedded : ι} {target : κ} {found : RecordField κ C (C k)}
    {read : C k → Option (C target)} {rest : Path}
    (apart : shape.KeepsApart shapes here (here ++ .named field.name :: rest) op)
    (distinct : shape.DistinctNames) (mem : field ∈ shape.fields)
    (role : field.role = .nested embedded) (has : (types k).field? field.name = some found)
    (reads : found.access = .nested target read) (within : depth < b.limits.maxDepth)
    (inner : BuildsUp b shapes types (shapes embedded) target (here ++ [.named field.name])
      (depth + 1) (.asking (here ++ .named field.name :: rest) op raw)) :
    BuildsUp b shapes types shape k here depth
      (.asking (here ++ .named field.name :: rest) op raw) := by
  have hpath : here ++ .named field.name :: rest = here ++ [.named field.name] ++ rest := by simp
  have hthrough : here ++ [.named field.name] <+: here ++ .named field.name :: rest :=
    hpath ▸ List.prefix_append _ _
  obtain ⟨child, compiled, hchild, hcompiled, hcontributes⟩ := inner
  refine .of_entry apart distinct mem hthrough ?_ (.nested has reads hcompiled)
    (.nested has reads hcontributes)
  rw [role]
  exact Binder.bindField_nested_eq_some_iff.2 ⟨Query.reaches_asking_iff.2 hthrough, within, child,
    hchild, hcontributes.isEmpty_eq_false, rfl⟩

theorem BuildsUp.list {embedded : ι} {target : κ} {found : RecordField κ C (C k)}
    {read : C k → List (C target)} {rest : Path}
    (apart : shape.KeepsApart shapes here (here ++ .named field.name :: .index 0 :: rest) op)
    (distinct : shape.DistinctNames) (mem : field ∈ shape.fields)
    (role : field.role = .list embedded) (has : (types k).field? field.name = some found)
    (reads : found.access = .list target read) (within : depth < b.limits.maxDepth)
    (room : 1 ≤ b.limits.maxListItems)
    (inner : BuildsUp b shapes types (shapes embedded) target
      (here ++ [.named field.name] ++ [.index 0]) (depth + 1)
      (.asking (here ++ .named field.name :: .index 0 :: rest) op raw)) :
    BuildsUp b shapes types shape k here depth
      (.asking (here ++ .named field.name :: .index 0 :: rest) op raw) := by
  have hpath : here ++ .named field.name :: .index 0 :: rest =
      here ++ [.named field.name] ++ [.index 0] ++ rest := by simp
  have hfirst : here ++ [.named field.name] ++ [.index 0] <+:
      here ++ .named field.name :: .index 0 :: rest := hpath ▸ List.prefix_append _ _
  have hthrough := (List.prefix_append (here ++ [.named field.name]) [.index 0]).trans hfirst
  obtain ⟨child, compiled, hchild, hcompiled, hcontributes⟩ := inner
  refine .of_entry apart distinct mem hthrough ?_ (.list has reads (.cons hcompiled .nil))
    (.list has reads (List.mem_singleton_self child) hcontributes)
  -- The key reaches the first entry of the list, and no other.
  have hone : [child].length = (Query.asking (here ++ .named field.name :: .index 0 :: rest) op
      raw).listLength (here ++ [.named field.name]) := by
    refine Nat.le_antisymm (Query.lt_listLength_iff.2 ?_) (Query.listLength_asking_le_one _)
    intro i hi
    rw [Nat.le_zero.1 hi]
    exact Query.reaches_asking_iff.2 hfirst
  have hitem : ∀ i (h : i < [child].length), Binder.Builds b shapes
      (.asking (here ++ .named field.name :: .index 0 :: rest) op raw) (shapes embedded)
      (here ++ [.named field.name] ++ [.index i]) (depth + 1) [child][i] := by
    intro i hi
    cases Nat.lt_one_iff.1 hi
    exact hchild
  rw [role]
  exact Binder.bindField_ok_iff.2
    (.list (Query.reaches_asking_iff.2 hthrough) within (hone.symm.trans_le room) hone hitem)

/-- **A comparison that is served is bound and compiles**, if its operand is read. -/
theorem exists_build_of_serves (strict : b.coercer.Strict) (family : op.family = .comparison)
    (names : ∀ i, (shapes i).DistinctNames) (distinct : shape.DistinctNames) {rest : Path}
    {reading : Reading (C k)} {x : Value} (read : b.coercer raw reading.kind = .ok x)
    (serves : Serves b.limits shapes types shape k depth rest reading) (here : Path) :
    BuildsUp b shapes types shape k here depth (.asking (here ++ rest) op raw) := by
  induction serves generalizing here with
  | @leaf shape k depth field type found member rest reading mem role has inner =>
    have hserves : Serves b.limits shapes types shape k depth _ _ := .leaf mem role has inner
    exact .leaf strict family read inner
      (keepsApart_of_distinct names distinct hserves.declares _ _) distinct mem role has
  | @nested _ _ _ _ field _ _ _ _ _ mem role has reads within inner ih =>
    have hserves := Serves.nested mem role has reads within inner
    have hinner := ih (names _) read (here ++ [.named field.name])
    rw [List.append_assoc] at hinner
    exact .nested (keepsApart_of_distinct names distinct hserves.declares _ _) distinct mem role has
      reads within hinner
  | @list _ _ _ _ field _ _ _ rest _ mem role has reads within room inner ih =>
    have hserves := Serves.list mem role has reads within room inner
    have hpath : here ++ [.named field.name] ++ [.index 0] ++ rest =
        here ++ .named field.name :: .index 0 :: rest := by simp
    have hinner := ih (names _) read (here ++ [.named field.name] ++ [.index 0])
    rw [hpath] at hinner
    exact .list (keepsApart_of_distinct names distinct hserves.declares _ _) distinct mem role has
      reads within room hinner

/-- **A comparison that is served accepts exactly the records whose reading meets it**, and is bound
and compiles. -/
theorem accepts_iff_meets_of_serves (strict : b.coercer.Strict) (family : op.family = .comparison)
    {test : Kind → Value → Prop} (decides : Decides b.coercer op raw test)
    (names : ∀ i, (shapes i).DistinctNames) (distinct : shape.DistinctNames) {rest : Path}
    {reading : Reading (C k)} {x : Value} (read : b.coercer raw reading.kind = .ok x)
    (serves : Serves b.limits shapes types shape k 0 rest reading) (r : C k) :
    Accepts types k b shapes shape here (.asking (here ++ rest) op raw) r ↔
      reading.Meets op.isNegated (test reading.kind) r := by
  obtain ⟨node, compiled, hnode, hcompiled, hcontributes⟩ :=
    exists_build_of_serves strict family names distinct read serves here
  have apart := keepsApart_of_distinct names distinct serves.declares here op
  have noText : op.family ≠ .text := by simp [family]
  obtain ⟨rest', reading', hpath, hreading, hmeets, -⟩ :=
    asksAlong_of_build strict noText decides apart hnode hcompiled hcontributes
  cases List.append_cancel_left hpath
  cases hreading.symm.trans serves.readingAt?_eq
  rw [accepts_iff_satisfies hnode hcompiled]
  exact hmeets r

end Builds

end BracketFilter
