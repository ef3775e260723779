import BracketFilter.Proofs.Conjunction
import BracketFilter.Proofs.LeafExact

/-!
# Requests of one key

* `Query.asking` — the query with one key, which asks for an operation at a path.
* `Role.Declares`, `Shape.Declares` — a path is that of a parameter, a leaf or a member.
* `Shape.KeepsApart` — a key with an operation is not the bare key of something else as well.
* `addressed` — the operands of a leaf that the path of the key leads to.

Principal results: `keepsApart_of_distinct` — with distinct names nothing is declared behind the
path of a parameter, a leaf or a member, so that keys with operations there are kept apart;
`leafRequests_asking` — a leaf is asked for the operation on the operands that are addressed.
-/

set_option autoImplicit false

namespace BracketFilter

open BracketFilter.Text

variable {ι : Type}

/-! ## Queries with one key -/

namespace Query

/-- The query with one key, which asks for an operation at a path. -/
def asking (path : Path) (op : Operation) (raw : String) : Query := single (⟨path, some op⟩, raw)

variable {path : Path} {op : Operation} {raw : String}

theorem ofPairs_singleton {text : String} (read : Key.parse? text = some ⟨path, some op⟩)
    (raw : String) : ofPairs [(text, raw)] = asking path op raw := by
  simp only [ofPairs, List.foldl_cons, List.foldl_nil, insertRaw, read]
  rfl

theorem mem_entries_asking {entry : Key × String} :
    entry ∈ (asking path op raw).entries ↔ entry = (⟨path, some op⟩, raw) := List.mem_singleton

theorem reaches_asking_iff {p : Path} : (asking path op raw).reaches p = true ↔ p <+: path := by
  rw [reaches_iff]
  constructor
  · rintro ⟨key, hkey, hbelow⟩
    cases List.mem_singleton.1 hkey
    exact hbelow
  · intro hbelow
    exact ⟨_, List.mem_singleton_self _, hbelow⟩

/-- What is reached does not depend on what is asked for. -/
theorem reaches_asking (op' : Operation) (raw' : String) (p : Path) :
    (asking path op raw).reaches p = (asking path op' raw').reaches p := by
  rw [Bool.eq_iff_iff, reaches_asking_iff, reaches_asking_iff]

theorem listLength_asking (op' : Operation) (raw' : String) (p : Path) :
    (asking path op raw).listLength p = (asking path op' raw').listLength p :=
  listLength_congr fun _ => reaches_asking op' raw' _

theorem listLength_asking_le_one (p : Path) : (asking path op raw).listLength p ≤ 1 := by
  by_contra hlong
  have hreached := lt_listLength_iff.1 (show 1 < (asking path op raw).listLength p by omega)
  have hfirst := reaches_asking_iff.1 (hreached 0 (by omega))
  have hsecond := reaches_asking_iff.1 (hreached 1 (by omega))
  have hsame := (List.prefix_of_prefix_length_le hfirst hsecond (by simp)).eq_of_length (by simp)
  simp at hsame

/-- With an operation, the value is found for the operation and at the path of the key alone. -/
theorem get?_asking_some (p : Path) (o : Operation) :
    (asking path op raw).get? p (some o) = if p = path ∧ o = op then some raw else none := by
  apply Option.ext
  intro value
  rw [get?_eq_some_iff]
  simp only [mem_entries_asking, Prod.mk.injEq, Key.mk.injEq, Option.some.injEq, reduceCtorEq,
    false_and, and_false, or_false]
  split
  · rename_i hkey
    simp only [hkey, true_and, and_self, Option.some.injEq, eq_comm]
  · rename_i hkey
    simp only [hkey, false_and, reduceCtorEq]

/-- The bare key of a field is the key only if that is written with the field as its operation. -/
theorem get?_asking_none {parent : Path} {name : String}
    (apart : parent ++ [.named name] ≠ path ++ [.field op.tag]) :
    (asking path op raw).get? (parent ++ [.named name]) none = none := by
  rw [Option.eq_none_iff_forall_ne_some]
  intro value hvalue
  rcases get?_eq_some_iff.1 hvalue with hentry | ⟨-, -, key, has, hentry⟩
  · cases mem_entries_asking.1 hentry
  · cases mem_entries_asking.1 hentry
    have hfull := Key.full_of_asOperation?_named has
    rw [Key.full_operation] at hfull
    exact apart hfull.symm

end Query

/-! ## What a shape declares -/

/-- Behind the path of a field, a path is that of the parameter, the leaf or a member of it, or of
one of these in an embedded filter. -/
inductive Role.Declares (shapes : ι → Shape ι) : Role ι → Path → Prop
  | parameter {type : ValueType} : Declares shapes (.scalar type) []
  | leaf {type : ValueType} : Declares shapes (.leaf (.primitive type)) []
  | member {type : Composite} {m : Member} (mem : m ∈ type.members) :
      Declares shapes (.leaf (.composite type)) [.named m.name]
  | nested {target : ι} {field : FieldShape ι} {rest : Path} (mem : field ∈ (shapes target).fields)
      (inner : Declares shapes field.role rest) :
      Declares shapes (.nested target) (.named field.name :: rest)
  | list {target : ι} {index : Nat} {field : FieldShape ι} {rest : Path}
      (mem : field ∈ (shapes target).fields) (inner : Declares shapes field.role rest) :
      Declares shapes (.list target) (.index index :: .named field.name :: rest)

/-- Below the path of a shape, a path is that of a parameter, a leaf or a member that the shape
declares. -/
def Shape.Declares (shapes : ι → Shape ι) (shape : Shape ι) (path : Path) : Prop :=
  ∃ field ∈ shape.fields, ∃ rest, path = .named field.name :: rest ∧ field.role.Declares shapes rest

/-- The key with an operation at a path is not the bare key of a parameter, a leaf or a member that
the shape at `here` declares. -/
def Shape.KeepsApart (shapes : ι → Shape ι) (shape : Shape ι) (here path : Path)
    (op : Operation) : Prop :=
  ∀ rest, path ++ [.field op.tag] = here ++ rest → ¬ shape.Declares shapes rest

section Declares

variable {shapes : ι → Shape ι} {shape : Shape ι}

theorem Shape.DistinctNames.field_ext (distinct : shape.DistinctNames) {field field' : FieldShape ι}
    (mem : field ∈ shape.fields) (mem' : field' ∈ shape.fields)
    (same : Segment.named field.name = .named field'.name) : field = field' :=
  List.inj_on_of_nodup_map distinct.fields mem mem' (Segment.field.inj same)

theorem Role.Declares.not_concat (family : ∀ i, (shapes i).DistinctNames) {role : Role ι}
    {rest : Path} (h : role.Declares shapes rest) (segment : Segment) :
    ¬ role.Declares shapes (rest ++ [segment]) := by
  induction h with
  | parameter => rintro ⟨⟩
  | leaf => rintro ⟨⟩
  | @member type m mem =>
    intro h
    generalize hpath : [Segment.named m.name] ++ [segment] = path at h
    cases h
    have hbehind := (List.cons.inj hpath).2
    cases hbehind
  | @nested target field rest mem inner ih =>
    intro h
    generalize hpath : Segment.named field.name :: rest ++ [segment] = path at h
    cases h with
    | nested mem' inner' =>
      rw [List.cons_append, List.cons.injEq] at hpath
      obtain ⟨hname, rfl⟩ := hpath
      cases (family target).field_ext mem mem' hname
      exact ih inner'
  | @list target index field rest mem inner ih =>
    intro h
    generalize hpath : Segment.index index :: .named field.name :: rest ++ [segment] = path at h
    cases h with
    | list mem' inner' =>
      rw [List.cons_append, List.cons_append, List.cons.injEq, List.cons.injEq] at hpath
      obtain ⟨-, hname, rfl⟩ := hpath
      cases (family target).field_ext mem mem' hname
      exact ih inner'

/-- **With distinct names, the keys with operations at the path of a parameter, a leaf or a member
are kept apart** from the bare keys of all others. -/
theorem keepsApart_of_distinct (family : ∀ i, (shapes i).DistinctNames)
    (distinct : shape.DistinctNames) {rest : Path} (h : shape.Declares shapes rest) (here : Path)
    (op : Operation) : shape.KeepsApart shapes here (here ++ rest) op := by
  rintro longer hlonger ⟨field', mem', rest', rfl, inner'⟩
  obtain ⟨field, mem, rest, rfl, inner⟩ := h
  rw [List.append_assoc, List.append_cancel_left_eq, List.cons_append, List.cons.injEq] at hlonger
  obtain ⟨hname, rfl⟩ := hlonger
  cases distinct.field_ext mem mem' hname
  exact inner.not_concat family _ inner'

end Declares

/-! ## Positions on the way -/

namespace Shape.KeepsApart

variable {shapes : ι → Shape ι} {shape : Shape ι} {here path : Path} {op : Operation}
  (apart : shape.KeepsApart shapes here path op) {field : FieldShape ι} (mem : field ∈ shape.fields)

include apart mem

theorem ne_of_declares {rest : Path} (h : field.role.Declares shapes rest) :
    here ++ [.named field.name] ++ rest ≠ path ++ [.field op.tag] := by
  intro hpath
  rw [List.append_assoc] at hpath
  exact apart _ hpath.symm ⟨field, mem, rest, rfl, h⟩

/-- What is kept apart at a shape is kept apart at the shapes of its embedded filters. -/
theorem nested {target : ι} (role : field.role = .nested target) :
    (shapes target).KeepsApart shapes (here ++ [.named field.name]) path op := by
  rintro _ hpath ⟨inner, memInner, rest, rfl, hinner⟩
  refine apart (.named field.name :: .named inner.name :: rest) ?_ ⟨field, mem, _, rfl, ?_⟩
  · rw [hpath, List.append_assoc]
    rfl
  · rw [role]
    exact .nested memInner hinner

theorem list {target : ι} (role : field.role = .list target) (index : Nat) :
    (shapes target).KeepsApart shapes (here ++ [.named field.name] ++ [.index index]) path op := by
  rintro _ hpath ⟨inner, memInner, rest, rfl, hinner⟩
  refine apart (.named field.name :: .index index :: .named inner.name :: rest) ?_
    ⟨field, mem, _, rfl, ?_⟩
  · rw [hpath, List.append_assoc, List.append_assoc]
    rfl
  · rw [role]
    exact .list memInner hinner

theorem ne_of_mem_operands {type : LeafType} (role : field.role = .leaf type)
    {operand : Option String × Path} (h : operand ∈ operands (here ++ [.named field.name]) type) :
    ∃ parent name, operand.2 = parent ++ [.named name] ∧
      parent ++ [.named name] ≠ path ++ [.field op.tag] := by
  cases type with
  | primitive type =>
    cases List.mem_singleton.1 h
    have hdeclares : field.role.Declares shapes [] := by
      rw [role]
      exact .leaf
    have hne := apart.ne_of_declares mem hdeclares
    rw [List.append_nil] at hne
    exact ⟨here, field.name, rfl, hne⟩
  | composite type =>
    obtain ⟨m, hm, rfl⟩ := List.mem_map.1 h
    have hdeclares : field.role.Declares shapes [.named m.name] := by
      rw [role]
      exact .member hm
    exact ⟨_, m.name, rfl, apart.ne_of_declares mem hdeclares⟩

end Shape.KeepsApart

/-! ## What a leaf is asked for -/

/-- The operands of a leaf that a path leads to: the leaf itself, or members of it. -/
def addressed (here path : Path) (type : LeafType) : List (Option String) :=
  ((operands here type).filter fun operand => decide (operand.2 = path)).map Prod.fst

theorem mem_addressed_iff {here path : Path} {type : LeafType} {member : Option String} :
    member ∈ addressed here path type ↔ (member, path) ∈ operands here type := by
  unfold addressed
  rw [List.mem_map]
  constructor
  · rintro ⟨⟨_, p⟩, hoperand, rfl⟩
    obtain ⟨hmem, hpath⟩ := List.mem_filter.1 hoperand
    cases of_decide_eq_true hpath
    exact hmem
  · intro hmem
    exact ⟨_, List.mem_filter.2 ⟨hmem, decide_eq_true rfl⟩, rfl⟩

/-- At one operand, the lookups find the value if the key is at its path. -/
theorem filterMap_lookups_asking {path p : Path} {op : Operation} {raw : String}
    (member : Option String) (bare : (Query.asking path op raw).get? p none = none) :
    (lookups.filterMap fun lookup => ((Query.asking path op raw).get? p lookup).map fun raw =>
        (member, lookup.getD .eq, raw)) = if p = path then [(member, op, raw)] else [] := by
  unfold lookups
  rw [List.filterMap_append, List.filterMap_map]
  simp only [Function.comp_def, Query.get?_asking_some, List.filterMap_cons, bare, Option.map_none,
    List.filterMap_nil, List.append_nil]
  by_cases hp : p = path
  · rw [if_pos hp]
    simp only [hp, true_and]
    cases op <;> rfl
  · rw [if_neg hp]
    simp only [hp, false_and, if_false, Option.map_none, List.filterMap_none]

/-- **A leaf is asked for the operation on the operands that are addressed**, and for nothing
else. -/
theorem leafRequests_asking {shapes : ι → Shape ι} {shape : Shape ι} {here path : Path}
    {op : Operation} (apart : shape.KeepsApart shapes here path op) {field : FieldShape ι}
    (mem : field ∈ shape.fields) {type : LeafType} (role : field.role = .leaf type) (raw : String) :
    Binder.leafRequests (Query.asking path op raw) (here ++ [.named field.name]) type =
      (addressed (here ++ [.named field.name]) path type).map fun member => (member, op, raw) := by
  have hbare : ∀ operand ∈ operands (here ++ [.named field.name]) type,
      (Query.asking path op raw).get? operand.2 none = none := by
    intro operand hoperand
    obtain ⟨parent, name, hpath, hne⟩ := apart.ne_of_mem_operands mem role hoperand
    rw [hpath]
    exact Query.get?_asking_none hne
  rw [Binder.leafRequests_eq_operands]
  unfold addressed
  generalize operands (here ++ [.named field.name]) type = operands at hbare
  induction operands with
  | nil => rfl
  | cons operand rest ih =>
    rw [List.forall_mem_cons] at hbare
    rw [List.flatMap_cons, filterMap_lookups_asking _ hbare.1, ih hbare.2, List.filter_cons]
    by_cases hpath : operand.2 = path
    · simp [hpath]
    · simp [hpath]

theorem get?_scalar_asking {shapes : ι → Shape ι} {shape : Shape ι} {here path : Path}
    {op : Operation} (apart : shape.KeepsApart shapes here path op) {field : FieldShape ι}
    (mem : field ∈ shape.fields) {type : ValueType} (role : field.role = .scalar type)
    (raw : String) :
    (Query.asking path op raw).get? (here ++ [.named field.name]) none = none := by
  have hdeclares : field.role.Declares shapes [] := by
    rw [role]
    exact .parameter
  have hne := apart.ne_of_declares mem hdeclares
  rw [List.append_nil] at hne
  exact Query.get?_asking_none hne

end BracketFilter
