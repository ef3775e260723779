import BracketFilter.Binding
import BracketFilter.Proofs.Traversal

/-!
# Binding, one step at a time

What a binding that succeeds has done, said once, so that no other module unfolds the builder.

* `Leaf.answer` — what one request adds to a leaf; `bindLeaf_ok_iff` — a leaf is bound exactly if
  every request is answered, and holds the answers in the order of the requests.
* `bindScalar_ok_iff` — a parameter is bound exactly if its value, if there is one, is read.
* `FieldBound` — the entry that a field gives, where a relation tells which nodes embedded filters
  give; `EntryBound` — the same for a field that gives one.
* `buildNode_ok_iff` — a node is bound exactly if each of its fields is; `mem_entries_iff` — its
  entries are those that the fields give.

Principal results: `position_induct` — what each position takes over from the positions below its
fields holds at every position; `buildNode_induct` — what each step hands on from the embedded nodes
to the node holds of every bound node.
-/

set_option autoImplicit false

namespace BracketFilter

open BracketFilter.Text

variable {ι : Type}

/-! ## Leaves -/

/-- What one request adds to a leaf of a type: `none` if nothing is asked for. -/
def Leaf.answer (site : Site) (type : LeafType) (request : Option String × Operation × String) :
    Except BindError (Option Applied) :=
  match operandType? type request.1 with
  | none => .ok none
  | some operand => read site request.1 operand.kind request.2.1 request.2.2

theorem Leaf.apply_eq (leaf : Leaf) (site : Site) (member : Option String) (op : Operation)
    (raw : String) :
    leaf.apply site member op raw = leaf.extend (answer site leaf.type (member, op, raw)) := by
  unfold apply answer
  cases operandType? leaf.type member <;> rfl

theorem Leaf.extend_eq_appended_iff {leaf next : Leaf} {asked : Except BindError (Option Applied)} :
    leaf.extend asked = (.ok true, next) ↔
      ∃ applied, asked = .ok (some applied) ∧ next = ⟨leaf.type, leaf.operations ++ [applied]⟩ := by
  rcases asked with e | _ | applied <;> simp [extend, eq_comm]

namespace Binder

/-- The requests on a leaf are answered in order; the answers stand behind what was there. -/
theorem applyAll_eq (site : Site) (leaf : Leaf)
    (requests : List (Option String × Operation × String)) :
    applyAll site leaf requests =
      (requests.mapM (Leaf.answer site leaf.type)).map fun answers =>
        ⟨leaf.type, leaf.operations ++ answers.filterMap id⟩ := by
  induction requests generalizing leaf with
  | nil => simp [applyAll, pure, Except.pure, Except.map]
  | cons request rest ih =>
    obtain ⟨member, op, raw⟩ := request
    rw [mapM_cons_eq]
    simp only [applyAll, Leaf.apply_eq]
    rcases Leaf.answer site leaf.type (member, op, raw) with e | _ | applied
    · rfl
    · simp only [Leaf.extend, ih]
      cases rest.mapM (Leaf.answer site leaf.type) <;> rfl
    · simp only [Leaf.extend, ih]
      cases rest.mapM (Leaf.answer site leaf.type) with
      | error e => rfl
      | ok answers => simp [Except.map]

/-- The entry of a leaf with these operations; one without operations has none. -/
def leafEntry (type : LeafType) (operations : List Applied) : Option (Entry ι) :=
  if operations = [] then none else some (.leaf ⟨type, operations⟩)

theorem bindLeaf_eq (b : Binder) (q : Query) (path : Path) (type : LeafType) :
    (b.bindLeaf q path type : Except BindError (Option (Entry ι))) =
      ((leafRequests q path type).mapM (Leaf.answer (b.site path) type)).map fun answers =>
        leafEntry type (answers.filterMap id) := by
  unfold bindLeaf
  rw [applyAll_eq]
  simp only [Leaf.empty, List.nil_append]
  cases (leafRequests q path type).mapM (Leaf.answer (b.site path) type) with
  | error e => rfl
  | ok answers => simp only [Except.map, leafEntry, Leaf.isEmpty, List.isEmpty_iff]

/-- **A leaf is bound exactly if every request on it is answered.** -/
theorem bindLeaf_ok_iff {b : Binder} {q : Query} {path : Path} {type : LeafType}
    {entry : Option (Entry ι)} :
    b.bindLeaf q path type = .ok entry ↔
      ∃ answers, List.Forall₂ (fun r a => Leaf.answer (b.site path) type r = .ok a)
          (leafRequests q path type) answers ∧
        leafEntry type (answers.filterMap id) = entry := by
  rw [bindLeaf_eq, map_ok_iff]
  simp only [mapM_ok_iff]

theorem exists_leaf_of_bindLeaf {b : Binder} {q : Query} {path : Path} {type : LeafType}
    {entry : Entry ι} (h : b.bindLeaf q path type = .ok (some entry)) :
    ∃ leaf, entry = .leaf leaf := by
  obtain ⟨answers, -, hentry⟩ := bindLeaf_ok_iff.1 h
  unfold leafEntry at hentry
  split at hentry
  · cases hentry
  · cases hentry
    exact ⟨_, rfl⟩

theorem mem_operations_iff {b : Binder} {q : Query} {path : Path} {type : LeafType}
    {entry : Option (Entry ι)} (h : b.bindLeaf q path type = .ok entry) {applied : Applied} :
    (∃ leaf, entry = some (.leaf leaf) ∧ applied ∈ leaf.operations) ↔
      ∃ request ∈ leafRequests q path type,
        Leaf.answer (b.site path) type request = .ok (some applied) := by
  obtain ⟨answers, hanswers, rfl⟩ := bindLeaf_ok_iff.1 h
  have hmem : applied ∈ answers.filterMap id ↔ some applied ∈ answers := by simp
  unfold leafEntry
  constructor
  · rintro ⟨leaf, hleaf, happlied⟩
    split at hleaf
    · cases hleaf
    · cases hleaf
      obtain ⟨request, hrequest, hanswer⟩ :=
        exists_of_mem_forall₂ hanswers.flip (hmem.1 happlied)
      exact ⟨request, hrequest, hanswer⟩
  · rintro ⟨request, hrequest, hanswer⟩
    obtain ⟨answer, hin, hsame⟩ := exists_of_mem_forall₂ hanswers hrequest
    cases hanswer.symm.trans hsame
    have happlied := hmem.2 hin
    exact ⟨_, if_neg (List.ne_nil_of_mem happlied), happlied⟩

/-! ## Parameters -/

theorem bindScalar_of_none {b : Binder} {q : Query} {path : Path} {type : ValueType}
    (h : q.get? path none = none) :
    (b.bindScalar q path type : Except BindError (Option (Entry ι))) = .ok none := by
  simp only [bindScalar, h]

theorem bindScalar_of_some {b : Binder} {q : Query} {path : Path} {type : ValueType} {raw : String}
    (h : q.get? path none = some raw) :
    (b.bindScalar q path type : Except BindError (Option (Entry ι))) =
      ((b.site path).coerce none type.kind raw).map fun value => some (.scalar value) := by
  simp only [bindScalar, h]
  cases (b.site path).coerce none type.kind raw <;> rfl

/-- **A parameter is bound exactly if its key is missing or its value is read.** -/
theorem bindScalar_ok_iff {b : Binder} {q : Query} {path : Path} {type : ValueType}
    {entry : Option (Entry ι)} :
    b.bindScalar q path type = .ok entry ↔
      q.get? path none = none ∧ entry = none ∨
        ∃ raw value, q.get? path none = some raw ∧ b.coercer raw type.kind = .ok value ∧
          entry = some (.scalar value) := by
  unfold bindScalar
  cases q.get? path none with
  | none => simp [eq_comm (a := entry)]
  | some raw =>
    simp only [reduceCtorEq, false_and, false_or, Option.some.injEq, site, Site.coerce]
    cases hread : b.coercer raw type.kind with
    | error e => simp [hread]
    | ok value => simp [hread, eq_comm (a := entry)]

/-! ## Fields and nodes -/

theorem nestedEntry_eq_some_iff {child : Node ι} {entry : Entry ι} :
    nestedEntry child = some entry ↔ child.isEmpty = false ∧ entry = .nested child := by
  unfold nestedEntry
  cases child.isEmpty <;> simp [eq_comm]

/-- The entry of the field at a path, at a depth below the root. -/
def bindField (b : Binder) (shapes : ι → Shape ι) (q : Query) (here : Path) (depth : Nat) :
    Role ι → Except BindError (Option (Entry ι))
  | .scalar type => b.bindScalar q here type
  | .leaf type => b.bindLeaf q here type
  | .nested target =>
    if q.reaches here = true then
      if depth < b.limits.maxDepth then
        (b.buildNode shapes q (shapes target) here (depth + 1)).map nestedEntry
      else .error (b.tooDeep here)
    else .ok none
  | .list target =>
    if q.reaches here = true then
      if depth < b.limits.maxDepth then
        b.closeList here (q.listLength here) <|
          (List.range (min (q.listLength here) b.limits.maxListItems)).mapM fun i =>
            b.buildNode shapes q (shapes target) (here ++ [.index i]) (depth + 1)
      else .error (b.tooDeep here)
    else .ok none

/-- A node takes the entries of its fields in the order of their declaration. -/
theorem buildNode_eq (b : Binder) (shapes : ι → Shape ι) (q : Query) (shape : Shape ι)
    (path : Path) (depth : Nat) :
    b.buildNode shapes q shape path depth =
      (shape.fields.mapM fun field =>
        (b.bindField shapes q (path ++ [.named field.name]) depth field.role).map
          (labelled field)).map (assemble shape) := by
  rw [buildNode]
  rfl

/-- The entry that a field at a path gives. `Bound` tells which nodes its embedded filters give. -/
inductive FieldBound (b : Binder) (shapes : ι → Shape ι) (q : Query)
    (Bound : Shape ι → Path → Nat → Node ι → Prop) (here : Path) (depth : Nat) :
    Role ι → Option (Entry ι) → Prop
  | scalar {type : ValueType} {entry : Option (Entry ι)}
      (bound : b.bindScalar q here type = .ok entry) :
      FieldBound b shapes q Bound here depth (.scalar type) entry
  | leaf {type : LeafType} {entry : Option (Entry ι)} (bound : b.bindLeaf q here type = .ok entry) :
      FieldBound b shapes q Bound here depth (.leaf type) entry
  | nested {target : ι} {child : Node ι} (reached : q.reaches here = true)
      (within : depth < b.limits.maxDepth) (bound : Bound (shapes target) here (depth + 1) child) :
      FieldBound b shapes q Bound here depth (.nested target) (nestedEntry child)
  | noNested {target : ι} (unreached : q.reaches here = false) :
      FieldBound b shapes q Bound here depth (.nested target) none
  | list {target : ι} {items : List (Node ι)} (reached : q.reaches here = true)
      (within : depth < b.limits.maxDepth) (short : q.listLength here ≤ b.limits.maxListItems)
      (length : items.length = q.listLength here)
      (bound : ∀ i (h : i < items.length),
        Bound (shapes target) (here ++ [.index i]) (depth + 1) items[i]) :
      FieldBound b shapes q Bound here depth (.list target) (listEntry items)
  | noList {target : ι} (unreached : q.reaches here = false) :
      FieldBound b shapes q Bound here depth (.list target) none

/-- A node is built for a shape at a path, at a depth below the root. -/
abbrev Builds (b : Binder) (shapes : ι → Shape ι) (q : Query) (shape : Shape ι) (path : Path)
    (depth : Nat) (node : Node ι) : Prop := b.buildNode shapes q shape path depth = .ok node

theorem mapM_range_ok_iff {n : Nat} {f : Nat → Except BindError (Node ι)} {items : List (Node ι)} :
    (List.range n).mapM f = .ok items ↔
      items.length = n ∧ ∀ i (h : i < items.length), f i = .ok items[i] := by
  rw [mapM_ok_iff, List.forall₂_iff_get]
  simp only [List.length_range, List.get_eq_getElem, List.getElem_range]
  constructor
  · rintro ⟨hlength, hget⟩
    exact ⟨hlength.symm, fun i h => hget i (hlength ▸ h) h⟩
  · rintro ⟨hlength, hget⟩
    exact ⟨hlength.symm, fun i _ h => hget i h⟩

theorem closeList_of_le {b : Binder} {path : Path} {length : Nat}
    (h : length ≤ b.limits.maxListItems) (items : Except BindError (List (Node ι))) :
    b.closeList path length items = items.map listEntry := by
  have hshort : ¬ b.limits.maxListItems < length := by omega
  cases items with
  | error e => rfl
  | ok nodes => simp only [closeList, if_neg hshort, Except.map]

theorem closeList_of_lt {b : Binder} {path : Path} {length : Nat}
    (h : b.limits.maxListItems < length) (items : Except BindError (List (Node ι))) :
    b.closeList path length items = items.bind fun _ => .error (b.tooLong path) := by
  cases items with
  | error e => rfl
  | ok nodes => simp only [closeList, if_pos h, Except.bind]

theorem closeList_ok_iff {b : Binder} {path : Path} {length : Nat}
    {items : Except BindError (List (Node ι))} {entry : Option (Entry ι)} :
    b.closeList path length items = .ok entry ↔
      length ≤ b.limits.maxListItems ∧ ∃ nodes, items = .ok nodes ∧ entry = listEntry nodes := by
  unfold closeList
  cases items with
  | error e => simp
  | ok nodes =>
    by_cases hlimit : b.limits.maxListItems < length
    · simp only [if_pos hlimit, reduceCtorEq, false_iff, not_and]
      intro hle
      omega
    · simp only [if_neg hlimit, Except.ok.injEq, exists_eq_left', eq_comm (a := entry)]
      exact ⟨fun h => ⟨by omega, h⟩, And.right⟩

/-- **A field is bound exactly by one of the rules.** -/
theorem bindField_ok_iff {b : Binder} {shapes : ι → Shape ι} {q : Query} {here : Path}
    {depth : Nat} {role : Role ι} {entry : Option (Entry ι)} :
    b.bindField shapes q here depth role = .ok entry ↔
      FieldBound b shapes q (Builds b shapes q) here depth role entry := by
  constructor
  · intro h
    cases role with
    | scalar type => exact .scalar h
    | leaf type => exact .leaf h
    | nested target =>
      simp only [bindField] at h
      split at h
      · rename_i hreached
        split at h
        · rename_i hwithin
          obtain ⟨child, hchild, rfl⟩ := map_ok_iff.1 h
          exact .nested hreached hwithin hchild
        · cases h
      · rename_i hunreached
        cases h
        exact .noNested (by simpa using hunreached)
    | list target =>
      simp only [bindField] at h
      split at h
      · rename_i hreached
        split at h
        · rename_i hwithin
          obtain ⟨hshort, items, hitems, rfl⟩ := closeList_ok_iff.1 h
          rw [Nat.min_eq_left hshort] at hitems
          obtain ⟨hlength, hbound⟩ := mapM_range_ok_iff.1 hitems
          exact .list hreached hwithin hshort hlength hbound
        · cases h
      · rename_i hunreached
        cases h
        exact .noList (by simpa using hunreached)
  · intro h
    cases h with
    | scalar bound => exact bound
    | leaf bound => exact bound
    | nested reached within bound =>
      simp only [bindField, if_pos reached, if_pos within]
      exact map_ok_iff.2 ⟨_, bound, rfl⟩
    | noNested unreached => simp [bindField, unreached]
    | list reached within short length bound =>
      simp only [bindField, if_pos reached, if_pos within, Nat.min_eq_left short]
      exact closeList_ok_iff.2 ⟨short, _, mapM_range_ok_iff.2 ⟨length, bound⟩, rfl⟩
    | noList unreached => simp [bindField, unreached]

/-- An embedded filter gives an entry exactly if some key reaches it, within the depth, and it asks
for something. -/
theorem bindField_nested_eq_some_iff {b : Binder} {shapes : ι → Shape ι} {q : Query} {here : Path}
    {depth : Nat} {target : ι} {entry : Entry ι} :
    b.bindField shapes q here depth (.nested target) = .ok (some entry) ↔
      q.reaches here = true ∧ depth < b.limits.maxDepth ∧ ∃ child,
        b.buildNode shapes q (shapes target) here (depth + 1) = .ok child ∧
          child.isEmpty = false ∧ entry = .nested child := by
  simp only [bindField]
  split
  · rename_i hreached
    split
    · rename_i hwithin
      simp only [map_ok_iff, nestedEntry_eq_some_iff, hreached, hwithin, true_and]
    · rename_i hdeep
      simp [hdeep]
  · rename_i hunreached
    simp [hunreached]

/-- What a field gives for a node: its entry with its name. -/
def FieldGives (b : Binder) (shapes : ι → Shape ι) (q : Query)
    (Bound : Shape ι → Path → Nat → Node ι → Prop) (path : Path) (depth : Nat)
    (field : FieldShape ι) (given : Option (String × Entry ι)) : Prop :=
  ∃ entry, FieldBound b shapes q Bound (path ++ [.named field.name]) depth field.role entry ∧
    given = labelled field entry

/-- **A node is bound exactly if each of its fields is.** -/
theorem buildNode_ok_iff {b : Binder} {shapes : ι → Shape ι} {q : Query} {shape : Shape ι}
    {path : Path} {depth : Nat} {node : Node ι} :
    b.buildNode shapes q shape path depth = .ok node ↔
      ∃ given, List.Forall₂ (FieldGives b shapes q (Builds b shapes q) path depth) shape.fields
          given ∧
        node = assemble shape given := by
  have step (field : FieldShape ι) (y : Option (String × Entry ι)) :
      (b.bindField shapes q (path ++ [.named field.name]) depth field.role).map (labelled field) =
          .ok y ↔
        FieldGives b shapes q (Builds b shapes q) path depth field y := by
    rw [map_ok_iff]
    simp only [bindField_ok_iff, FieldGives, eq_comm (a := y)]
  rw [buildNode_eq, map_ok_iff]
  simp only [mapM_ok_iff, step, eq_comm (a := node)]

theorem mem_entries_iff {b : Binder} {shapes : ι → Shape ι} {q : Query} {shape : Shape ι}
    {path : Path} {depth : Nat} {node : Node ι}
    (h : b.buildNode shapes q shape path depth = .ok node) {name : String} {entry : Entry ι} :
    (name, entry) ∈ node.entries ↔ ∃ field ∈ shape.fields, field.name = name ∧
      b.bindField shapes q (path ++ [.named field.name]) depth field.role = .ok (some entry) := by
  obtain ⟨given, hgiven, rfl⟩ := buildNode_ok_iff.1 h
  have hmem : (name, entry) ∈ (assemble shape given).entries ↔ some (name, entry) ∈ given := by
    simp [assemble, Node.entries]
  rw [hmem]
  constructor
  · intro hin
    obtain ⟨field, hfield, found, hfound, hlabelled⟩ := exists_of_mem_forall₂ hgiven.flip hin
    obtain ⟨_, rfl, hpair⟩ := Option.map_eq_some_iff.1 hlabelled.symm
    cases hpair
    exact ⟨field, hfield, rfl, bindField_ok_iff.2 hfound⟩
  · rintro ⟨field, hfield, rfl, hbound⟩
    obtain ⟨_, hin, found, hfound, rfl⟩ := exists_of_mem_forall₂ hgiven hfield
    rw [bindField_ok_iff.2 hfound] at hbound
    cases hbound
    exact hin

/-- A field gives the same if fewer nodes count as given by its embedded filters, as long as its own
do. -/
theorem FieldBound.imp {b : Binder} {shapes : ι → Shape ι} {q : Query}
    {Bound Bound' : Shape ι → Path → Nat → Node ι → Prop} {here : Path} {depth : Nat}
    {role : Role ι} {entry : Option (Entry ι)}
    (h : FieldBound b shapes q Bound here depth role entry)
    (imp : ∀ target p node, q.reaches here = true → here <+: p →
      Bound (shapes target) p (depth + 1) node → Bound' (shapes target) p (depth + 1) node) :
    FieldBound b shapes q Bound' here depth role entry := by
  cases h with
  | scalar bound => exact .scalar bound
  | leaf bound => exact .leaf bound
  | nested reached within bound =>
    exact .nested reached within (imp _ _ _ reached (List.prefix_refl _) bound)
  | noNested unreached => exact .noNested unreached
  | list reached within short length bound =>
    exact .list reached within short length fun i h =>
      imp _ _ _ reached (List.prefix_append _ _) (bound i h)
  | noList unreached => exact .noList unreached

/-- The entry of a field that gives one, by what it asks for. -/
inductive EntryBound (b : Binder) (shapes : ι → Shape ι) (q : Query)
    (Bound : Shape ι → Path → Nat → Node ι → Prop) (here : Path) (depth : Nat) :
    Role ι → Entry ι → Prop
  | scalar {type : ValueType} {raw : String} {value : Value} (found : q.get? here none = some raw)
      (read : b.coercer raw type.kind = .ok value) :
      EntryBound b shapes q Bound here depth (.scalar type) (.scalar value)
  | leaf {type : LeafType} {answers : List (Option Applied)}
      (answered : List.Forall₂ (fun r a => Leaf.answer (b.site here) type r = .ok a)
        (leafRequests q here type) answers)
      (asks : answers.filterMap id ≠ []) :
      EntryBound b shapes q Bound here depth (.leaf type) (.leaf ⟨type, answers.filterMap id⟩)
  | nested {target : ι} {child : Node ι} (reached : q.reaches here = true)
      (within : depth < b.limits.maxDepth) (bound : Bound (shapes target) here (depth + 1) child)
      (asks : child.isEmpty = false) :
      EntryBound b shapes q Bound here depth (.nested target) (.nested child)
  | list {target : ι} {items : List (Node ι)} (reached : q.reaches here = true)
      (within : depth < b.limits.maxDepth) (short : q.listLength here ≤ b.limits.maxListItems)
      (length : items.length = q.listLength here)
      (bound : ∀ i (h : i < items.length),
        Bound (shapes target) (here ++ [.index i]) (depth + 1) items[i])
      (asks : items ≠ []) : EntryBound b shapes q Bound here depth (.list target) (.list items)

theorem FieldBound.entryBound {b : Binder} {shapes : ι → Shape ι} {q : Query}
    {Bound : Shape ι → Path → Nat → Node ι → Prop} {here : Path} {depth : Nat} {role : Role ι}
    {entry : Entry ι} (h : FieldBound b shapes q Bound here depth role (some entry)) :
    EntryBound b shapes q Bound here depth role entry := by
  generalize hgiven : some entry = given at h
  cases h with
  | scalar bound =>
    subst hgiven
    rcases bindScalar_ok_iff.1 bound with ⟨-, hnone⟩ | ⟨raw, value, hfound, hread, hsome⟩
    · cases hnone
    · cases hsome
      exact .scalar hfound hread
  | leaf bound =>
    obtain ⟨answers, hanswers, rfl⟩ := bindLeaf_ok_iff.1 bound
    unfold leafEntry at hgiven
    split at hgiven
    · cases hgiven
    · rename_i hasks
      cases hgiven
      exact .leaf hanswers hasks
  | nested reached within bound =>
    obtain ⟨hasks, rfl⟩ := nestedEntry_eq_some_iff.1 hgiven.symm
    exact .nested reached within bound hasks
  | noNested unreached => cases hgiven
  | list reached within short length bound =>
    unfold listEntry at hgiven
    split at hgiven
    · cases hgiven
    · rename_i hasks
      cases hgiven
      exact .list reached within short length bound (by simpa using hasks)
  | noList unreached => cases hgiven

/-- Fewer segments are left below a field that some key reaches. -/
theorem depth_sub_lt {q : Query} {path p : Path} {name : String}
    (reached : q.reaches (path ++ [.named name]) = true) (below : path ++ [.named name] <+: p) :
    q.depth - p.length < q.depth - path.length := by
  have hdepth := Query.length_le_depth_of_reaches reached
  have hlength := below.length_le
  simp only [List.length_append, List.length_cons, List.length_nil] at hdepth hlength
  omega

/-- **Induction over positions.** What holds at a position as soon as it holds below each of its
fields that some key reaches holds at every position. -/
theorem position_induct {q : Query} {motive : Shape ι → Path → Nat → Prop}
    (step : ∀ shape path depth,
      (∀ name target p, q.reaches (path ++ [.named name]) = true → path ++ [.named name] <+: p →
        motive target p (depth + 1)) →
      motive shape path depth)
    (shape : Shape ι) (path : Path) (depth : Nat) : motive shape path depth :=
  step shape path depth fun _ target p reached below =>
    have := depth_sub_lt reached below
    position_induct step target p (depth + 1)
  termination_by q.depth - path.length

/-- **Induction over a binding.** If every step hands a property on from the nodes of the embedded
filters to the node, it holds of every bound node. -/
theorem buildNode_induct {b : Binder} {shapes : ι → Shape ι} {q : Query}
    {motive : Shape ι → Path → Nat → Node ι → Prop}
    (step : ∀ shape path depth given,
      List.Forall₂ (FieldGives b shapes q motive path depth) shape.fields given →
      motive shape path depth (assemble shape given))
    {shape : Shape ι} {path : Path} {depth : Nat} {node : Node ι}
    (h : b.buildNode shapes q shape path depth = .ok node) : motive shape path depth node := by
  refine position_induct (q := q) (motive := fun shape path depth => ∀ node,
    b.buildNode shapes q shape path depth = .ok node → motive shape path depth node) ?_
    shape path depth node h
  intro shape path depth ih node h
  obtain ⟨given, hgiven, rfl⟩ := buildNode_ok_iff.1 h
  refine step _ _ _ _ (hgiven.imp ?_)
  rintro field _ ⟨entry, hentry, rfl⟩
  exact ⟨entry, hentry.imp fun target p node hreached hbelow => ih _ _ p hreached hbelow node, rfl⟩

end Binder

end BracketFilter
