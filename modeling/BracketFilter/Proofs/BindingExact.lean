import BracketFilter.Proofs.LeafExact

/-!
# Binding loses no request and invents none

* `ExactNode` — a node holds what the keys of a query ask for at its path.
* `exact_of_field`, `exact_of_fields` — a field, and a node, holds what is asked for if the nodes of
  its embedded filters do.

Principal result: `build_exact` — a tree that is bound holds exactly what the keys of the query ask
for: each item comes from a key of its own, and each key whose full path leads to a parameter, a
leaf or a member has its item at that place, unless it is a membership operation that lists nothing.
-/

set_option autoImplicit false

namespace BracketFilter

open BracketFilter.Text

variable {ι : Type}

/-! ## The items of a node -/

/-- The items of what a field gives for a node at a path. -/
def givenItems (path : Path) : Option (String × Entry ι) → List (Path × Item)
  | none => []
  | some (name, entry) => entry.items (path ++ [.named name])

theorem givenItems_labelled (path : Path) (field : FieldShape ι) (entry : Option (Entry ι)) :
    givenItems path (Binder.labelled field entry) =
      optionItems (path ++ [.named field.name]) entry := by
  cases entry <;> rfl

theorem items_assemble (shape : Shape ι) (path : Path) (given : List (Option (String × Entry ι))) :
    (Binder.assemble shape given).items path = (given.map (givenItems path)).flatten := by
  show entryListItems path (given.filterMap id) = _
  induction given with
  | nil => simp [entryListItems]
  | cons x given ih =>
    rcases x with _ | ⟨name, entry⟩
    · simpa [givenItems] using ih
    · show entryListItems path ((name, entry) :: given.filterMap id) = _
      rw [entryListItems, ih, List.map_cons, List.flatten_cons]
      rfl

/-! ## From embedded nodes to a node -/

section Nodes

variable {shapes : ι → Shape ι} {q : Query}

/-- A node for a shape holds what the keys of a query ask for at its path. -/
def ExactNode (coercer : Coercer) (shapes : ι → Shape ι) (q : Query) (shape : Shape ι)
    (path : Path) (node : Node ι) : Prop :=
  Exact coercer q (Resolves shapes q shape path) (node.items path)

/-- A full path that leads from an embedded filter leads from the fields of its shape. -/
theorem leads_nested_iff {target : ι} {here full place : Path} {goal : Target} :
    Leads shapes q (.nested target) here full place goal ↔
      Resolves shapes q (shapes target) here full place goal := by
  constructor
  · intro h
    cases h with
    | nested mem inner => exact ⟨_, mem, inner⟩
  · rintro ⟨field, mem, inner⟩
    exact .nested mem inner

theorem leads_list_iff {target : ι} {here full place : Path} {goal : Target} :
    Leads shapes q (.list target) here full place goal ↔
      ∃ i ∈ List.range (q.listLength here),
        Resolves shapes q (shapes target) (here ++ [.index i]) full place goal := by
  simp only [List.mem_range, Query.lt_listLength_iff, Query.reaches_iff]
  constructor
  · intro h
    cases h with
    | list mentioned mem inner => exact ⟨_, mentioned, _, mem, inner⟩
  · rintro ⟨i, mentioned, field, mem, inner⟩
    exact .list mentioned mem inner

theorem exact_nil_of_unreached {coercer : Coercer} {role : Role ι} {here : Path}
    (unreached : q.reaches here = false)
    (behind : ∀ full place goal, Leads shapes q role here full place goal →
      ∃ segment rest, full = here ++ segment :: rest) :
    Exact coercer q (Leads shapes q role here) [] := by
  refine Exact.nil fun entry hentry place goal hleads => ?_
  obtain ⟨segment, rest, hfull⟩ := behind _ _ _ hleads
  rw [Query.reaches_of_full hentry hfull] at unreached
  cases unreached

theorem Resolves.index_unique {shape : Shape ι} {here full place place' : Path} {i j : Nat}
    {goal goal' : Target} (h : Resolves shapes q shape (here ++ [.index i]) full place goal)
    (h' : Resolves shapes q shape (here ++ [.index j]) full place' goal') : i = j := by
  obtain ⟨segment, rest, hfull⟩ := h.exists_eq
  obtain ⟨segment', rest', hfull'⟩ := h'.exists_eq
  rw [hfull, List.append_assoc, List.append_assoc] at hfull'
  have hindex := List.append_cancel_left hfull'
  simp only [List.singleton_append, List.cons.injEq, Segment.index.injEq] at hindex
  exact hindex.1

/-- A list holds what is asked for if each of its entries does. -/
theorem exact_of_list {coercer : Coercer} {target : ι} {here : Path} {nodes : List (Node ι)}
    (length : nodes.length = q.listLength here)
    (each : ∀ i (h : i < nodes.length),
      ExactNode coercer shapes q (shapes target) (here ++ [.index i]) nodes[i]) :
    Exact coercer q (Leads shapes q (.list target) here) (nodeListItems here 0 nodes) := by
  have parts : List.Forall₂
      (fun i part => Exact coercer q (Resolves shapes q (shapes target) (here ++ [.index i])) part)
      (List.range (q.listLength here))
      ((nodes.zipIdx 0).map fun x => x.1.items (here ++ [.index x.2])) := by
    rw [List.forall₂_iff_get]
    refine ⟨by simp [length], fun i hi hi' => ?_⟩
    simpa [ExactNode] using each i (by simpa using hi')
  rw [nodeListItems_eq_flatten]
  refine (Exact.flatten parts ?_).congr fun full place goal => leads_list_iff.symm
  refine List.nodup_range.imp fun {i j} hne => ?_
  intro full place place' goal goal' h h'
  exact hne (h.index_unique h')

theorem exact_of_field {b : Binder} (settled : q.Settled) {path : Path} {depth : Nat}
    {field : FieldShape ι} {entry : Option (Entry ι)}
    (distinct : ∀ type, field.role = .leaf (.composite type) →
      (type.members.map fun m => lowerAscii m.name).Nodup)
    (h : Binder.FieldBound b shapes q
      (fun shape path _ node => ExactNode b.coercer shapes q shape path node)
      (path ++ [.named field.name]) depth field.role entry) :
    Exact b.coercer q (Leads shapes q field.role (path ++ [.named field.name]))
      (optionItems (path ++ [.named field.name]) entry) := by
  generalize field.role = role at distinct h ⊢
  cases h with
  | scalar bound => exact exact_of_bindScalar settled rfl bound
  | leaf bound =>
    exact exact_of_bindLeaf (fun type htype => distinct type (by rw [htype])) settled rfl bound
  | nested reached within bound =>
    rw [optionItems_nestedEntry]
    exact Exact.congr bound fun full place goal => leads_nested_iff.symm
  | noNested unreached =>
    exact exact_nil_of_unreached unreached fun full place goal hleads =>
      (leads_nested_iff.1 hleads).exists_eq
  | list reached within short length bound =>
    rw [optionItems_listEntry]
    exact exact_of_list length bound
  | noList unreached =>
    refine exact_nil_of_unreached unreached fun full place goal hleads => ?_
    obtain ⟨i, -, hresolves⟩ := leads_list_iff.1 hleads
    obtain ⟨segment, rest, hfull⟩ := hresolves.exists_eq
    exact ⟨.index i, segment :: rest, by rw [hfull, List.append_assoc]; rfl⟩

theorem exact_of_fields {b : Binder} (settled : q.Settled) {shape : Shape ι} {path : Path}
    {depth : Nat} {given : List (Option (String × Entry ι))} (distinct : shape.DistinctNames)
    (h : List.Forall₂ (Binder.FieldGives b shapes q
      (fun shape path _ node => ExactNode b.coercer shapes q shape path node) path depth)
      shape.fields given) :
    ExactNode b.coercer shapes q shape path (Binder.assemble shape given) := by
  have parts : List.Forall₂
      (fun (field : FieldShape ι) part =>
        Exact b.coercer q (Leads shapes q field.role (path ++ [.named field.name])) part)
      shape.fields (given.map (givenItems path)) := by
    rw [List.forall₂_map_right_iff]
    refine (forall₂_and_mem h).imp ?_
    rintro field _ ⟨hfield, entry, hentry, rfl⟩
    rw [givenItems_labelled]
    exact exact_of_field settled (distinct.members field hfield) hentry
  unfold ExactNode
  rw [items_assemble]
  refine Exact.flatten parts ?_
  have hnames := distinct.fields
  rw [List.nodup_iff_pairwise_ne, List.pairwise_map] at hnames
  refine hnames.imp fun {field field'} hne => ?_
  intro full place place' goal goal' h h'
  exact not_isPrefix_of_ne hne h.isPrefix h'.isPrefix

end Nodes

/-- **Binding loses no request and invents none.** -/
theorem build_exact {b : Binder} {shapes : ι → Shape ι} {shape : Shape ι}
    {pairs : List (String × String)} {path : Path} {node : Node ι}
    (family : ∀ i, (shapes i).DistinctNames) (distinct : shape.DistinctNames)
    (h : b.build shapes shape (Query.ofPairs pairs) path = .ok node) :
    Exact b.coercer (Query.ofPairs pairs) (Resolves shapes (Query.ofPairs pairs) shape path)
      (node.items path) := by
  have settled := Query.settled_ofPairs pairs
  refine Binder.buildNode_induct (motive := fun shape path _ node => shape.DistinctNames →
    ExactNode b.coercer shapes (Query.ofPairs pairs) shape path node) ?_ h distinct
  intro shape path depth given hgiven hdistinct
  have hexact : List.Forall₂ (Binder.FieldGives b shapes (Query.ofPairs pairs)
      (fun shape path _ node => ExactNode b.coercer shapes (Query.ofPairs pairs) shape path node)
      path depth) shape.fields given := by
    refine hgiven.imp ?_
    rintro field _ ⟨entry, hentry, rfl⟩
    exact ⟨entry, hentry.imp fun target _ _ _ _ hnode => hnode (family target), rfl⟩
  exact exact_of_fields settled hdistinct hexact

/-- Documents with a parent and with parts that are documents again. -/
def documentShapes : Unit → Shape Unit := fun _ =>
  { name := "Document"
    fields :=
      [⟨"page", .scalar ⟨.i64, false⟩⟩,
        ⟨"title", .leaf (.primitive ⟨.string, false⟩)⟩,
        ⟨"author", .leaf (.composite
          { name := "Person"
            members := [⟨"name", ⟨.string, false⟩⟩, ⟨"new", ⟨.string, true⟩⟩] })⟩,
        ⟨"parent", .nested ()⟩,
        ⟨"parts", .list ()⟩] }

theorem distinctNames_documentShapes (i : Unit) : (documentShapes i).DistinctNames where
  fields := by
    cases i
    decide +kernel
  members := by
    intro field hfield type htype
    simp only [documentShapes, List.mem_cons, List.not_mem_nil, or_false] at hfield
    rcases hfield with rfl | rfl | rfl | rfl | rfl <;> cases htype
    decide +kernel

/-- The member `new` is spelled like an operation, one membership lists nothing, and one part lies
behind a gap. -/
def documentPairs : List (String × String) :=
  [("filter[parent][title]", "a"), ("filter[author][new]", "z"),
    ("filter[parts][0][author][new][in]", "x, y"), ("filter[parts][0][title][in]", " ,"),
    ("filter[parts][2][title]", "b"), ("filter[page]", "7")]

/-- What these keys ask for. -/
def documentItems : List (Path × Item) :=
  [([.field "filter", .field "page"], .parameter (.i64 7)),
    ([.field "filter", .field "author"], .operation ⟨.eq, [.string "z"], false, some "new"⟩),
    ([.field "filter", .field "parent", .field "title"],
      .operation ⟨.eq, [.string "a"], false, none⟩),
    ([.field "filter", .field "parts", .index 0, .field "author"],
      .operation ⟨.inside, [.string "x", .string "y"], true, some "new"⟩)]

theorem build_exact_documents :
    (∀ i, (documentShapes i).DistinctNames) ∧
      ∃ node, Binder.build {} documentShapes (documentShapes ()) (Query.ofPairs documentPairs)
          [.field "filter"] = .ok node ∧
        node.items [.field "filter"] = documentItems ∧
        Exact Coercer.standard (Query.ofPairs documentPairs)
          (Resolves documentShapes (Query.ofPairs documentPairs) (documentShapes ())
            [.field "filter"]) documentItems := by
  have hitems : (Binder.build {} documentShapes (documentShapes ()) (Query.ofPairs documentPairs)
      [.field "filter"]).map (Node.items [.field "filter"]) = .ok documentItems := by
    decide +kernel
  obtain ⟨node, hnode, hsame⟩ := map_ok_iff.1 hitems
  refine ⟨distinctNames_documentShapes, node, hnode, hsame, ?_⟩
  rw [← hsame]
  exact build_exact distinctNames_documentShapes (distinctNames_documentShapes ()) hnode

end BracketFilter
