import BracketFilter.Proofs.BindingFailure
import BracketFilter.Proofs.CompileSteps

/-!
# Bound trees are well formed

* `Node.Lies` — a node lies so many steps into embedded filters and lists below another.
* `EntryFits` — an entry is what a field of a role may hold, within the limits.
* `Node.WellFormed` — the entries of a node fit fields of its shape, in the order of declaration.

Principal results: `wellFormed_assemble` — a node that is put together of what its fields give is
well formed, if the nodes that were embedded have the shapes of their roles; `wellFormed_of_build` —
in a bound tree each node is well formed, and none lies deeper than the limit.
-/

set_option autoImplicit false

namespace BracketFilter

open BracketFilter.Text

variable {ι : Type}

/-! ## Well-formed nodes -/

/-- `inner` lies so many steps into embedded filters and lists below a node. -/
inductive Node.Lies : Node ι → Nat → Node ι → Prop
  | here {node : Node ι} : Lies node 0 node
  | inside {node child inner : Node ι} {e : String × Entry ι} {steps : Nat}
      (entry : e ∈ node.entries) (embedded : child ∈ e.2.children)
      (lies : Lies child steps inner) : Lies node (steps + 1) inner

/-- An entry is what a field of a role may hold: of the form and the type of the role, asking for
something, and within the limits. -/
inductive EntryFits (limits : Limits) (shapes : ι → Shape ι) : Role ι → Entry ι → Prop
  | scalar {type : ValueType} {value : Value} :
      EntryFits limits shapes (.scalar type) (.scalar value)
  | leaf {type : LeafType} {leaf : Leaf} (ofType : leaf.type = type) (asks : leaf.operations ≠ [])
      (listed : ∀ applied ∈ leaf.operations, applied.operation.family = .membership →
        1 ≤ applied.values.length ∧ applied.values.length ≤ limits.maxInValues) :
      EntryFits limits shapes (.leaf type) (.leaf leaf)
  | nested {target : ι} {child : Node ι} (shape : child.shape = shapes target)
      (asks : child.entries ≠ []) : EntryFits limits shapes (.nested target) (.nested child)
  | list {target : ι} {items : List (Node ι)} (shape : ∀ item ∈ items, item.shape = shapes target)
      (asks : items ≠ []) (short : items.length ≤ limits.maxListItems) :
      EntryFits limits shapes (.list target) (.list items)

/-- The entries of the node stand at fields of its shape, in the order of declaration, and fit
them. -/
def Node.WellFormed (limits : Limits) (shapes : ι → Shape ι) (node : Node ι) : Prop :=
  ∃ fields, fields.Sublist node.shape.fields ∧
    List.Forall₂ (fun (field : FieldShape ι) (e : String × Entry ι) =>
      e.1 = field.name ∧ EntryFits limits shapes field.role e.2) fields node.entries

/-- The names of the entries are names of fields, in the order of declaration. -/
theorem Node.WellFormed.names_sublist {limits : Limits} {shapes : ι → Shape ι} {node : Node ι}
    (h : node.WellFormed limits shapes) :
    (node.entries.map Prod.fst).Sublist (node.shape.fields.map FieldShape.name) := by
  obtain ⟨fields, hfields, hentries⟩ := h
  have hnames : node.entries.map Prod.fst = fields.map FieldShape.name := by
    rw [← List.forall₂_eq_eq_eq, List.forall₂_map_left_iff, List.forall₂_map_right_iff]
    exact hentries.flip.imp fun _ _ h => h.1
  rw [hnames]
  exact hfields.map _

theorem Node.exists_mem_of_get? {node : Node ι} {name : String} {entry : Entry ι}
    (h : node.get? name = some entry) : ∃ e ∈ node.entries, e.2 = entry := by
  obtain ⟨e, he, rfl⟩ := Option.map_eq_some_iff.1 h
  exact ⟨e, List.mem_of_find?_eq_some he, rfl⟩

theorem Node.Lies.of_nested? {node child inner : Node ι} {name : String} {steps : Nat}
    (h : node.nested? name = some child) (lies : child.Lies steps inner) :
    node.Lies (steps + 1) inner := by
  unfold nested? at h
  split at h
  · rename_i hfound
    cases h
    obtain ⟨e, he, hentry⟩ := exists_mem_of_get? hfound
    exact .inside he (by simp [hentry, Entry.children]) lies
  · cases h

theorem Node.Lies.of_list? {node child inner : Node ι} {items : List (Node ι)} {name : String}
    {steps : Nat} (h : node.list? name = some items) (mem : child ∈ items)
    (lies : child.Lies steps inner) : node.Lies (steps + 1) inner := by
  unfold list? at h
  split at h
  · rename_i hfound
    cases h
    obtain ⟨e, he, hentry⟩ := exists_mem_of_get? hfound
    exact .inside he (by simpa [hentry, Entry.children] using mem) lies
  · cases h

/-! ## Leaves -/

/-- A membership operation that was read has operands, and no more than the limit. -/
theorem Leaf.length_values_of_read {site : Site} {member : Option String} {kind : Kind}
    {op : Operation} {raw : String} {applied : Applied}
    (h : read site member kind op raw = .ok (some applied))
    (family : applied.operation.family = .membership) :
    1 ≤ applied.values.length ∧ applied.values.length ≤ site.maxInValues := by
  cases hfamily : op.family with
  | comparison =>
    rw [read_comparison hfamily] at h
    obtain ⟨value, -, hvalue⟩ := map_ok_iff.1 h
    cases hvalue
    cases hfamily.symm.trans family
  | text =>
    simp only [read, hfamily] at h
    split at h
    · cases h
      cases hfamily.symm.trans family
    · cases h
  | membership =>
    by_cases hmany : site.maxInValues < (tokens raw).length
    · simp [read, hfamily, hmany] at h
    · rw [read_membership hfamily hmany] at h
      obtain ⟨values, hvalues, hsome⟩ := map_ok_iff.1 h
      have hlength := (mapM_ok_iff.1 hvalues).length_eq
      split at hsome
      · cases hsome
      · rename_i hlisted
        cases hsome
        have hpos := List.length_pos_iff.2 hlisted
        simp only
        omega

theorem Leaf.length_values_of_answer {site : Site} {type : LeafType}
    {request : Option String × Operation × String} {applied : Applied}
    (h : answer site type request = .ok (some applied))
    (family : applied.operation.family = .membership) :
    1 ≤ applied.values.length ∧ applied.values.length ≤ site.maxInValues := by
  unfold answer at h
  split at h
  · cases h
  · exact length_values_of_read h family

namespace Binder

variable {b : Binder} {shapes : ι → Shape ι} {q : Query}

/-! ## Fields -/

/-- The nodes of embedded filters have the shapes that they were built for. -/
abbrev HasShape (shape : Shape ι) (_path : Path) (_depth : Nat) (node : Node ι) : Prop :=
  node.shape = shape

theorem entryFits_of_entryBound {here : Path} {depth : Nat} {role : Role ι} {entry : Entry ι}
    (h : EntryBound b shapes q HasShape here depth role entry) :
    EntryFits b.limits shapes role entry := by
  cases h with
  | scalar found read => exact .scalar
  | leaf answered asks =>
    refine .leaf rfl asks fun applied happlied family => ?_
    obtain ⟨answer, hanswer, rfl⟩ := List.mem_filterMap.1 happlied
    obtain ⟨request, -, hread⟩ := exists_of_mem_forall₂ answered.flip hanswer
    exact Leaf.length_values_of_answer hread family
  | nested reached within bound asks => exact .nested bound (by simpa [Node.isEmpty] using asks)
  | list reached within short length bound asks =>
    refine .list (fun item hitem => ?_) asks (length ▸ short)
    obtain ⟨i, hi, rfl⟩ := List.getElem_of_mem hitem
    exact bound i hi

/-- A node that a field embeds was bound one step deeper, within the limit. -/
theorem exists_bound_of_mem_children {Bound : Shape ι → Path → Nat → Node ι → Prop} {here : Path}
    {depth : Nat} {role : Role ι} {entry : Entry ι} {child : Node ι}
    (h : EntryBound b shapes q Bound here depth role entry) (embedded : child ∈ entry.children) :
    depth < b.limits.maxDepth ∧ ∃ target path, Bound (shapes target) path (depth + 1) child := by
  cases h with
  | scalar found read => cases embedded
  | leaf answered asks => cases embedded
  | nested reached within bound asks =>
    cases List.mem_singleton.1 embedded
    exact ⟨within, _, _, bound⟩
  | list reached within short length bound asks =>
    obtain ⟨i, hi, rfl⟩ := List.getElem_of_mem embedded
    exact ⟨within, _, _, bound i hi⟩

/-! ## Nodes -/

theorem shape_of_buildNode {shape : Shape ι} {path : Path} {depth : Nat} {node : Node ι}
    (h : b.buildNode shapes q shape path depth = .ok node) : node.shape = shape := by
  obtain ⟨given, -, rfl⟩ := buildNode_ok_iff.1 h
  rfl

theorem exists_buildNode_of_lies {node inner : Node ι} {steps : Nat} (lies : node.Lies steps inner)
    {shape : Shape ι} {path : Path} {depth : Nat}
    (h : b.buildNode shapes q shape path depth = .ok node) :
    ∃ path' depth', b.buildNode shapes q inner.shape path' depth' = .ok inner := by
  induction lies generalizing shape path depth with
  | here => exact ⟨path, depth, (shape_of_buildNode h).symm ▸ h⟩
  | inside entry embedded _ ih =>
    obtain ⟨field, -, -, hfield⟩ := (mem_entries_iff h).1 entry
    obtain ⟨-, target, path', hchild⟩ :=
      exists_bound_of_mem_children (bindField_ok_iff.1 hfield).entryBound embedded
    exact ih hchild

/-- **A node that is put together of what its fields give is well formed**, if the embedded nodes
have the shapes of their roles. -/
theorem wellFormed_assemble {shape : Shape ι} {path : Path} {depth : Nat}
    {given : List (Option (String × Entry ι))}
    (h : List.Forall₂ (FieldGives b shapes q HasShape path depth) shape.fields given) :
    (assemble shape given).WellFormed b.limits shapes := by
  simp only [Node.WellFormed, assemble, Node.shape, Node.entries]
  generalize shape.fields = fields at h
  induction h with
  | nil => exact ⟨[], List.Sublist.refl _, .nil⟩
  | @cons field x fields given hx _ ih =>
    obtain ⟨kept, hkept, hentries⟩ := ih
    obtain ⟨_ | entry, hbound, rfl⟩ := hx
    · exact ⟨kept, hkept.cons field, hentries⟩
    · exact ⟨field :: kept, hkept.cons_cons field,
        .cons ⟨rfl, entryFits_of_entryBound hbound.entryBound⟩ hentries⟩

/-- The node has its shape, and each node that lies below it is well formed and within the limit. -/
structure TreeFits (b : Binder) (shapes : ι → Shape ι) (shape : Shape ι) (depth : Nat)
    (node : Node ι) : Prop where
  shape : node.shape = shape
  inner : depth ≤ b.limits.maxDepth → ∀ steps inner, node.Lies steps inner →
    inner.WellFormed b.limits shapes ∧ depth + steps ≤ b.limits.maxDepth

/-- A node takes over from the nodes of its embedded filters that the tree fits. -/
theorem treeFits_assemble {shape : Shape ι} {path : Path} {depth : Nat}
    {given : List (Option (String × Entry ι))}
    (h : List.Forall₂ (FieldGives b shapes q (fun shape _ => TreeFits b shapes shape) path depth)
      shape.fields given) : TreeFits b shapes shape depth (assemble shape given) := by
  refine ⟨rfl, fun hdepth steps inner hlies => ?_⟩
  cases hlies with
  | here =>
    have hshapes : List.Forall₂ (FieldGives b shapes q HasShape path depth) shape.fields given := by
      refine h.imp ?_
      rintro field _ ⟨entry, hentry, rfl⟩
      exact ⟨entry, hentry.imp fun _ _ _ _ _ hfits => hfits.shape, rfl⟩
    exact ⟨wellFormed_assemble hshapes, hdepth⟩
  | @inside _ child _ e steps hentry hembedded hlies =>
    obtain ⟨_, hgiven, rfl⟩ := List.mem_filterMap.1 hentry
    obtain ⟨field, -, entry, hbound, hlabelled⟩ := exists_of_mem_forall₂ h.flip hgiven
    obtain ⟨entry, rfl, rfl⟩ := Option.map_eq_some_iff.1 hlabelled.symm
    obtain ⟨hwithin, target, path, hfits⟩ :=
      exists_bound_of_mem_children hbound.entryBound hembedded
    obtain ⟨hinner, hbelow⟩ := hfits.inner hwithin steps inner hlies
    exact ⟨hinner, by omega⟩

/-- **Bound trees are well formed.** The node of a bound tree has the shape that it was built for;
in each node of the tree the names of the entries are names of fields in the order of declaration,
and each entry fits the role of its field within the limits; and no node lies deeper than the
limit. -/
theorem wellFormed_of_build {shape : Shape ι} {path : Path} {node : Node ι}
    (built : b.build shapes shape q path = .ok node) :
    node.shape = shape ∧ ∀ steps inner, node.Lies steps inner →
      (inner.entries.map Prod.fst).Sublist (inner.shape.fields.map FieldShape.name) ∧
        inner.WellFormed b.limits shapes ∧ steps ≤ b.limits.maxDepth := by
  have hfits : TreeFits b shapes shape 0 node :=
    buildNode_induct (motive := fun shape _ => TreeFits b shapes shape)
      (fun _ _ _ _ => treeFits_assemble) built
  refine ⟨hfits.shape, fun steps inner hlies => ?_⟩
  obtain ⟨hinner, hdepth⟩ := hfits.inner (Nat.zero_le _) steps inner hlies
  exact ⟨hinner.names_sublist, hinner, by omega⟩

/-- Messages that quote a message and have replies. -/
def messageShapes : Unit → Shape Unit := fun _ =>
  { name := "Message"
    fields :=
      [⟨"page", .scalar ⟨.i64, false⟩⟩, ⟨"tags", .leaf (.primitive ⟨.string, false⟩)⟩,
        ⟨"quoted", .nested ()⟩, ⟨"replies", .list ()⟩] }

/-- No limit is left any room by what is asked of the message that the reply quotes; the other
membership lists nothing. -/
def messageQuery : Query :=
  Query.ofPairs
    [("replies[0][quoted][tags][in]", "a,b"), ("quoted[tags][nin]", " ,"), ("page", "7")]

/-- Two steps below the root there is a node that is well formed within limits that it exhausts. -/
theorem wellFormed_of_build_messages :
    ∃ node quote, build ⟨⟨2, 1, 2⟩, .standard⟩ messageShapes (messageShapes ()) messageQuery [] =
        .ok node ∧
      node.entries.map Prod.fst = ["page", "replies"] ∧ node.Lies 2 quote ∧
      quote.entries.map Prod.fst = ["tags"] ∧ node.WellFormed ⟨2, 1, 2⟩ messageShapes ∧
      quote.WellFormed ⟨2, 1, 2⟩ messageShapes := by
  have hrun : (build ⟨⟨2, 1, 2⟩, .standard⟩ messageShapes (messageShapes ()) messageQuery []).map
      (fun node => (node.entries.map Prod.fst, (node.list? "replies").map fun items =>
        items.map fun item => (item.nested? "quoted").map fun quote =>
          quote.entries.map Prod.fst)) =
      .ok (["page", "replies"], some [some ["tags"]]) := by
    decide +kernel
  obtain ⟨node, hnode, hfound⟩ := map_ok_iff.1 hrun
  rw [Prod.mk.injEq] at hfound
  obtain ⟨hnames, hreplies⟩ := hfound
  obtain ⟨items, hitems, hquotes⟩ := Option.map_eq_some_iff.1 hreplies
  obtain ⟨item, rfl, hquote⟩ := List.map_eq_singleton_iff.1 hquotes
  obtain ⟨quote, hquote, htags⟩ := Option.map_eq_some_iff.1 hquote
  have hlies : node.Lies 2 quote := .of_list? hitems List.mem_cons_self (.of_nested? hquote .here)
  obtain ⟨-, hinner⟩ := wellFormed_of_build hnode
  exact ⟨node, quote, hnode, hnames, hlies, htags, (hinner 0 node .here).2.1,
    (hinner 2 quote hlies).2.1⟩

end Binder

end BracketFilter
