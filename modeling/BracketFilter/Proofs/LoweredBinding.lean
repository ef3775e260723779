import BracketFilter.Proofs.BindingFailure
import BracketFilter.Proofs.LoweredNames

/-!
# Binding to names in small letters

A query is bound to a filter with its names in small letters as it is bound to the filter: the tree
is the same with its names in small letters, and an error is the same but for the case of a
member's name.

* `lowerRequest` — a request on a leaf with the name of its member in small letters.
* `Lowers` — two results of a binding match, the second with its names in small letters.

Principal result: `buildNode_lowered` — the tree of a filter with its names in small letters.
-/

set_option autoImplicit false

namespace BracketFilter

open BracketFilter.Text

variable {ι : Type}

/-- Both results fail with one error, but for the case of letters, or both succeed, the second with
what `lower` makes of the first. -/
abbrev Lowers {α : Type} (lower : α → α) (x x' : Except BindError α) : Prop :=
  Matched BindError.Recased (fun a a' => lower a = a') x x'

theorem Lowers.map {α β : Type} {lower : α → α} {lower' : β → β} {x x' : Except BindError α}
    (h : Lowers lower x x') {f g : α → β} (commutes : ∀ a, lower' (f a) = g (lower a)) :
    Lowers lower' (x.map f) (x'.map g) :=
  Matched.map h fun a a' ha => by rw [commutes, ha]

theorem Lowers.refl {α : Type} {lower : α → α} (x : Except BindError α)
    (fixed : ∀ a, lower a = a) : Lowers lower x x := by
  cases x with
  | error e => exact .error rfl
  | ok a => exact .ok (fixed a)

/-! ## Requests on a leaf -/

/-- A request with the name of its member in small letters. -/
def lowerRequest (request : Option String × Operation × String) :
    Option String × Operation × String := (request.1.map lowerAscii, request.2)

@[simp] theorem Segment.named_lowerAscii (name : String) :
    Segment.named (lowerAscii name) = .named name := by
  simp only [named, lowerAscii_lowerAscii]

/-- The same requests are on a leaf whose members are named in small letters. -/
theorem leafRequests_lowered (q : Query) (here : Path) (type : LeafType) :
    Binder.leafRequests q here type.lowered =
      (Binder.leafRequests q here type).map lowerRequest := by
  cases type with
  | primitive type =>
    simp only [LeafType.lowered, Binder.leafRequests, List.map_map]
    rfl
  | composite type =>
    simp only [LeafType.lowered, Binder.leafRequests, Composite.lowered, List.flatMap_map,
      Member.lowered, Segment.named_lowerAscii, List.map_flatMap, List.map_map]
    rfl

theorem Site.lowerAscii_target (site : Site) (member : Option String) :
    lowerAscii (site.target (member.map lowerAscii)) = lowerAscii (site.target member) := by
  cases member with
  | none => rfl
  | some name => simp only [Option.map_some, target, lowerAscii_append, lowerAscii_lowerAscii]

theorem Site.coerce_lowered (site : Site) (member : Option String) (kind : Kind) (raw : String) :
    Lowers id (site.coerce member kind raw) (site.coerce (member.map lowerAscii) kind raw) := by
  unfold coerce
  cases site.coercer raw kind with
  | ok value => exact .ok rfl
  | error e =>
    refine .error ?_
    simp only [BindError.Recased, BindError.lowered, site.lowerAscii_target]

theorem Leaf.read_lowered (site : Site) (member : Option String) (kind : Kind) (op : Operation)
    (raw : String) :
    Lowers (Option.map Applied.lowered) (read site member kind op raw)
      (read site (member.map lowerAscii) kind op raw) := by
  cases family : op.family with
  | comparison =>
    rw [read_comparison family, read_comparison family]
    exact (site.coerce_lowered member kind raw).map fun value => rfl
  | text =>
    simp only [read, family]
    split
    · exact .ok rfl
    · refine .error ?_
      simp only [BindError.Recased, BindError.lowered, site.lowerAscii_target]
  | membership =>
    by_cases hmany : site.maxInValues < (tokens raw).length
    · simp only [read, family, if_pos hmany]
      refine .error ?_
      simp only [BindError.Recased, BindError.lowered, Site.tooManyValues, lowerAscii_append,
        site.lowerAscii_target]
    · rw [read_membership family hmany, read_membership family hmany]
      have hvalues := mapM_matched_image fun token (_ : token ∈ tokens raw) =>
        site.coerce_lowered member kind token
      refine Matched.map hvalues ?_
      rintro values _ rfl
      rw [List.map_id]
      split <;> rfl

theorem Leaf.answer_lowered (site : Site) (type : LeafType)
    (request : Option String × Operation × String) :
    Lowers (Option.map Applied.lowered) (answer site type request)
      (answer site type.lowered (lowerRequest request)) := by
  unfold answer
  rw [lowerRequest, operandType?_lowered]
  cases operandType? type request.1 with
  | none => exact .ok rfl
  | some operand => exact read_lowered site request.1 operand.kind request.2.1 request.2.2

namespace Binder

theorem leafEntry_lowered (type : LeafType) (operations : List Applied) :
    (leafEntry type operations : Option (Entry ι)).map Entry.lowered =
      leafEntry type.lowered (operations.map Applied.lowered) := by
  unfold leafEntry
  cases operations with
  | nil => rfl
  | cons applied rest =>
    rw [if_neg (List.cons_ne_nil _ _), if_neg (by simp)]
    rfl

theorem bindLeaf_lowered (b : Binder) (q : Query) (here : Path) (type : LeafType) :
    Lowers (Option.map (Entry.lowered (ι := ι))) (b.bindLeaf q here type)
      (b.bindLeaf q here type.lowered) := by
  rw [bindLeaf_eq, bindLeaf_eq, leafRequests_lowered, List.mapM_map]
  have hanswers := mapM_matched_image fun request (_ : request ∈ leafRequests q here type) =>
    Leaf.answer_lowered (b.site here) type request
  refine Matched.map hanswers ?_
  rintro answers _ rfl
  rw [leafEntry_lowered, List.map_filterMap, List.filterMap_map]
  rfl

/-! ## Fields and nodes -/

@[simp] theorem isEmpty_lowered (node : Node ι) : node.lowered.isEmpty = node.isEmpty := by
  obtain ⟨shape, entries⟩ := node
  rw [Node.lowered, loweredEntries_eq_map]
  cases entries <;> rfl

theorem nestedEntry_lowered (child : Node ι) :
    (nestedEntry child).map Entry.lowered = nestedEntry child.lowered := by
  unfold nestedEntry
  rw [isEmpty_lowered]
  cases child.isEmpty <;> rfl

theorem listEntry_lowered (items : List (Node ι)) :
    (listEntry items).map Entry.lowered = listEntry (items.map Node.lowered) := by
  unfold listEntry
  rw [List.isEmpty_map]
  cases items.isEmpty with
  | true => rfl
  | false =>
    simp only [Bool.false_eq_true, if_false, Option.map_some, Entry.lowered, loweredItems_eq_map]

theorem closeList_lowered (b : Binder) (here : Path) (length : Nat)
    {items items' : Except BindError (List (Node ι))}
    (h : Lowers (List.map Node.lowered) items items') :
    Lowers (Option.map Entry.lowered) (b.closeList here length items)
      (b.closeList here length items') := by
  cases h with
  | error related => exact .error related
  | ok related =>
    subst related
    simp only [closeList]
    split
    · exact .error rfl
    · exact .ok (listEntry_lowered _)

/-- A field is bound alike if the nodes of its embedded filters are. -/
theorem bindField_lowered (b : Binder) (shapes : ι → Shape ι) (q : Query) (here : Path)
    (depth : Nat)
    (children : ∀ target p, q.reaches here = true → here <+: p →
      Lowers Node.lowered (b.buildNode shapes q (shapes target) p (depth + 1))
        (b.buildNode (fun i => (shapes i).lowered) q (shapes target).lowered p (depth + 1)))
    (role : Role ι) :
    Lowers (Option.map Entry.lowered) (b.bindField shapes q here depth role)
      (b.bindField (fun i => (shapes i).lowered) q here depth role.lowered) := by
  cases role with
  | scalar type =>
    show Lowers _ (b.bindScalar q here type) (b.bindScalar q here type)
    cases hget : q.get? here none with
    | none =>
      rw [bindScalar_of_none hget]
      exact .ok rfl
    | some raw =>
      rw [bindScalar_of_some hget]
      exact (Lowers.refl _ fun _ => rfl).map fun _ => rfl
  | leaf type => exact bindLeaf_lowered b q here type
  | nested target =>
    simp only [Role.lowered, bindField]
    split
    · rename_i hreached
      split
      · exact (children target here hreached (List.prefix_refl _)).map nestedEntry_lowered
      · exact .error rfl
    · exact .ok rfl
  | list target =>
    simp only [Role.lowered, bindField]
    split
    · rename_i hreached
      split
      · refine closeList_lowered b here _ (mapM_matched_image fun i _ => ?_)
        exact children target _ hreached (List.prefix_append _ _)
      · exact .error rfl
    · exact .ok rfl

theorem labelled_lowered (field : FieldShape ι) (entry : Option (Entry ι)) :
    (labelled field entry).map lowerNamed = labelled field.lowered (entry.map Entry.lowered) := by
  cases entry <;> rfl

theorem assemble_lowered (shape : Shape ι) (given : List (Option (String × Entry ι))) :
    (assemble shape given).lowered =
      assemble shape.lowered (given.map (Option.map lowerNamed)) := by
  unfold assemble
  rw [Node.lowered, loweredEntries_eq_map, List.map_filterMap, List.filterMap_map]
  rfl

/-- **A query is bound alike to names in small letters.** -/
theorem buildNode_lowered (b : Binder) (shapes : ι → Shape ι) (q : Query) (shape : Shape ι)
    (path : Path) (depth : Nat) :
    Lowers Node.lowered (b.buildNode shapes q shape path depth)
      (b.buildNode (fun i => (shapes i).lowered) q shape.lowered path depth) := by
  induction shape, path, depth using position_induct (q := q) with
  | step shape path depth ih =>
    rw [buildNode_eq, buildNode_eq, Shape.lowered, List.mapM_map]
    refine Lowers.map (mapM_matched_image fun field _ => ?_) (assemble_lowered shape)
    refine Lowers.map ?_ (labelled_lowered field)
    show Lowers _ _ (b.bindField _ q (path ++ [.named (lowerAscii field.name)]) depth _)
    rw [Segment.named_lowerAscii]
    refine bindField_lowered b shapes q _ depth (fun target p hreached hbelow => ?_) field.role
    exact ih _ _ _ hreached hbelow

end Binder

end BracketFilter
