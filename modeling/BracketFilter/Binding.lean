import BracketFilter.Limits
import BracketFilter.Query
import BracketFilter.Tree

/-!
# Binding a query to a filter

* `Binder` — the limits of a binding and the reader of operands.
* `Binder.build` — the tree that a query asks for at a path, for a shape of a family of shapes.
* `Binder.bind` — the same at the root.

A field stands at the path of its node and its own name. A parameter takes the value of the bare
key; a leaf takes every operation in order and then the bare key, which means equality; an embedded
filter and a list are there if some key reaches them. Fields are bound in the order of their
declaration, and the first error ends the binding. The recursion ends because every embedded filter
lies on the path of some key.
-/

set_option autoImplicit false

namespace BracketFilter

open BracketFilter.Text

/-- How queries are bound. -/
structure Binder where
  limits : Limits := .standard
  coercer : Coercer := .standard

namespace Binder

variable {ι : Type}

/-- The operations that a query asks for at a path, with their raw values. -/
def requests (q : Query) (path : Path) : List (Operation × String) :=
  Operation.all.filterMap (fun op => (q.get? path (some op)).map fun raw => (op, raw)) ++
    (q.get? path none).toList.map fun raw => (.eq, raw)

/-- The requests on a leaf: on the field itself, or on each member of a composite. -/
def leafRequests (q : Query) (path : Path) : LeafType → List (Option String × Operation × String)
  | .primitive _ => (requests q path).map fun r => (none, r)
  | .composite type =>
    type.members.flatMap fun m =>
      (requests q (path ++ [.named m.name])).map fun r => (some m.name, r)

/-- The leaf behind a call for each request, in order; the first error ends them. -/
def applyAll (site : Site) (leaf : Leaf) :
    List (Option String × Operation × String) → Except BindError Leaf
  | [] => .ok leaf
  | (member, op, raw) :: rest =>
    match leaf.apply site member op raw with
    | (.error e, _) => .error e
    | (.ok _, leaf) => applyAll site leaf rest

/-- The site of the field at a path. -/
def site (b : Binder) (path : Path) : Site :=
  ⟨Key.renderPath path, b.coercer, b.limits.maxInValues⟩

/-- The entry of a parameter. -/
def bindScalar (b : Binder) (q : Query) (path : Path) (type : ValueType) :
    Except BindError (Option (Entry ι)) :=
  match q.get? path none with
  | none => .ok none
  | some raw =>
    match (b.site path).coerce none type.kind raw with
    | .error e => .error e
    | .ok value => .ok (some (.scalar value))

/-- The entry of a leaf. -/
def bindLeaf (b : Binder) (q : Query) (path : Path) (type : LeafType) :
    Except BindError (Option (Entry ι)) :=
  match applyAll (b.site path) (.empty type) (leafRequests q path type) with
  | .error e => .error e
  | .ok leaf => .ok (if leaf.isEmpty then none else some (.leaf leaf))

/-- A filter is nested deeper than the limit. -/
def tooDeep (b : Binder) (path : Path) : BindError :=
  .limitExceeded ("'" ++ Key.renderPath path ++ "' is nested deeper than " ++
    natText b.limits.maxDepth ++ " levels")

/-- A list has more entries than the limit. -/
def tooLong (b : Binder) (path : Path) : BindError :=
  .limitExceeded ("'" ++ Key.renderPath path ++ "' has more than " ++
    natText b.limits.maxListItems ++ " entries")

/-- The entry of an embedded filter; one that asks for nothing has none. -/
def nestedEntry (child : Node ι) : Option (Entry ι) :=
  if child.isEmpty then none else some (.nested child)

/-- The entry of a list; one without entries has none. -/
def listEntry (items : List (Node ι)) : Option (Entry ι) :=
  if items.isEmpty then none else some (.list items)

/-- The entry of a list of which so many entries are asked for. The entries within the limit are
bound before their number is found too large. -/
def closeList (b : Binder) (path : Path) (length : Nat) (items : Except BindError (List (Node ι))) :
    Except BindError (Option (Entry ι)) :=
  match items with
  | .error e => .error e
  | .ok items =>
    if b.limits.maxListItems < length then .error (b.tooLong path) else .ok (listEntry items)

/-- The node with the entries that are there. -/
def assemble (shape : Shape ι) (entries : List (Option (String × Entry ι))) : Node ι :=
  .mk shape (entries.filterMap id)

/-- An entry with the name of its field. -/
def labelled (field : FieldShape ι) (entry : Option (Entry ι)) : Option (String × Entry ι) :=
  entry.map fun e => (field.name, e)

/-- The node for a shape at a path, at a depth below the root. -/
def buildNode (b : Binder) (shapes : ι → Shape ι) (q : Query) (shape : Shape ι) (path : Path)
    (depth : Nat) : Except BindError (Node ι) :=
  (shape.fields.mapM fun field =>
    let here := path ++ [.named field.name]
    Except.map (labelled field) <|
      match field.role with
      | .scalar type => b.bindScalar q here type
      | .leaf type => b.bindLeaf q here type
      | .nested target =>
        if _reached : q.reaches here = true then
          if depth < b.limits.maxDepth then
            (buildNode b shapes q (shapes target) here (depth + 1)).map nestedEntry
          else .error (b.tooDeep here)
        else .ok none
      | .list target =>
        if _reached : q.reaches here = true then
          if depth < b.limits.maxDepth then
            b.closeList here (q.listLength here) <|
              (List.range (min (q.listLength here) b.limits.maxListItems)).mapM fun i =>
                buildNode b shapes q (shapes target) (here ++ [.index i]) (depth + 1)
          else .error (b.tooDeep here)
        else .ok none).map (assemble shape)
  termination_by q.depth - path.length
  decreasing_by
    all_goals
      have := Query.length_le_depth_of_reaches _reached
      simp only [here, List.length_append, List.length_cons, List.length_nil] at this ⊢
      omega

/-- The tree for a shape at a path. -/
def build (b : Binder) (shapes : ι → Shape ι) (shape : Shape ι) (q : Query) (path : Path) :
    Except BindError (Node ι) := b.buildNode shapes q shape path 0

/-- The tree of a filter. -/
def bind (b : Binder) (shapes : ι → Shape ι) (filter : ι) (q : Query) :
    Except BindError (Node ι) := b.build shapes (shapes filter) q []

end Binder

end BracketFilter
