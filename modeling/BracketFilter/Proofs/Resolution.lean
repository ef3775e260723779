import BracketFilter.Proofs.Accounts
import BracketFilter.Proofs.Answers
import BracketFilter.Proofs.FullPath

/-!
# What the keys of a query ask of a filter

* `Node.items` — what a tree holds, each item with its place.
* `Leads`, `Resolves` — where a full path leads from a field, and from the fields of a shape.
* `Shape.DistinctNames` — no two fields, and no two members of a leaf, have one name.
* `Exact` — a list of items holds what the keys of a query ask for, each key once, and nothing else.

The lemmas on `Exact` put the items of fields together to those of a node.
-/

set_option autoImplicit false

namespace BracketFilter

open BracketFilter.Text

variable {ι : Type}

/-! ## The items of a tree -/

mutual

/-- The items of a node that stands at a path. -/
def Node.items (path : Path) : Node ι → List (Path × Item)
  | .mk _ entries => entryListItems path entries

/-- The items of the entries of a node. -/
def entryListItems (path : Path) : List (String × Entry ι) → List (Path × Item)
  | [] => []
  | (name, entry) :: rest => entry.items (path ++ [.named name]) ++ entryListItems path rest

/-- The items of an entry. -/
def Entry.items (here : Path) : Entry ι → List (Path × Item)
  | .scalar value => [(here, .parameter value)]
  | .leaf leaf => leaf.operations.map fun applied => (here, .operation applied)
  | .nested child => child.items here
  | .list nodes => nodeListItems here 0 nodes

/-- The items of the entries of a list from an index on. -/
def nodeListItems (here : Path) (index : Nat) : List (Node ι) → List (Path × Item)
  | [] => []
  | node :: rest => node.items (here ++ [.index index]) ++ nodeListItems here (index + 1) rest

end

/-- The items of an entry that may be missing. -/
def optionItems (here : Path) : Option (Entry ι) → List (Path × Item)
  | none => []
  | some entry => entry.items here

@[simp] theorem optionItems_none (here : Path) :
    optionItems here (none : Option (Entry ι)) = [] := rfl

theorem optionItems_nestedEntry (here : Path) (child : Node ι) :
    optionItems here (Binder.nestedEntry child) = child.items here := by
  obtain ⟨shape, entries⟩ := child
  cases entries with
  | nil => simp [Binder.nestedEntry, Node.isEmpty, Node.entries, Node.items, entryListItems]
  | cons entry rest =>
    simp [Binder.nestedEntry, Node.isEmpty, Node.entries, optionItems, Entry.items]

theorem optionItems_listEntry (here : Path) (nodes : List (Node ι)) :
    optionItems here (Binder.listEntry nodes) = nodeListItems here 0 nodes := by
  cases nodes with
  | nil => simp [Binder.listEntry, nodeListItems]
  | cons node rest => simp [Binder.listEntry, optionItems, Entry.items]

theorem optionItems_leafEntry (here : Path) (type : LeafType) (operations : List Applied) :
    optionItems here (Binder.leafEntry type operations : Option (Entry ι)) =
      operations.map fun applied => (here, .operation applied) := by
  unfold Binder.leafEntry
  split
  · rename_i hnil
    rw [hnil]
    rfl
  · simp [optionItems, Entry.items]

theorem nodeListItems_eq_flatten (here : Path) (index : Nat) (nodes : List (Node ι)) :
    nodeListItems here index nodes =
      ((nodes.zipIdx index).map fun x => x.1.items (here ++ [.index x.2])).flatten := by
  induction nodes generalizing index with
  | nil => simp [nodeListItems]
  | cons node rest ih => simp [nodeListItems, ih]

/-! ## Where full paths lead -/

/-- A full path leads from a field at `here` to a place, and says what its value is given for. A
list is entered at an index if some key mentions it and each index before it. -/
inductive Leads (shapes : ι → Shape ι) (q : Query) : Role ι → Path → Path → Path → Target → Prop
  | parameter {type : ValueType} {here : Path} :
      Leads shapes q (.scalar type) here here here (.parameter type.kind)
  | equality {type : ValueType} {here : Path} :
      Leads shapes q (.leaf (.primitive type)) here here here (.operation none type.kind .eq)
  | operation {type : ValueType} {here : Path} {op : Operation} :
      Leads shapes q (.leaf (.primitive type)) here (here ++ [.field op.tag]) here
        (.operation none type.kind op)
  | memberEquality {type : Composite} {here : Path} {m : Member} (mem : m ∈ type.members) :
      Leads shapes q (.leaf (.composite type)) here (here ++ [.named m.name]) here
        (.operation (some m.name) m.type.kind .eq)
  | memberOperation {type : Composite} {here : Path} {m : Member} {op : Operation}
      (mem : m ∈ type.members) :
      Leads shapes q (.leaf (.composite type)) here (here ++ [.named m.name] ++ [.field op.tag])
        here (.operation (some m.name) m.type.kind op)
  | nested {target : ι} {here full place : Path} {field : FieldShape ι} {goal : Target}
      (mem : field ∈ (shapes target).fields)
      (inner : Leads shapes q field.role (here ++ [.named field.name]) full place goal) :
      Leads shapes q (.nested target) here full place goal
  | list {target : ι} {here full place : Path} {index : Nat} {field : FieldShape ι}
      {goal : Target}
      (mentioned : ∀ i ≤ index, ∃ key ∈ q.keys, here ++ [.index i] <+: key.segments)
      (mem : field ∈ (shapes target).fields)
      (inner : Leads shapes q field.role (here ++ [.index index] ++ [.named field.name]) full place
        goal) :
      Leads shapes q (.list target) here full place goal

/-- A full path leads from the fields of a shape at a path to a place. -/
def Resolves (shapes : ι → Shape ι) (q : Query) (shape : Shape ι) (path full place : Path)
    (goal : Target) : Prop :=
  ∃ field ∈ shape.fields, Leads shapes q field.role (path ++ [.named field.name]) full place goal

theorem Leads.isPrefix {shapes : ι → Shape ι} {q : Query} {role : Role ι} {here full place : Path}
    {goal : Target} (h : Leads shapes q role here full place goal) : here <+: full := by
  induction h with
  | parameter => exact List.prefix_refl _
  | equality => exact List.prefix_refl _
  | operation => exact List.prefix_append _ _
  | memberEquality => exact List.prefix_append _ _
  | memberOperation =>
    rw [List.append_assoc]
    exact List.prefix_append _ _
  | nested _ _ ih => exact (List.prefix_append _ _).trans ih
  | list _ _ _ ih =>
    rw [List.append_assoc] at ih
    exact (List.prefix_append _ _).trans ih

theorem Resolves.exists_eq {shapes : ι → Shape ι} {q : Query} {shape : Shape ι}
    {path full place : Path} {goal : Target} (h : Resolves shapes q shape path full place goal) :
    ∃ segment rest, full = path ++ segment :: rest := by
  obtain ⟨field, -, hleads⟩ := h
  obtain ⟨rest, hfull⟩ := hleads.isPrefix
  exact ⟨.named field.name, rest, by rw [← hfull, List.append_assoc]; rfl⟩

/-- No two fields of the shape, and no two members of a leaf of it, have one name, whatever the case
of their ASCII letters. -/
structure Shape.DistinctNames (shape : Shape ι) : Prop where
  fields : (shape.fields.map fun field => lowerAscii field.name).Nodup
  members : ∀ field ∈ shape.fields, ∀ type, field.role = .leaf (.composite type) →
    (type.members.map fun m => lowerAscii m.name).Nodup

/-! ## Trees that hold exactly what is asked for -/

/-- The items are what the keys of a query ask for, where `leads` tells the place and the target of
a full path. -/
structure Exact (coercer : Coercer) (q : Query) (leads : Path → Path → Target → Prop)
    (items : List (Path × Item)) : Prop where
  /-- Every item comes from a key of its own, and every key whose value asks for an item has it. -/
  accounted : Accounted
    (fun (entry : Key × String) (item : Path × Item) => entry ∈ q.entries ∧
      ∃ goal, leads entry.1.full item.1 goal ∧ Answers coercer goal entry.2 item.2) items
  /-- Every key that leads to a target asks for an item there, unless it lists nothing. -/
  answered : ∀ entry ∈ q.entries, ∀ place goal, leads entry.1.full place goal →
    (∃ item, Answers coercer goal entry.2 item) ∨ goal.ListsNothing entry.2

namespace Exact

variable {coercer : Coercer} {q : Query} {leads leads' : Path → Path → Target → Prop}
  {items : List (Path × Item)}

theorem congr (h : Exact coercer q leads items)
    (same : ∀ full place goal, leads full place goal ↔ leads' full place goal) :
    Exact coercer q leads' items where
  accounted := h.accounted.congr fun a b => by simp only [same]
  answered := fun entry hentry place goal hleads =>
    h.answered entry hentry place goal ((same _ _ _).2 hleads)

theorem nil (h : ∀ entry ∈ q.entries, ∀ place goal, ¬ leads entry.1.full place goal) :
    Exact coercer q leads [] where
  accounted := Accounted.nil fun entry item => by
    rintro ⟨hentry, goal, hleads, -⟩
    exact h entry hentry item.1 goal hleads
  answered := fun entry hentry place goal hleads => (h entry hentry place goal hleads).elim

/-- Parts are put together if no full path leads into two of them. -/
theorem flatten {γ : Type} {leadsOf : γ → Path → Path → Target → Prop} {xs : List γ}
    {parts : List (List (Path × Item))}
    (each : List.Forall₂ (fun x part => Exact coercer q (leadsOf x) part) xs parts)
    (apart : xs.Pairwise fun x y => ∀ full place place' goal goal', leadsOf x full place goal →
      ¬ leadsOf y full place' goal') :
    Exact coercer q (fun full place goal => ∃ x ∈ xs, leadsOf x full place goal) parts.flatten where
  accounted := by
    refine (Accounted.flatten (each.imp fun _ _ h => h.accounted) (apart.imp ?_)).congr ?_
    · rintro x y hxy entry item item' ⟨-, goal, hleads, -⟩ ⟨-, goal', hleads', -⟩
      exact hxy _ _ _ _ _ hleads hleads'
    · intro entry item
      constructor
      · rintro ⟨x, hx, hentry, goal, hleads, hasks⟩
        exact ⟨hentry, goal, ⟨x, hx, hleads⟩, hasks⟩
      · rintro ⟨hentry, goal, ⟨x, hx, hleads⟩, hasks⟩
        exact ⟨x, hx, hentry, goal, hleads, hasks⟩
  answered := by
    rintro entry hentry place goal ⟨x, hx, hleads⟩
    obtain ⟨i, hi, rfl⟩ := List.getElem_of_mem hx
    have hpart := (List.forall₂_iff_get.1 each).2 i hi
      ((List.forall₂_iff_get.1 each).1 ▸ hi)
    exact hpart.answered entry hentry place goal hleads

end Exact

end BracketFilter
