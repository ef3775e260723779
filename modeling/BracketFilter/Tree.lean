import BracketFilter.Leaf
import BracketFilter.Shape

/-!
# Filter trees

* `Node`, `Entry` — what a request asks of a filter: an entry for every field that it mentions, in
  the order of declaration.
* `Node.get?` and its companions — the entry of a field.
-/

set_option autoImplicit false

namespace BracketFilter

open BracketFilter.Text

variable {ι : Type}

mutual

/-- A filter with the entries that are asked for. -/
inductive Node (ι : Type) where
  | mk (shape : Shape ι) (entries : List (String × Entry ι))

/-- What is asked for on a field. -/
inductive Entry (ι : Type) where
  | scalar (value : Value)
  | leaf (leaf : Leaf)
  | nested (child : Node ι)
  | list (items : List (Node ι))

end

namespace Node

/-- The shape that the node was built for. -/
def shape : Node ι → Shape ι
  | mk shape _ => shape

/-- The entries, each with the name of its field. -/
def entries : Node ι → List (String × Entry ι)
  | mk _ entries => entries

/-- The number of entries. -/
def size (node : Node ι) : Nat := node.entries.length

/-- Whether nothing is asked for. -/
def isEmpty (node : Node ι) : Bool := node.entries.isEmpty

/-- The first entry of a field, whatever the case of the ASCII letters in its name. -/
def get? (node : Node ι) (name : String) : Option (Entry ι) :=
  (node.entries.find? fun e => sameName e.1 name).map Prod.snd

/-- The value of a parameter. -/
def scalar? (node : Node ι) (name : String) : Option Value :=
  match node.get? name with
  | some (.scalar value) => some value
  | _ => none

/-- The operations on a leaf. -/
def leaf? (node : Node ι) (name : String) : Option Leaf :=
  match node.get? name with
  | some (.leaf leaf) => some leaf
  | _ => none

/-- The filter on an embedded record. -/
def nested? (node : Node ι) (name : String) : Option (Node ι) :=
  match node.get? name with
  | some (.nested child) => some child
  | _ => none

/-- The filters on the entries of a list. -/
def list? (node : Node ι) (name : String) : Option (List (Node ι)) :=
  match node.get? name with
  | some (.list items) => some items
  | _ => none

end Node

end BracketFilter
