import BracketFilter.Kind

/-!
# Filter shapes

* `Role` — what a field of a filter takes part in: a parameter, the tests on a leaf, a filter on an
  embedded record, or filters on the entries of a list.
* `Shape` — the fields that a filter may have.

The shapes of embedded filters are given by names of a type `ι`, so that a family `ι → Shape ι` may
refer to itself in cycles.
-/

set_option autoImplicit false

namespace BracketFilter

open BracketFilter.Text

/-- What a field of a filter is for. -/
inductive Role (ι : Type) where
  | scalar (type : ValueType)
  | leaf (type : LeafType)
  | nested (shape : ι)
  | list (shape : ι)
  deriving DecidableEq, Repr

/-- A field of a filter. -/
structure FieldShape (ι : Type) where
  name : String
  role : Role ι
  deriving DecidableEq, Repr

/-- The fields of a filter, in the order of their declaration. -/
structure Shape (ι : Type) where
  name : String
  fields : List (FieldShape ι)
  deriving DecidableEq, Repr

/-- The first field with a name, whatever the case of its ASCII letters. -/
def Shape.field? {ι : Type} (shape : Shape ι) (name : String) : Option (FieldShape ι) :=
  shape.fields.find? fun f => sameName f.name name

end BracketFilter
