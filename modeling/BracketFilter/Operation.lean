import BracketFilter.Text.Ascii

/-!
# Filter operations

* `Operation` — the fourteen tests that a key can ask for, each with a tag such as `gte`.
* `Operation.all` — the operations in their order.
* `Operation.ofTag?` — the operation that a tag names, in any ASCII case.
* `Operation.family` — comparison with one value, text search, or membership in a list of values.
* `Operation.isNegated` — the operations that ask for the absence of what their partner asks for.
-/

set_option autoImplicit false

namespace BracketFilter

/-- What kind of operand an operation takes. -/
inductive Family where
  | comparison
  | text
  | membership
  deriving DecidableEq, Repr

/-- A test on a field. -/
inductive Operation where
  | eq
  | ne
  | gt
  | gte
  | lt
  | lte
  | like
  | notLike
  | startsWith
  | notStartsWith
  | endsWith
  | notEndsWith
  | inside
  | notInside
  deriving DecidableEq, Repr

namespace Operation

open BracketFilter.Text

/-- Every operation, in the order in which the keys of a field are looked up. -/
def all : List Operation :=
  [eq, ne, gt, gte, lt, lte, like, notLike, startsWith, notStartsWith, endsWith, notEndsWith,
    inside, notInside]

/-- The word that names an operation in a key. -/
def tag : Operation → String
  | eq => "eq"
  | ne => "ne"
  | gt => "gt"
  | gte => "gte"
  | lt => "lt"
  | lte => "lte"
  | like => "li"
  | notLike => "nli"
  | startsWith => "sw"
  | notStartsWith => "nsw"
  | endsWith => "ew"
  | notEndsWith => "new"
  | inside => "in"
  | notInside => "nin"

/-- The operation that a word names, whatever the case of its ASCII letters. -/
def ofTag? (word : String) : Option Operation := all.find? fun op => sameName op.tag word

/-- The kind of operand. -/
def family : Operation → Family
  | eq | ne | gt | gte | lt | lte => .comparison
  | like | notLike | startsWith | notStartsWith | endsWith | notEndsWith => .text
  | inside | notInside => .membership

/-- Whether the operand is a list of values. -/
def isMultiValued (op : Operation) : Bool := op.family == .membership

/-- Whether the operation is the negation of another. -/
def isNegated : Operation → Bool
  | ne | notLike | notStartsWith | notEndsWith | notInside => true
  | _ => false

/-- Where the operation stands in `all`. -/
def position (op : Operation) : Nat := all.idxOf op

theorem ofTag?_tag (op : Operation) : ofTag? op.tag = some op := by cases op <;> decide

theorem mem_all (op : Operation) : op ∈ all := by cases op <;> decide

end Operation

end BracketFilter
