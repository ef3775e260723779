import BracketFilter.Error
import BracketFilter.Text.Blank

/-!
# Leaves: operations on one field

* `Applied` — an operation with its operands, and the member that it is about if the field is a
  composite.
* `Leaf` — the operations that are asked for on one field, in their order.
* `Leaf.read` — what an operation and a raw value ask for on a field of a type.
* `Leaf.apply` — a call that asks for one more operation: what it answers, and the leaf that it
  leaves behind.
-/

set_option autoImplicit false

namespace BracketFilter

open BracketFilter.Text

/-- An operation with its operands. -/
structure Applied where
  operation : Operation
  values : List Value
  multiValued : Bool
  member : Option String
  deriving DecidableEq

/-- The operations on one field. -/
structure Leaf where
  type : LeafType
  operations : List Applied
  deriving DecidableEq

/-- Where a raw value is applied: the field's name for errors, the reader of operands, and the
number of values that a membership operation may list. -/
structure Site where
  field : String
  coercer : Coercer
  maxInValues : Nat

namespace Site

/-- The name of the field, or of a member of it. -/
def target (site : Site) : Option String → String
  | some member => site.field ++ "." ++ member
  | none => site.field

/-- An operand of a kind, or the error that tells where it was asked for. -/
def coerce (site : Site) (member : Option String) (kind : Kind) (raw : String) :
    Except BindError Value :=
  match site.coercer raw kind with
  | .ok value => .ok value
  | .error e => .error (.coercion (site.target member) e)

/-- A membership operation lists too many values. -/
def tooManyValues (site : Site) (member : Option String) (op : Operation) (count : Nat) :
    BindError :=
  .limitExceeded ("'" ++ site.target member ++ "[" ++ op.tag ++ "]' has " ++ natText count ++
    " values, at most " ++ natText site.maxInValues ++ " allowed")

end Site

namespace Leaf

/-- The leaf without operations. -/
def empty (type : LeafType) : Leaf := ⟨type, []⟩

/-- Whether nothing is asked for. -/
def isEmpty (leaf : Leaf) : Bool := leaf.operations.isEmpty

/-- The type that an operand must have. A member is named exactly if the field is a composite. -/
def operandType? : LeafType → Option String → Option ValueType
  | .primitive type, none => some type
  | .composite type, some name => (type.member? name).map Member.type
  | _, _ => none

/-- The items of a comma-separated list, without the spaces around them and without empty ones. -/
def tokens (raw : String) : List String :=
  (((raw.toList.splitOn ',').map (trimBoth (· == ' '))).filter (· ≠ [])).map String.ofList

/-- What an operation and a raw value ask for on an operand of a kind: `none` for a membership
operation that lists nothing. A comparison takes the whole value and a text operation takes it
unread; the number of listed values is checked before any is read. -/
def read (site : Site) (member : Option String) (kind : Kind) (op : Operation) (raw : String) :
    Except BindError (Option Applied) :=
  match op.family with
  | .comparison =>
    match site.coerce member kind raw with
    | .error e => .error e
    | .ok value => .ok (some ⟨op, [value], false, member⟩)
  | .text =>
    if kind.isText then .ok (some ⟨op, [.string raw], false, member⟩)
    else .error (.unsupportedOperation (site.target member) op kind)
  | .membership =>
    let items := tokens raw
    if site.maxInValues < items.length then .error (site.tooManyValues member op items.length)
    else if items = [] then .ok none
    else
      match items.mapM (site.coerce member kind) with
      | .error e => .error e
      | .ok values => .ok (some ⟨op, values, true, member⟩)

/-- Append what a value was read as. The answer is whether there was something to append, or the
error of the reader; the leaf is the one behind the call. -/
def extend (leaf : Leaf) : Except BindError (Option Applied) → Except BindError Bool × Leaf
  | .error e => (.error e, leaf)
  | .ok none => (.ok false, leaf)
  | .ok (some applied) => (.ok true, { leaf with operations := leaf.operations ++ [applied] })

/-- A call on a leaf: append what an operation and a raw value ask for. A member that does not fit
the type of the field is passed over before the value is read. -/
def apply (leaf : Leaf) (site : Site) (member : Option String) (op : Operation) (raw : String) :
    Except BindError Bool × Leaf :=
  match operandType? leaf.type member with
  | none => (.ok false, leaf)
  | some type => leaf.extend (read site member type.kind op raw)

end Leaf

end BracketFilter
