import BracketFilter.Binding
import BracketFilter.Predicate
import BracketFilter.Record
import BracketFilter.Text.Quoted

/-!
# Inspection texts

A text that shows how a value is made up, for logs and tests: constructors with their arguments,
structures with their fields, texts in quotes. What cannot be looked into is shown as `..`.

* `Value.inspect`, `Leaf.inspect`, `Shape.inspect`, `Node.inspect` — the parts of a filter tree.
* `Limits.inspect`, `Binder.inspect`, `RecordType.inspect`, `Predicate.inspect` — the rest.
* `Node.inspectBound` — a tree that was bound for a filter.
-/

set_option autoImplicit false

namespace BracketFilter

open BracketFilter.Text

namespace Inspect

/-- Items with commas between them. -/
def commas (items : List String) : String := ", ".intercalate items

/-- A constructor with one argument. -/
def applied (name argument : String) : String := name ++ "(" ++ argument ++ ")"

/-- A list. -/
def list (items : List String) : String := "[" ++ commas items ++ "]"

/-- A pair. -/
def pair (first second : String) : String := "(" ++ commas [first, second] ++ ")"

/-- The fields of a structure in braces. -/
def braces (name : String) (parts : List String) : String :=
  name ++ " \x7b " ++ commas parts ++ " \x7d"

/-- A field of a structure. -/
def part (name value : String) : String := name ++ ": " ++ value

/-- A structure with its fields. -/
def record (name : String) (fields : List (String × String)) : String :=
  braces name (fields.map fun f => part f.1 f.2)

/-- A truth value. -/
def bool (b : Bool) : String := if b then "true" else "false"

/-- A text that may be absent. -/
def optional : Option String → String
  | some text => applied "Some" (quoted text)
  | none => "None"

end Inspect

open Inspect

/-- The name of an operation in inspection texts. -/
def Operation.inspect : Operation → String
  | eq => "Eq"
  | ne => "Ne"
  | gt => "Gt"
  | gte => "Gte"
  | lt => "Lt"
  | lte => "Lte"
  | like => "Like"
  | notLike => "NotLike"
  | startsWith => "StartsWith"
  | notStartsWith => "NotStartsWith"
  | endsWith => "EndsWith"
  | notEndsWith => "NotEndsWith"
  | inside => "In"
  | notInside => "NotIn"

/-- A value with the name of its kind. -/
def Value.inspect : Value → String
  | null => "Null"
  | bool b => applied "Bool" (Inspect.bool b)
  | i64 n => applied "I64" (write (i64 n))
  | f64 x => applied "F64" (String.ofList x.inspect)
  | decimal d => applied "Decimal" (write (decimal d))
  | uuid u => applied "Uuid" (write (uuid u))
  | dateTime m => applied "DateTime" (String.ofList m.writeZulu)
  | date d => applied "Date" (write (date d))
  | time t => applied "Time" (write (time t))
  | string s => applied "String" (quoted s)

/-- A value type. -/
def ValueType.inspect (type : ValueType) : String :=
  record "ValueType" [("kind", type.kind.name), ("nullable", Inspect.bool type.nullable)]

/-- A member of a composite. -/
def Member.inspect (m : Member) : String :=
  record "MemberShape" [("name", quoted m.name), ("ty", m.type.inspect)]

/-- A composite. -/
def Composite.inspect (c : Composite) : String :=
  record "CompositeType"
    [("name", quoted c.name), ("members", Inspect.list (c.members.map Member.inspect))]

/-- The type of a leaf. -/
def LeafType.inspect : LeafType → String
  | primitive type => applied "Primitive" type.inspect
  | composite type => applied "Composite" type.inspect

/-- An operation with its operands. -/
def Applied.inspect (a : Applied) : String :=
  record "AppliedOperation"
    [("kind", a.operation.inspect), ("values", Inspect.list (a.values.map Value.inspect)),
      ("multi_valued", Inspect.bool a.multiValued), ("field_override", optional a.member)]

/-- A leaf. -/
def Leaf.inspect (leaf : Leaf) : String :=
  record "FilterOperations"
    [("value_type", leaf.type.inspect),
      ("operations", Inspect.list (leaf.operations.map Applied.inspect))]

section

variable {ι : Type}

/-- The role of a field; the shapes of embedded filters are not looked into. -/
def Role.inspect : Role ι → String
  | scalar type => applied "Scalar" type.inspect
  | leaf type => applied "Leaf" type.inspect
  | nested _ => "Nested(..)"
  | list _ => "List(..)"

/-- A field of a shape. -/
def FieldShape.inspect (field : FieldShape ι) : String :=
  record "FieldShape" [("name", quoted field.name), ("role", field.role.inspect)]

/-- A shape. -/
def Shape.inspect (shape : Shape ι) : String :=
  record "FilterShape"
    [("name", quoted shape.name), ("fields", Inspect.list (shape.fields.map FieldShape.inspect))]

mutual

/-- A node. -/
def Node.inspect : Node ι → String
  | .mk shape entries =>
    record "FilterRequestNode"
      [("shape", shape.inspect), ("entries", Inspect.list (inspectEntries entries))]

/-- The entries of a node, each with the name of its field. -/
def inspectEntries : List (String × Entry ι) → List String
  | [] => []
  | (name, entry) :: rest => pair (quoted name) (Entry.inspect entry) :: inspectEntries rest

/-- An entry. -/
def Entry.inspect : Entry ι → String
  | .scalar value => applied "Scalar" value.inspect
  | .leaf l => applied "Leaf" l.inspect
  | .nested child => applied "Nested" (Node.inspect child)
  | .list items => applied "List" (Inspect.list (inspectNodes items))

/-- The nodes of a list. -/
def inspectNodes : List (Node ι) → List String
  | [] => []
  | node :: rest => Node.inspect node :: inspectNodes rest

end

/-- A tree that was bound for a filter. -/
def Node.inspectBound (node : Node ι) : String := applied "BoundFilter" node.inspect

end

/-- Limits. -/
def Limits.inspect (limits : Limits) : String :=
  record "FilterLimits"
    [("max_depth", natText limits.maxDepth), ("max_list_items", natText limits.maxListItems),
      ("max_in_values", natText limits.maxInValues)]

/-- A binder; its reader of operands cannot be looked into. -/
def Binder.inspect (b : Binder) : String :=
  braces "FilterTreeBuilder" [part "limits" b.limits.inspect, ".."]

/-- A record type with the names of its fields. -/
def RecordType.inspect {κ : Type} {C : κ → Type} {R : Type} (type : RecordType κ C R) : String :=
  record "RecordSchema"
    [("name", quoted type.name), ("fields", Inspect.list (type.fieldNames.map quoted))]

/-- A predicate, which cannot be looked into. -/
def Predicate.inspect {m : Type → Type} {α : Type} (_ : Predicate m α) : String := "Predicate(..)"

end BracketFilter
