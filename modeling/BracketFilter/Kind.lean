import BracketFilter.Text.Ascii

/-!
# Types of values

* `Kind` — the nine kinds of values.
* `ValueType` — a kind, possibly nullable; types of one kind are compatible.
* `Composite` — a value made of named members.
* `LeafType` — what a filter can be put on: a value, or the members of a composite.
-/

set_option autoImplicit false

namespace BracketFilter

open BracketFilter.Text

/-- The kinds of values. -/
inductive Kind where
  | string
  | i64
  | f64
  | bool
  | uuid
  | dateTimeUtc
  | date
  | time
  | decimal
  deriving DecidableEq, Repr

namespace Kind

/-- Every kind. -/
def all : List Kind := [string, i64, f64, bool, uuid, dateTimeUtc, date, time, decimal]

/-- The name of a kind. -/
def name : Kind → String
  | string => "String"
  | i64 => "I64"
  | f64 => "F64"
  | bool => "Bool"
  | uuid => "Uuid"
  | dateTimeUtc => "DateTimeUtc"
  | date => "Date"
  | time => "Time"
  | decimal => "Decimal"

/-- Whether text operations apply to the kind. -/
def isText (kind : Kind) : Bool := kind == string

end Kind

/-- A kind, and whether a value may be absent. -/
structure ValueType where
  kind : Kind
  nullable : Bool
  deriving DecidableEq, Repr

namespace ValueType

/-- The name of the kind, marked as an option if it is nullable. -/
def name (type : ValueType) : String :=
  if type.nullable then "Option<" ++ type.kind.name ++ ">" else type.kind.name

/-- Whether values of the two types are of one kind. -/
def compatible (a b : ValueType) : Bool := a.kind == b.kind

end ValueType

/-- A part of a composite. -/
structure Member where
  name : String
  type : ValueType
  deriving DecidableEq, Repr

/-- A value made of members. -/
structure Composite where
  name : String
  members : List Member
  deriving DecidableEq, Repr

/-- The first member with a name, whatever the case of its ASCII letters. -/
def Composite.member? (composite : Composite) (name : String) : Option Member :=
  composite.members.find? fun m => sameName m.name name

/-- What a leaf of a filter tests. -/
inductive LeafType where
  | primitive (type : ValueType)
  | composite (type : Composite)
  deriving DecidableEq, Repr

/-- The name of the type. -/
def LeafType.name : LeafType → String
  | .primitive type => type.name
  | .composite type => type.name

end BracketFilter
