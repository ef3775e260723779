import BracketFilter.Text.Ascii
import BracketFilter.Value

/-!
# Record types

* `Access` — how the field of a record is read: a value, a collection of values, the members of a
  composite, an embedded record or a list of them.
* `RecordType` — the fields of a record type.
* `RecordTypes` — a family of record types. Embedded records are given by names of a type `κ`, and
  the records of type `k` are the elements of `C k`, so that a family may refer to itself in cycles.
* `RecordType.shortName` — the name of a record type without its path and its arguments.
-/

set_option autoImplicit false

namespace BracketFilter

open BracketFilter.Text

/-- A member of a composite field, and how it is read from the record. -/
structure MemberAccess (R : Type) where
  name : String
  type : ValueType
  read : R → Value

/-- How a field is read from a record. -/
inductive Access (κ : Type) (C : κ → Type) (R : Type) where
  | value (type : ValueType) (read : R → Value)
  | values (type : ValueType) (read : R → List Value)
  | composite (name : String) (members : List (MemberAccess R))
  | nested (target : κ) (read : R → Option (C target))
  | list (target : κ) (read : R → List (C target))

/-- What the field provides, in words. -/
def Access.describe {κ : Type} {C : κ → Type} {R : Type} : Access κ C R → String
  | .value type _ => type.name
  | .values type _ => "[" ++ type.name ++ "]"
  | .composite name _ => name
  | .nested _ _ => "nested record"
  | .list _ _ => "record list"

/-- The first member with a name, whatever the case of its ASCII letters. -/
def memberAccess? {R : Type} (members : List (MemberAccess R)) (name : String) :
    Option (MemberAccess R) :=
  members.find? fun m => sameName m.name name

/-- A field of a record type. -/
structure RecordField (κ : Type) (C : κ → Type) (R : Type) where
  name : String
  access : Access κ C R

/-- The fields of a record type, in the order of their declaration. -/
structure RecordType (κ : Type) (C : κ → Type) (R : Type) where
  name : String
  fields : List (RecordField κ C R)

namespace RecordType

variable {κ : Type} {C : κ → Type} {R : Type}

/-- The first field with a name, whatever the case of its ASCII letters. -/
def field? (type : RecordType κ C R) (name : String) : Option (RecordField κ C R) :=
  type.fields.find? fun f => sameName f.name name

/-- The names of the fields. -/
def fieldNames (type : RecordType κ C R) : List String := type.fields.map RecordField.name

/-- What stands behind the last pair of colons of a text, or `whole` if it has none. -/
def behindColons (whole : List Char) : List Char → List Char
  | ':' :: ':' :: rest => behindColons rest (':' :: rest)
  | _ :: rest => behindColons whole rest
  | [] => whole

/-- The last component of a path with colons between its components. -/
def lastComponent (cs : List Char) : List Char := behindColons cs cs

/-- The name of a type without its path and its arguments. -/
def shortName (name : String) : String :=
  String.ofList (lastComponent (name.toList.takeWhile (· ≠ '<')))

end RecordType

/-- A family of record types; the records of type `k` are the elements of `C k`. -/
abbrev RecordTypes (κ : Type) (C : κ → Type) := (k : κ) → RecordType κ C (C k)

end BracketFilter
