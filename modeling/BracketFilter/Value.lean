import BracketFilter.Calendar.Moment
import BracketFilter.Kind
import BracketFilter.Number.Binary64.Printer
import BracketFilter.Number.Decimal
import BracketFilter.Uuid

/-!
# Values

* `Value` — a value of one of the kinds, or `null` for an absent one.
* `Value.compare?` — the order of two values of one kind; `null` is comparable with nothing.
* `Value.isEqualTo` — equality by that order, so that `null` is not equal to `null`.
* `Value.write`, `Value.text?` — the text of a value; `null` has none to search in.
-/

set_option autoImplicit false

namespace BracketFilter

/-- A value of a record, or an operand of a filter. -/
inductive Value where
  | null
  | bool (value : Bool)
  | i64 (value : Int64)
  | f64 (value : Binary64)
  | decimal (value : Decimal)
  | uuid (value : Uuid)
  | dateTime (value : Moment)
  | date (value : Date)
  | time (value : Time)
  | string (value : String)
  deriving DecidableEq

namespace Value

open BracketFilter.Text

/-- The kind of a value that is there. -/
def kind? : Value → Option Kind
  | null => none
  | bool _ => some .bool
  | i64 _ => some .i64
  | f64 _ => some .f64
  | decimal _ => some .decimal
  | uuid _ => some .uuid
  | dateTime _ => some .dateTimeUtc
  | date _ => some .date
  | time _ => some .time
  | string _ => some .string

/-- A short word for what a value is. -/
def typeName : Value → String
  | null => "null"
  | bool _ => "bool"
  | i64 _ => "i64"
  | f64 _ => "f64"
  | decimal _ => "decimal"
  | uuid _ => "uuid"
  | dateTime _ => "datetime"
  | date _ => "date"
  | time _ => "time"
  | string _ => "string"

/-- Whether the value is absent. -/
def isNull (v : Value) : Bool := v.kind?.isNone

/-- The order of two values of one kind. -/
def compare? : Value → Value → Option Ordering
  | bool a, bool b => some (compare a b)
  | i64 a, i64 b => some (compare a.toInt b.toInt)
  | f64 a, f64 b => a.compare? b
  | decimal a, decimal b => some (a.compare b)
  | uuid a, uuid b => some (a.compare b)
  | dateTime a, dateTime b => some (a.compare b)
  | date a, date b => some (a.compare b)
  | time a, time b => some (a.compare b)
  | string a, string b => some (compare a b)
  | _, _ => none

/-- Equality as filters see it. -/
def isEqualTo (a b : Value) : Bool := a.compare? b == some .eq

/-- The text of a value. -/
def write : Value → String
  | null => "null"
  | bool b => if b then "true" else "false"
  | i64 n => String.ofList (writeInt n.toInt)
  | f64 x => String.ofList x.write
  | decimal d => String.ofList d.write
  | uuid u => String.ofList u.write
  | dateTime m => String.ofList m.write
  | date d => String.ofList d.write
  | time t => String.ofList t.write
  | string s => s

/-- The text that text operations search in. -/
def text? (v : Value) : Option String := if v.isNull then none else some v.write

/-- The value of an optional one. -/
def ofOption : Option Value → Value
  | some v => v
  | none => null

end Value

end BracketFilter
