import BracketFilter.Number.Binary64.Reader
import BracketFilter.Value

/-!
# Coercion of texts to values

* `Coercer` — a way to read the operands of a filter: a text and the kind that is asked for give a
  value or a `CoercionError`.
* `Coercer.standard` — the rules of the kinds. A string is taken as it stands; every other kind
  ignores white space around the text.
-/

set_option autoImplicit false

namespace BracketFilter

open BracketFilter.Text

/-- A text is no value of the kind that is expected. -/
structure CoercionError where
  raw : String
  expected : Kind
  deriving DecidableEq, Repr

/-- The wording of the error. -/
def CoercionError.message (e : CoercionError) : String :=
  "cannot convert '" ++ e.raw ++ "' to " ++ e.expected.name

/-- A way to read texts as values of a kind. -/
abbrev Coercer := String → Kind → Except CoercionError Value

namespace Coercer

/-- A whole number of 64 bits. -/
def readI64? (cs : List Char) : Option Int64 :=
  match readInt? cs with
  | some n =>
    if Int64.minValue.toInt ≤ n ∧ n ≤ Int64.maxValue.toInt then some (Int64.ofInt n) else none
  | none => none

/-- A finite floating-point number. -/
def readFinite? (cs : List Char) : Option Binary64 := (Binary64.read? cs).filter Binary64.isFinite

/-- `true` or `false` in any ASCII case. -/
def readBool? (cs : List Char) : Option Bool :=
  if cs.map Char.toLower = "true".toList then some true
  else if cs.map Char.toLower = "false".toList then some false
  else none

/-- The value of a kind that a text denotes. -/
def read? (kind : Kind) (raw : String) : Option Value :=
  let cs := trim raw.toList
  match kind with
  | .string => some (.string raw)
  | .i64 => (readI64? cs).map .i64
  | .f64 => (readFinite? cs).map .f64
  | .bool => (readBool? cs).map .bool
  | .uuid => (Uuid.read? cs).map .uuid
  | .dateTimeUtc => (Moment.read? cs).map .dateTime
  | .date => (Date.read? cs).map .date
  | .time => (Time.read? cs).map .time
  | .decimal => (Decimal.read? cs).map .decimal

/-- The rules of the kinds. -/
def standard : Coercer := fun raw kind =>
  match read? kind raw with
  | some value => .ok value
  | none => .error ⟨raw, kind⟩

end Coercer

end BracketFilter
