import BracketFilter.Json
import BracketFilter.Limits
import BracketFilter.Text.Numeral

/-!
# Limits in a configuration

* `Limits.read?` — the limits that a JSON text sets: an object whose members are named after the
  limits, or an array of at most three numbers in their order. What is not set keeps its usual
  value, and other members are ignored. A limit that is set twice is an error.
-/

set_option autoImplicit false

namespace BracketFilter.Limits

open BracketFilter.Text


/-- The first number that is too large for a limit. -/
def bound : Nat := Nat.pow 2 64

/-- A whole number that is written without sign, fraction and exponent. -/
def number? : Json → Option Nat
  | .number numeral => (readNat? numeral).filter (· < bound)
  | _ => none

/-- The value of the member with a label: `none` if there is an error, and `some none` if there is
no such member. -/
def member? (label : String) (members : List (Option String × Json)) : Option (Option Nat) :=
  match members.filter fun m => m.1 = some label with
  | [] => some none
  | [(_, value)] => (number? value).map some
  | _ => none

/-- The limits that an object sets. -/
def ofMembers? (members : List (Option String × Json)) : Option Limits := do
  if members.any fun m => m.1.isNone then none
  else
    let depth ← member? "max_depth" members
    let items ← member? "max_list_items" members
    let values ← member? "max_in_values" members
    pure
      { maxDepth := depth.getD standard.maxDepth
        maxListItems := items.getD standard.maxListItems
        maxInValues := values.getD standard.maxInValues }

/-- The limits that an array sets, from the first one on. -/
def ofElements? (elements : List Json) : Option Limits := do
  match ← elements.mapM number? with
  | [] => pure standard
  | [depth] => pure { maxDepth := depth }
  | [depth, items] => pure { maxDepth := depth, maxListItems := items }
  | [depth, items, values] =>
    pure { maxDepth := depth, maxListItems := items, maxInValues := values }
  | _ => none

/-- The limits that a JSON text sets. -/
def read? (text : String) : Option Limits :=
  match Json.read? text.toList with
  | some (.object members) => ofMembers? members
  | some (.array elements) => ofElements? elements
  | _ => none

end BracketFilter.Limits
