/-!
# Limits of a binding

* `Limits` — how deep filters may nest, how many entries a list may have, and how many values a
  membership operation may list.
-/

set_option autoImplicit false

namespace BracketFilter

/-- The limits of a binding, with their usual values as defaults. -/
structure Limits where
  maxDepth : Nat := 8
  maxListItems : Nat := 100
  maxInValues : Nat := 1000
  deriving DecidableEq, Repr

/-- The usual limits. -/
def Limits.standard : Limits := {}

end BracketFilter
