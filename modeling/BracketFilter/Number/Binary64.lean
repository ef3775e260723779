/-!
# Binary floating-point numbers of 64 bits

* `Binary64` — a magnitude is a count of units of `2 ^ -1074`, the smallest positive number, so
  that every finite number is a whole number of units and all arithmetic is on `Nat`.
* `Binary64.ofRatio` — the number nearest to a quotient; a tie goes to the even neighbour.
* `Binary64.compare?` — the numeric order; `nan` is comparable with nothing, and the two zeros are
  equal.
-/

set_option autoImplicit false

namespace BracketFilter


/-- A floating-point number; `units` counts multiples of `2 ^ -1074`. -/
inductive Binary64 where
  | nan
  | infinite (negative : Bool)
  | finite (negative : Bool) (units : Nat)
  deriving DecidableEq, Repr

namespace Binary64

/-- The units that make up the number one. -/
def unitsPerOne : Nat := Nat.pow 2 1074

/-- The first magnitude that is too large to be finite. -/
def overflowUnits : Nat := Nat.pow 2 2098

/-- The distance between neighbours around a magnitude: 53 significant bits are kept. -/
def spacing (units : Nat) : Nat := Nat.pow 2 (units.log2 - 52)

/-- A quotient rounded to the nearest whole number; a tie goes to the even one. -/
def roundDiv (num den : Nat) : Nat :=
  let q := num / den
  let r := num % den
  if 2 * r < den ∨ (2 * r = den ∧ q % 2 = 0) then q else q + 1

/-- The magnitude nearest to the quotient `num / den`. -/
def nearestUnits (num den : Nat) : Nat :=
  let scaled := num * unitsPerOne
  let step := spacing (scaled / den)
  roundDiv scaled (den * step) * step

/-- The number nearest to a quotient, infinite if its magnitude is too large. -/
def ofRatio (negative : Bool) (num den : Nat) : Binary64 :=
  let units := nearestUnits num den
  if units < overflowUnits then .finite negative units else .infinite negative

/-- Whether the number is neither infinite nor `nan`. -/
def isFinite : Binary64 → Bool
  | .finite _ _ => true
  | _ => false

/-- The place of a number on the line, in units; the infinities stand beyond all finite numbers. -/
def place : Binary64 → Int
  | .nan => 0
  | .infinite negative => if negative then -(overflowUnits : Int) else overflowUnits
  | .finite negative units => if negative then -(units : Int) else units

/-- The numeric order. -/
def compare? (a b : Binary64) : Option Ordering :=
  if a = .nan ∨ b = .nan then none else some (compare a.place b.place)

end Binary64

end BracketFilter
