import BracketFilter.Number.Binary64
import BracketFilter.Text.Numeral

/-!
# Writing floating-point numbers

* `Binary64.shortest` — the fewest decimal digits that read back as the number, and of those the
  nearest to it.
* `Binary64.write` — these digits in positional notation, whatever the magnitude.
* `Binary64.inspect` — the same with at least one digit after the point, or with an exponent for
  magnitudes below `1e-4` or from `1e16` on.
-/

set_option autoImplicit false

namespace BracketFilter.Binary64

open BracketFilter.Text


/-- The numbers that read as one magnitude, in quarters of a unit: the magnitude, the ends of the
interval and whether the ends belong to it. -/
structure Interval where
  low : Nat
  value : Nat
  high : Nat
  closed : Bool

/-- Half the way to each neighbour. Below a power of two the neighbour is twice as near; the ends
belong to the number with the even mantissa. -/
def interval (units : Nat) : Interval :=
  let step := spacing units
  let mantissa := units / step
  let below := if mantissa = Nat.pow 2 52 ∧ 1 < step then step else 2 * step
  { low := 4 * units - below
    value := 4 * units
    high := 4 * units + 2 * step
    closed := mantissa % 2 == 0 }

/-- Whether a number lies in the interval. -/
def Interval.contains (i : Interval) (x : Nat) : Bool :=
  if i.closed then i.low ≤ x && x ≤ i.high else i.low < x && x < i.high

/-- The interval with everything multiplied. -/
def Interval.scale (i : Interval) (k : Nat) : Interval :=
  { i with low := i.low * k, value := i.value * k, high := i.high * k }

/-- The multiple of `grid` in the interval that is nearest to the value, as a multiple; of two
equally near ones the larger. -/
def Interval.multiple? (i : Interval) (grid : Nat) : Option Nat :=
  let n := i.value / grid
  let down := n * grid
  let up := down + grid
  match i.contains down, i.contains up with
  | true, true => some (if i.value - down < up - i.value then n else n + 1)
  | true, false => some n
  | false, true => some (n + 1)
  | false, false => none

/-- The multiple of `10 ^ exponent` that reads back as the magnitude. -/
def digitsAt? (units : Nat) (exponent : Int) : Option Nat :=
  if 0 ≤ exponent then (interval units).multiple? (Nat.pow 10 exponent.toNat * (4 * unitsPerOne))
  else ((interval units).scale (Nat.pow 10 (-exponent).toNat)).multiple? (4 * unitsPerOne)

/-- The shortest decimal of a positive magnitude: digits and the exponent of the last one. The
search goes from coarse grids of powers of ten to fine ones. -/
def shortest (units : Nat) : Nat × Int :=
  let top : Int := (writeNat (units / unitsPerOne)).length
  ((List.range 680).findSome? fun (i : Nat) =>
    (digitsAt? units (top - i)).map fun n => (n, top - (i : Int))).getD (0, 0)

/-- Digits with the last one at `10 ^ exponent`, in positional notation. -/
def positional (digits : List Char) (exponent : Int) : List Char :=
  if 0 ≤ exponent then digits ++ List.replicate exponent.toNat '0'
  else
    let places := (-exponent).toNat
    let filled := zeroFill (places + 1) digits
    filled.take (filled.length - places) ++ '.' :: filled.drop (filled.length - places)

/-- The sign of a number that is written with one. -/
def signText (negative : Bool) : List Char := if negative then ['-'] else []

/-- The number in positional notation, with the fewest digits that read back. -/
def write : Binary64 → List Char
  | .nan => "NaN".toList
  | .infinite negative => signText negative ++ "inf".toList
  | .finite negative units =>
    if units = 0 then signText negative ++ ['0']
    else
      let (digits, exponent) := shortest units
      signText negative ++ positional (writeNat digits) exponent

/-- Digits with the last one at `10 ^ exponent`, with one digit before the point and an exponent. -/
def scientific (digits : List Char) (exponent : Int) : List Char :=
  let tail := digits.drop 1
  digits.take 1 ++ (if tail = [] then [] else '.' :: tail) ++
    'e' :: writeInt (exponent + tail.length)

/-- The number as it stands in an inspection text. -/
def inspect : Binary64 → List Char
  | .finite negative units =>
    if units = 0 then signText negative ++ "0.0".toList
    else
      let (digits, exponent) := shortest units
      let body :=
        if units < nearestUnits 1 10000 ∨ Nat.pow 10 16 * unitsPerOne ≤ units then
          scientific (writeNat digits) exponent
        else if 0 ≤ exponent then positional (writeNat digits) exponent ++ ".0".toList
        else positional (writeNat digits) exponent
      signText negative ++ body
  | x => x.write

end BracketFilter.Binary64
