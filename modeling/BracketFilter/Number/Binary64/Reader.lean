import BracketFilter.Number.Binary64
import BracketFilter.Text.Numeral

/-!
# Reading floating-point numbers

* `Binary64.read?` — an optional sign, then either digits with an optional point and exponent (a
  digit on at least one side of the point), or `inf`, `infinity` or `nan` in any ASCII case. The
  result is the number nearest to the decimal that is written.
-/

set_option autoImplicit false

namespace BracketFilter.Binary64

open BracketFilter.Text


/-- The number nearest to `digits * 10 ^ exponent`. Exponents that are out of reach of every finite
number are answered without computing the power. -/
def ofDecimal (negative : Bool) (digits : Nat) (exponent : Int) : Binary64 :=
  let top := (writeNat digits).length + exponent
  if digits = 0 ∨ top < -330 then .finite negative 0
  else if 320 < top then .infinite negative
  else if 0 ≤ exponent then ofRatio negative (digits * Nat.pow 10 exponent.toNat) 1
  else ofRatio negative digits (Nat.pow 10 (-exponent).toNat)

/-- The exponent after a number's digits: nothing, or `e` and a signed run of digits. -/
def readExponent? : List Char → Option Int
  | [] => some 0
  | c :: rest => if c = 'e' ∨ c = 'E' then readInt? rest else none

/-- A number without sign. -/
def readDigits? (negative : Bool) (cs : List Char) : Option Binary64 :=
  let whole := cs.takeWhile Char.isDigit
  let afterWhole := cs.dropWhile Char.isDigit
  let (fraction, tail) :=
    match afterWhole with
    | '.' :: rest => (rest.takeWhile Char.isDigit, rest.dropWhile Char.isDigit)
    | rest => ([], rest)
  match readNat? (whole ++ fraction), readExponent? tail with
  | some digits, some exponent => some (ofDecimal negative digits (exponent - fraction.length))
  | _, _ => none

/-- A number or a name of one of the other values, without sign. -/
def readUnsigned? (negative : Bool) (cs : List Char) : Option Binary64 :=
  let word := cs.map Char.toLower
  if word = "nan".toList then some .nan
  else if word = "inf".toList ∨ word = "infinity".toList then some (.infinite negative)
  else readDigits? negative cs

/-- The number that a text denotes. -/
def read? : List Char → Option Binary64
  | '-' :: cs => readUnsigned? true cs
  | '+' :: cs => readUnsigned? false cs
  | cs => readUnsigned? false cs

end BracketFilter.Binary64
