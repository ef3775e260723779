import BracketFilter.Text.Numeral

/-!
# Decimal numbers with a scale

* `Decimal` — a sign, a magnitude below `2 ^ 96` and the number of digits after the point, at most
  28. Numbers of one value may differ in scale, and the scale is kept; zero may have either sign.
* `Decimal.compare` — the order of the exact values, in which the two zeros are equal.
* `Decimal.write` — the sign and all digits of the scale.
* `Decimal.read?` — plain and scientific notation. What does not fit is rounded half up in
  magnitude.
-/

set_option autoImplicit false

namespace BracketFilter


/-- The first magnitude that does not fit. -/
def Decimal.magnitudeBound : Nat := Nat.pow 2 96

/-- The most digits after the point. -/
def Decimal.maxScale : Nat := 28

/-- The number `magnitude / 10 ^ scale`, below zero if it is negative. -/
structure Decimal where
  negative : Bool
  magnitude : Nat
  scale : Nat
  magnitude_lt : magnitude < Decimal.magnitudeBound
  scale_le : scale ≤ Decimal.maxScale
  deriving DecidableEq, Repr

namespace Decimal

open BracketFilter.Text

/-- The decimal with these parts, if they fit. -/
def ofParts? (negative : Bool) (magnitude scale : Nat) : Option Decimal :=
  if h : magnitude < magnitudeBound ∧ scale ≤ maxScale then
    some ⟨negative, magnitude, scale, h.1, h.2⟩
  else none

/-- The magnitude with its sign. -/
def coefficient (d : Decimal) : Int := if d.negative then -(d.magnitude : Int) else d.magnitude

/-- The order of the exact values, whatever the scales. -/
def compare (a b : Decimal) : Ordering :=
  Ord.compare (a.coefficient * Nat.pow 10 b.scale) (b.coefficient * Nat.pow 10 a.scale)

/-! ## Writing -/

/-- The digits of a magnitude with `scale` of them after the point. -/
def writeMagnitude (n scale : Nat) : List Char :=
  if scale = 0 then writeNat n
  else
    let digits := padded (scale + 1) n
    digits.take (digits.length - scale) ++ '.' :: digits.drop (digits.length - scale)

/-- The number with every digit of its scale. A negative zero shows its sign. -/
def write (d : Decimal) : List Char :=
  (if d.negative then ['-'] else []) ++ writeMagnitude d.magnitude d.scale

/-! ## Reading -/

/-- What has been read of a number: its digits, how many of them stand after the point, whether a
point was met and whether a digit was. -/
structure Progress where
  digits : Nat
  places : Nat
  point : Bool
  started : Bool

/-- The value of an ASCII digit. -/
def digitValue (c : Char) : Nat := c.toNat - '0'.toNat

/-- The digits so far, rounded half up by the digit that follows. A magnitude that no longer fits
gives up its own last digit after the point, if it has one. -/
def roundBy (p : Progress) (digit : Nat) : Option (Nat × Nat) :=
  if digit < 5 then some (p.digits, p.places)
  else if p.digits + 1 < magnitudeBound then some (p.digits + 1, p.places)
  else if p.places = 0 then none
  else some ((p.digits + 5) / 10, p.places - 1)

/-- The digits so far, rounded by a digit behind which only digits and underscores stand. -/
def finishBy (p : Progress) (digit : Nat) (rest : List Char) : Option (Nat × Nat) :=
  if rest.all fun c => c.isDigit || c == '_' then roundBy p digit else none

/-- Below this bound one more digit fits 64 bits, with room to spare. -/
def wordBound : Nat := (Nat.pow 2 64 - 1) / 10 - 255

/-- Reads on where 28 digits stand after the point: the next digit rounds the number. An underscore
before it is skipped; where the digits without the last one are below `wordBound`, it stands for the
digit zero instead. -/
def readRounding (p : Progress) : List Char → Option (Nat × Nat)
  | [] => some (p.digits, p.places)
  | c :: rest =>
    if c.isDigit then finishBy p (digitValue c) rest
    else if c = '_' then
      if p.digits / 10 < wordBound then finishBy p 0 rest else readRounding p rest
    else none

/-- Reads digits with at most one point among them; underscores may follow a digit. The first digit
that does not fit, because 28 digits stand after the point or the magnitude is full, rounds the
number. -/
def readDigits (p : Progress) : List Char → Option (Nat × Nat)
  | [] => if p.started then some (p.digits, p.places) else none
  | c :: rest =>
    if p.point ∧ p.places = maxScale then readRounding p (c :: rest)
    else if c.isDigit then
      let next := p.digits * 10 + digitValue c
      if next < magnitudeBound then
        readDigits { p with
          digits := next, places := p.places + (if p.point then 1 else 0), started := true } rest
      else if p.point then finishBy p (digitValue c) rest
      else none
    else if c = '.' ∧ p.point = false then readDigits { p with point := true } rest
    else if c = '_' ∧ p.started then readDigits p rest
    else none

/-- Digits after an optional sign. Zero is read without its sign. -/
def readPlain? (cs : List Char) : Option Decimal :=
  let negative := cs.head? == some '-'
  let body := if cs.head? = some '-' ∨ cs.head? = some '+' then cs.drop 1 else cs
  match readDigits ⟨0, 0, false, false⟩ body with
  | some (digits, places) => ofParts? (negative && digits != 0) digits places
  | none => none

/-- The number times `10 ^ n`. The point moves through the digits after it; a whole number gains
zeros, by no more than `10 ^ 28`. -/
def shiftUp? (d : Decimal) (n : Nat) : Option Decimal :=
  if n ≤ d.scale then ofParts? d.negative d.magnitude (d.scale - n)
  else if n ≤ maxScale then ofParts? d.negative (d.magnitude * Nat.pow 10 (n - d.scale)) 0
  else none

/-- A number of units divided by `10 ^ places`, rounded half up. -/
def dropPlaces (units places : Nat) : Nat :=
  (units + Nat.pow 10 places / 2) / Nat.pow 10 places

/-- The number divided by `10 ^ n` with `n` at most 28. Digits that would stand too far behind the
point are rounded away; the sign stays, also where nothing else does. -/
def shiftDown? (d : Decimal) (n : Nat) : Option Decimal :=
  let excess := d.scale + n - maxScale
  if n ≤ maxScale then ofParts? d.negative (dropPlaces d.magnitude excess) (d.scale + n - excess)
  else none

/-- The magnitude of an exponent; a plus sign may stand in front. -/
def readMagnitude? (cs : List Char) : Option Nat :=
  readNat? (if cs.head? = some '+' then cs.drop 1 else cs)

/-- Whether a character begins an exponent. -/
def isExponentMark (c : Char) : Bool := c == 'e' || c == 'E'

/-- A plain number, or one with an exponent of ten. -/
def read? (cs : List Char) : Option Decimal :=
  match cs.dropWhile (fun c => !isExponentMark c) with
  | [] => readPlain? cs
  | _ :: exponent =>
    match readPlain? (cs.takeWhile fun c => !isExponentMark c) with
    | none => none
    | some base =>
      match exponent with
      | '-' :: magnitude => (readMagnitude? magnitude).bind base.shiftDown?
      | magnitude => (readMagnitude? magnitude).bind base.shiftUp?

end Decimal

end BracketFilter
