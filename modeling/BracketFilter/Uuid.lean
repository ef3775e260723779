import BracketFilter.Text.Hex

/-!
# Universally unique identifiers

* `Uuid` — 128 bits, ordered as numbers.
* `Uuid.write` — the hyphenated form in small letters.
* `Uuid.read?` — 32 digits, the hyphenated form, that form in braces, or behind `urn:uuid:`; letters
  may have either case.
-/

set_option autoImplicit false

namespace BracketFilter

/-- An identifier of 128 bits. -/
structure Uuid where
  bits : BitVec 128
  deriving DecidableEq, Repr

namespace Uuid

open BracketFilter.Text

/-- The order of identifiers as numbers. -/
def compare (a b : Uuid) : Ordering := Ord.compare a.bits.toNat b.bits.toNat

/-- The digits in groups of 8, 4, 4, 4 and 12, with hyphens between them. -/
def hyphenate (digits : List Char) : List Char :=
  digits.take 8 ++ '-' :: ((digits.drop 8).take 4 ++ '-' :: ((digits.drop 12).take 4 ++
    '-' :: ((digits.drop 16).take 4 ++ '-' :: digits.drop 20)))

/-- The hyphenated form. -/
def write (u : Uuid) : List Char := hyphenate (writeHex 32 u.bits.toNat)

/-- Thirty-two digits. -/
def readSimple? (cs : List Char) : Option Uuid :=
  if cs.length = 32 then (readHex? cs).map fun n => ⟨BitVec.ofNat 128 n⟩ else none

/-- Thirty-two digits with hyphens between the groups. -/
def readHyphenated? (cs : List Char) : Option Uuid :=
  let digits := cs.take 8 ++ (cs.drop 9).take 4 ++ (cs.drop 14).take 4 ++ (cs.drop 19).take 4 ++
    cs.drop 24
  if hyphenate digits = cs then readSimple? digits else none

/-- The opening brace. -/
def openBrace : Char := '\x7b'

/-- The closing brace. -/
def closeBrace : Char := '\x7d'

/-- The identifier that a text denotes. -/
def read? (cs : List Char) : Option Uuid :=
  match cs.length with
  | 32 => readSimple? cs
  | 36 => readHyphenated? cs
  | 38 =>
    if cs.head? = some openBrace ∧ cs.getLast? = some closeBrace then
      readHyphenated? ((cs.drop 1).take 36)
    else none
  | 45 =>
    if (cs.take 9).map Char.toLower = "urn:uuid:".toList then readHyphenated? (cs.drop 9) else none
  | _ => none

end Uuid

end BracketFilter
