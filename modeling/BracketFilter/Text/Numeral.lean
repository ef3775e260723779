/-!
# Decimal numerals

* `readNat?` — the number that a non-empty run of ASCII digits denotes.
* `readInt?` — the same with an optional sign.
* `writeNat`, `writeInt`, `natText` — the canonical numerals: no leading zero, a minus sign below
  zero.
* `padded` — numerals filled up with leading zeros.

`readNat?_writeNat` says that a written numeral reads back.
-/

set_option autoImplicit false

namespace BracketFilter.Text

/-- The number a non-empty run of ASCII digits denotes; leading zeros are allowed. -/
def readNat? (cs : List Char) : Option Nat :=
  if cs ≠ [] ∧ cs.all Char.isDigit = true then some (Nat.ofDigitChars 10 cs 0) else none

/-- A run of digits with at most one sign in front. -/
def readInt? : List Char → Option Int
  | '-' :: cs => (readNat? cs).map fun n => -(n : Int)
  | '+' :: cs => (readNat? cs).map fun n => (n : Int)
  | cs => (readNat? cs).map fun n => (n : Int)

/-- The digits of a number, most significant first. -/
def writeNat (n : Nat) : List Char := Nat.toDigits 10 n

/-- The digits of a number's magnitude, after a minus sign if it is below zero. -/
def writeInt (n : Int) : List Char :=
  if n < 0 then '-' :: writeNat n.natAbs else writeNat n.natAbs

/-- The numeral of a number, as a text. -/
def natText (n : Nat) : String := String.ofList (writeNat n)

/-- A text filled up on the left with zeros. -/
def zeroFill (width : Nat) (cs : List Char) : List Char :=
  List.replicate (width - cs.length) '0' ++ cs

/-- The digits of a number, at least `width` of them. -/
def padded (width n : Nat) : List Char := zeroFill width (writeNat n)

theorem all_isDigit_writeNat (n : Nat) : (writeNat n).all Char.isDigit = true := by
  simp only [List.all_eq_true]
  intro c hc
  exact Nat.isDigit_of_mem_toDigits (by omega) (by omega) hc

theorem readNat?_writeNat (n : Nat) : readNat? (writeNat n) = some n := by
  unfold readNat?
  rw [if_pos ⟨Nat.toDigits_ne_nil, all_isDigit_writeNat n⟩]
  simp [writeNat, Nat.ofDigitChars_toDigits]

end BracketFilter.Text
