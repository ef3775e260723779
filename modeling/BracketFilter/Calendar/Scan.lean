import BracketFilter.Text.Blank

/-!
# Reading fields of dates and times

Each reader takes a text and gives what it read, if anything, and the text that remains. The
lenient readers skip blanks in front of a number; the strict ones ask for a fixed count of digits.

* `digits?` — at least one digit, at most a given count.
* `field?` — the same behind blanks; `signedField?` — with a sign, which lifts the bound on digits.
* `exactly?` — a fixed count of digits.
* `char?`, `blanks` — one given character; any blanks.
-/

set_option autoImplicit false

namespace BracketFilter.Calendar

open BracketFilter.Text


/-- A run of at least one digit; digits beyond the first `most` remain. -/
def digits? (most : Nat) (cs : List Char) : Option (Nat × List Char) :=
  let run := (cs.take most).takeWhile Char.isDigit
  if run = [] then none else some (Nat.ofDigitChars 10 run 0, cs.drop run.length)

/-- Exactly `count` digits. -/
def exactly? (count : Nat) (cs : List Char) : Option (Nat × List Char) :=
  let run := cs.take count
  if run.length = count ∧ run.all Char.isDigit = true then
    some (Nat.ofDigitChars 10 run 0, cs.drop count)
  else none

/-- Blanks, and then a run of at most `most` digits. -/
def field? (most : Nat) (cs : List Char) : Option (Nat × List Char) := digits? most (trimStart cs)

/-- Blanks, and then a number: at most `most` digits, or any count of them behind a sign. -/
def signedField? (most : Nat) (cs : List Char) : Option (Int × List Char) :=
  match trimStart cs with
  | '-' :: rest => (digits? rest.length rest).map fun r => (-(r.1 : Int), r.2)
  | '+' :: rest => (digits? rest.length rest).map fun r => ((r.1 : Int), r.2)
  | rest => (digits? most rest).map fun r => ((r.1 : Int), r.2)

/-- One given character. -/
def char? (c : Char) : List Char → Option (List Char)
  | d :: rest => if d = c then some rest else none
  | [] => none

/-- Any blanks, and then one given character. -/
def spacedChar? (c : Char) (cs : List Char) : Option (List Char) := char? c (trimStart cs)

/-- Whether only blanks remain. -/
def atEnd (cs : List Char) : Bool := (trimStart cs).isEmpty

/-- The digits of a fraction of a second, as nanoseconds; digits beyond the ninth are dropped. -/
def fraction? (cs : List Char) : Option (Nat × List Char) :=
  let run := (cs.take 9).takeWhile Char.isDigit
  let rest := (cs.drop run.length).dropWhile Char.isDigit
  if run = [] then none else some (Nat.ofDigitChars 10 run 0 * Nat.pow 10 (9 - run.length), rest)

/-- A point and the fraction behind it; without a point the fraction is zero. -/
def optionalFraction? (cs : List Char) : Option (Nat × List Char) :=
  match cs with
  | '.' :: rest => fraction? rest
  | _ => some (0, cs)

end BracketFilter.Calendar
