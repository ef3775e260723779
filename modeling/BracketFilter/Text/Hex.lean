/-!
# Hexadecimal digits

* `hexValue?` — the value of a digit of either case.
* `readHex?` — the number that a run of digits denotes; `writeHex` — a number of fixed width in
  small letters.

`readHex?_writeHex` says that a written number reads back.
-/

set_option autoImplicit false

namespace BracketFilter.Text


/-- The value of a hexadecimal digit in either case. -/
def hexValue? (c : Char) : Option Nat :=
  if '0' ≤ c ∧ c ≤ '9' then some (c.toNat - '0'.toNat)
  else if 'a' ≤ c ∧ c ≤ 'f' then some (c.toNat - 'a'.toNat + 10)
  else if 'A' ≤ c ∧ c ≤ 'F' then some (c.toNat - 'A'.toNat + 10)
  else none

/-- The number that `cs` denotes behind digits that denote `acc`. -/
def readHexFrom? (acc : Nat) : List Char → Option Nat
  | [] => some acc
  | c :: rest =>
    match hexValue? c with
    | some d => readHexFrom? (acc * 16 + d) rest
    | none => none

/-- The number that a run of hexadecimal digits denotes. -/
def readHex? (cs : List Char) : Option Nat := readHexFrom? 0 cs

/-- The last `width` hexadecimal digits of a number, in small letters. -/
def writeHex : Nat → Nat → List Char
  | 0, _ => []
  | width + 1, n => writeHex width (n / 16) ++ [Nat.digitChar (n % 16)]

theorem hexValue?_digitChar {d : Nat} (h : d < 16) : hexValue? (Nat.digitChar d) = some d := by
  have all : ∀ d : Fin 16, hexValue? (Nat.digitChar d) = some d.val := by decide
  exact all ⟨d, h⟩

@[simp] theorem length_writeHex (width n : Nat) : (writeHex width n).length = width := by
  induction width generalizing n with
  | zero => rfl
  | succ width ih => simp [writeHex, ih]

theorem readHexFrom?_append (acc : Nat) (cs ds : List Char) :
    readHexFrom? acc (cs ++ ds) = (readHexFrom? acc cs).bind fun n => readHexFrom? n ds := by
  induction cs generalizing acc with
  | nil => rfl
  | cons c rest ih =>
    cases h : hexValue? c <;> simp [readHexFrom?, h, ih]

theorem readHexFrom?_writeHex (acc width n : Nat) :
    readHexFrom? acc (writeHex width n) = some (acc * Nat.pow 16 width + n % Nat.pow 16 width) := by
  rw [Nat.pow_eq]
  induction width generalizing n with
  | zero => simp [writeHex, readHexFrom?, Nat.mod_one]
  | succ width ih =>
    have hd : n % 16 < 16 := Nat.mod_lt _ (by decide)
    simp only [writeHex, readHexFrom?_append, ih, Option.bind_some, readHexFrom?,
      hexValue?_digitChar hd, Nat.pow_succ', Nat.mod_mul, Option.some.injEq]
    rw [Nat.add_mul, Nat.mul_assoc, Nat.mul_comm (16 ^ width) 16]
    omega

theorem readHex?_writeHex (width n : Nat) :
    readHex? (writeHex width n) = some (n % Nat.pow 16 width) := by
  simp [readHex?, readHexFrom?_writeHex]

end BracketFilter.Text
