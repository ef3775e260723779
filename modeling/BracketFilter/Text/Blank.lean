/-!
# White space

* `isBlank` — the characters with the Unicode property White_Space.
* `trimStart`, `trim` — a text without the blanks at its start, or at both ends.
-/

set_option autoImplicit false

namespace BracketFilter.Text

/-- The characters with the Unicode property White_Space. -/
def isBlank (c : Char) : Bool :=
  let n := c.toNat
  (0x09 ≤ n && n ≤ 0x0D) || n == 0x20 || n == 0x85 || n == 0xA0 || n == 0x1680 ||
    (0x2000 ≤ n && n ≤ 0x200A) || n == 0x2028 || n == 0x2029 || n == 0x202F || n == 0x205F ||
    n == 0x3000

/-- The text without blanks at its start. -/
def trimStart (cs : List Char) : List Char := cs.dropWhile isBlank

/-- The text without the characters of a class at its two ends. -/
def trimBoth (inClass : Char → Bool) (cs : List Char) : List Char :=
  ((cs.dropWhile inClass).reverse.dropWhile inClass).reverse

/-- The text without blanks at its two ends. -/
def trim (cs : List Char) : List Char := trimBoth isBlank cs

end BracketFilter.Text
