/-!
# ASCII letter case

* `lowerAscii` — `A` to `Z` become `a` to `z`, and nothing else moves.
* `sameName` — equality of names apart from the case of ASCII letters.
-/

set_option autoImplicit false

namespace BracketFilter.Text

/-- The text with its ASCII capitals replaced by small letters. -/
def lowerAscii (s : String) : String := String.ofList (s.toList.map Char.toLower)

@[simp] theorem toList_lowerAscii (s : String) :
    (lowerAscii s).toList = s.toList.map Char.toLower := by
  simp [lowerAscii]

/-- Whether two names agree apart from the case of ASCII letters. -/
def sameName (a b : String) : Bool := lowerAscii a == lowerAscii b

theorem toLower_toLower (c : Char) : c.toLower.toLower = c.toLower := by
  unfold Char.toLower
  grind

theorem lowerAscii_lowerAscii (s : String) : lowerAscii (lowerAscii s) = lowerAscii s := by
  have htwice : Char.toLower ∘ Char.toLower = Char.toLower := funext toLower_toLower
  rw [lowerAscii, toList_lowerAscii, List.map_map, htwice, lowerAscii]

theorem sameName_iff {a b : String} : sameName a b = true ↔ lowerAscii a = lowerAscii b := by
  simp [sameName]

end BracketFilter.Text
