import BracketFilter.Query
import BracketFilter.Text.Hex
import BracketFilter.Text.Utf8

/-!
# Query strings

The format `application/x-www-form-urlencoded`: pairs between ampersands, key and value around the
first equals sign, a plus for a space, and `%` with two hexadecimal digits for any byte.

* `Form.percentDecode` — the bytes of a component.
* `Form.component` — the text of a component, with U+FFFD where the bytes form no character.
* `Form.pairs` — the pairs of a query string.
* `Query.ofForm` — the query of a query string, of which one question mark in front is ignored.
-/

set_option autoImplicit false

namespace BracketFilter

namespace Form

open BracketFilter.Text

/-- The byte `&`. -/
def ampersand : UInt8 := 0x26

/-- The byte `=`. -/
def equalsSign : UInt8 := 0x3D

/-- The byte of a hexadecimal digit's value. -/
def hexByte? (b : UInt8) : Option Nat := hexValue? (Char.ofNat b.toNat)

/-- A plus sign stands for a space. -/
def plusToSpace (b : UInt8) : UInt8 := if b = 0x2B then 0x20 else b

/-- The bytes with every `%` and two hexadecimal digits replaced by the byte they denote. A `%`
without two digits behind it stands for itself. -/
def percentDecode : List UInt8 → List UInt8
  | [] => []
  | [a] => [a]
  | [a, b] => [a, b]
  | a :: b :: c :: rest =>
    if a = 0x25 then
      match hexByte? b, hexByte? c with
      | some high, some low => UInt8.ofNat (high * 16 + low) :: percentDecode rest
      | _, _ => a :: percentDecode (b :: c :: rest)
    else a :: percentDecode (b :: c :: rest)

/-- The text of a key or value. -/
def component (bytes : List UInt8) : String :=
  String.ofList (decodeLossy (percentDecode (bytes.map plusToSpace)))

/-- What stands before the first separator, and what stands behind it. -/
def cutAt (separator : UInt8) (bytes : List UInt8) : List UInt8 × List UInt8 :=
  (bytes.takeWhile (· ≠ separator), (bytes.dropWhile (· ≠ separator)).drop 1)

/-- The key and the value in a piece between ampersands. -/
def pair (piece : List UInt8) : String × String :=
  let (key, value) := cutAt equalsSign piece
  (component key, component value)

/-- The pairs of a query string; empty pieces are none. -/
def pairs (text : String) : List (String × String) :=
  (((encode text.toList).splitOn ampersand).filter (· ≠ [])).map pair

/-- The text without a question mark in front. -/
def withoutMark (text : String) : String :=
  match text.toList with
  | '?' :: rest => String.ofList rest
  | _ => text

end Form

/-- The query of a query string. -/
def Query.ofForm (text : String) : Query := ofPairs (Form.pairs (Form.withoutMark text))

end BracketFilter
