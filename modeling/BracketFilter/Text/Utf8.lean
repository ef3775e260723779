/-!
# UTF-8 with replacement

* `encode` — the bytes of a text.
* `decodeLossy` — the text of a byte sequence, in which every maximal part that cannot begin a
  character, or breaks one off, becomes one U+FFFD.
-/

set_option autoImplicit false

namespace BracketFilter.Text

/-- The bytes of a text in UTF-8. -/
def encode (cs : List Char) : List UInt8 := cs.flatMap String.utf8EncodeChar

/-- The character that stands for bytes that form none. -/
def replacement : Char := Char.ofNat 0xFFFD

/-- Whether a byte lies in a closed range. -/
def byteWithin (low high b : UInt8) : Bool := low ≤ b && b ≤ high

/-- Whether a byte can continue a character. -/
def isTail (b : UInt8) : Bool := byteWithin 0x80 0xBF b

/-- Which bytes may come second after a first byte of a three-byte character. -/
def secondOfThree (a b : UInt8) : Bool :=
  if a = 0xE0 then byteWithin 0xA0 0xBF b
  else if a = 0xED then byteWithin 0x80 0x9F b
  else isTail b

/-- Which bytes may come second after a first byte of a four-byte character. -/
def secondOfFour (a b : UInt8) : Bool :=
  if a = 0xF0 then byteWithin 0x90 0xBF b
  else if a = 0xF4 then byteWithin 0x80 0x8F b
  else isTail b

/-- The six low bits of a continuation byte. -/
def tailBits (b : UInt8) : Nat := b.toNat % 64

/-- The text of a byte sequence, with U+FFFD for every maximal ill-formed part. -/
def decodeLossy : List UInt8 → List Char
  | [] => []
  | a :: rest =>
    if a < 0x80 then Char.ofNat a.toNat :: decodeLossy rest
    else if byteWithin 0xC2 0xDF a then
      match rest with
      | [] => [replacement]
      | b :: rest2 =>
        if isTail b then Char.ofNat (a.toNat % 32 * 64 + tailBits b) :: decodeLossy rest2
        else replacement :: decodeLossy (b :: rest2)
    else if byteWithin 0xE0 0xEF a then
      match rest with
      | [] => [replacement]
      | b :: rest2 =>
        if secondOfThree a b then
          match rest2 with
          | [] => [replacement]
          | c :: rest3 =>
            if isTail c then
              Char.ofNat (a.toNat % 16 * 4096 + tailBits b * 64 + tailBits c) :: decodeLossy rest3
            else replacement :: decodeLossy (c :: rest3)
        else replacement :: decodeLossy (b :: rest2)
    else if byteWithin 0xF0 0xF4 a then
      match rest with
      | [] => [replacement]
      | b :: rest2 =>
        if secondOfFour a b then
          match rest2 with
          | [] => [replacement]
          | c :: rest3 =>
            if isTail c then
              match rest3 with
              | [] => [replacement]
              | d :: rest4 =>
                if isTail d then
                  Char.ofNat (a.toNat % 8 * 262144 + tailBits b * 4096 + tailBits c * 64 +
                    tailBits d) :: decodeLossy rest4
                else replacement :: decodeLossy (d :: rest4)
            else replacement :: decodeLossy (c :: rest3)
        else replacement :: decodeLossy (b :: rest2)
    else replacement :: decodeLossy rest

end BracketFilter.Text
