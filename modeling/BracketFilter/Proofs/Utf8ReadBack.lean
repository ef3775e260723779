import BracketFilter.Text.Utf8

/-!
# Encoded texts are read back

The bytes of a character are described by the bits that they carry: the first byte of a character of
two bytes carries five bits behind `110`, of three bytes four behind `1110`, of four bytes three
behind `11110`, and every further byte six behind `10`.

* `decodeLossy_one`, `decodeLossy_two`, `decodeLossy_three`, `decodeLossy_four` — which character
  such bytes denote, if no shorter sequence denotes it and it is no surrogate.
* `encode_ofAscii` — bytes below 128 are a text of ASCII characters.

Principal result: `decodeLossy_encode` — the bytes of a text are read as the text, with nothing
replaced.
-/

set_option autoImplicit false

namespace BracketFilter.Text

/-! ## Bytes and their bits -/

theorem toNat_byte {n : Nat} (byte : n < 256) : (UInt8.ofNat n).toNat = n := by
  rw [UInt8.toNat_ofNat']
  omega

theorem byte_eq_iff {n : Nat} (byte : n < 256) {b : UInt8} : UInt8.ofNat n = b ↔ n = b.toNat := by
  rw [← UInt8.toNat_inj, toNat_byte byte]

theorem byte_lt_iff {n : Nat} (byte : n < 256) : UInt8.ofNat n < 0x80 ↔ n < 0x80 := by
  rw [UInt8.lt_iff_toNat_lt, toNat_byte byte]
  rfl

theorem byteWithin_iff {low high : UInt8} {n : Nat} (byte : n < 256) :
    byteWithin low high (UInt8.ofNat n) = true ↔ low.toNat ≤ n ∧ n ≤ high.toNat := by
  simp only [byteWithin, UInt8.le_iff_toNat_le, toNat_byte byte, Bool.and_eq_true,
    decide_eq_true_eq]

theorem isTail_bits {y : Nat} (hy : y < 64) : isTail (UInt8.ofNat (y + 128)) = true := by
  apply (byteWithin_iff (by omega)).2
  show 0x80 ≤ y + 128 ∧ y + 128 ≤ 0xBF
  omega

theorem tailBits_bits {y : Nat} (hy : y < 64) : tailBits (UInt8.ofNat (y + 128)) = y := by
  rw [tailBits, toNat_byte (by omega)]
  omega

/-- A second byte fits if two bytes would not be enough and the character is no surrogate. -/
theorem secondOfThree_bits {x y : Nat} (hx : x < 16) (hy : y < 64) (long : x = 0 → 32 ≤ y)
    (scalar : x = 13 → y < 32) :
    secondOfThree (UInt8.ofNat (x + 224)) (UInt8.ofNat (y + 128)) = true := by
  unfold secondOfThree
  split
  · rename_i hfirst
    have hzero : x + 224 = 0xE0 := (byte_eq_iff (by omega)).1 hfirst
    apply (byteWithin_iff (by omega)).2
    show 0xA0 ≤ y + 128 ∧ y + 128 ≤ 0xBF
    omega
  · split
    · rename_i hfirst
      have hsurrogates : x + 224 = 0xED := (byte_eq_iff (by omega)).1 hfirst
      apply (byteWithin_iff (by omega)).2
      show 0x80 ≤ y + 128 ∧ y + 128 ≤ 0x9F
      omega
    · exact isTail_bits hy

/-- A second byte fits if three bytes would not be enough and the number is not too large. -/
theorem secondOfFour_bits {x y : Nat} (hx : x < 8) (hy : y < 64) (long : x = 0 → 16 ≤ y)
    (scalar : x = 4 → y < 16) :
    secondOfFour (UInt8.ofNat (x + 240)) (UInt8.ofNat (y + 128)) = true := by
  unfold secondOfFour
  split
  · rename_i hfirst
    have hzero : x + 240 = 0xF0 := (byte_eq_iff (by omega)).1 hfirst
    apply (byteWithin_iff (by omega)).2
    show 0x90 ≤ y + 128 ∧ y + 128 ≤ 0xBF
    omega
  · split
    · rename_i hfirst
      have hlast : x + 240 = 0xF4 := (byte_eq_iff (by omega)).1 hfirst
      apply (byteWithin_iff (by omega)).2
      show 0x80 ≤ y + 128 ∧ y + 128 ≤ 0x8F
      omega
    · exact isTail_bits hy

/-! ## Characters of one to four bytes -/

theorem decodeLossy_one {x : Nat} (hx : x < 128) (rest : List UInt8) :
    decodeLossy (UInt8.ofNat x :: rest) = Char.ofNat x :: decodeLossy rest := by
  have hbyte : x < 256 := by omega
  have hfirst : UInt8.ofNat x < 0x80 := (byte_lt_iff hbyte).2 hx
  rw [decodeLossy.eq_def]
  simp only [if_pos hfirst, toNat_byte hbyte]

theorem decodeLossy_two {x y : Nat} (hx : 2 ≤ x ∧ x < 32) (hy : y < 64) (rest : List UInt8) :
    decodeLossy (UInt8.ofNat (x + 192) :: UInt8.ofNat (y + 128) :: rest) =
      Char.ofNat (x * 64 + y) :: decodeLossy rest := by
  have hbyte : x + 192 < 256 := by omega
  have hone : ¬ UInt8.ofNat (x + 192) < 0x80 := by
    rw [byte_lt_iff hbyte]
    omega
  have hfirst : byteWithin 0xC2 0xDF (UInt8.ofNat (x + 192)) = true := by
    apply (byteWithin_iff hbyte).2
    show 0xC2 ≤ x + 192 ∧ x + 192 ≤ 0xDF
    omega
  have hbits : (x + 192) % 32 = x := by omega
  rw [decodeLossy.eq_def]
  simp only [if_neg hone, if_pos hfirst, if_pos (isTail_bits hy), toNat_byte hbyte, hbits,
    tailBits_bits hy]

theorem decodeLossy_three {x y z : Nat} (hx : x < 16) (hy : y < 64) (hz : z < 64)
    (long : x = 0 → 32 ≤ y) (scalar : x = 13 → y < 32) (rest : List UInt8) :
    decodeLossy (UInt8.ofNat (x + 224) :: UInt8.ofNat (y + 128) :: UInt8.ofNat (z + 128) :: rest) =
      Char.ofNat (x * 4096 + y * 64 + z) :: decodeLossy rest := by
  have hbyte : x + 224 < 256 := by omega
  have hone : ¬ UInt8.ofNat (x + 224) < 0x80 := by
    rw [byte_lt_iff hbyte]
    omega
  have htwo : ¬ byteWithin 0xC2 0xDF (UInt8.ofNat (x + 224)) = true := by
    rw [byteWithin_iff hbyte]
    show ¬ (0xC2 ≤ x + 224 ∧ x + 224 ≤ 0xDF)
    omega
  have hfirst : byteWithin 0xE0 0xEF (UInt8.ofNat (x + 224)) = true := by
    apply (byteWithin_iff hbyte).2
    show 0xE0 ≤ x + 224 ∧ x + 224 ≤ 0xEF
    omega
  have hbits : (x + 224) % 16 = x := by omega
  rw [decodeLossy.eq_def]
  simp only [if_neg hone, if_neg htwo, if_pos hfirst,
    if_pos (secondOfThree_bits hx hy long scalar), if_pos (isTail_bits hz), toNat_byte hbyte,
    hbits, tailBits_bits hy, tailBits_bits hz]

theorem decodeLossy_four {x y z w : Nat} (hx : x ≤ 4) (hy : y < 64) (hz : z < 64) (hw : w < 64)
    (long : x = 0 → 16 ≤ y) (scalar : x = 4 → y < 16) (rest : List UInt8) :
    decodeLossy (UInt8.ofNat (x + 240) :: UInt8.ofNat (y + 128) :: UInt8.ofNat (z + 128) ::
        UInt8.ofNat (w + 128) :: rest) =
      Char.ofNat (x * 262144 + y * 4096 + z * 64 + w) :: decodeLossy rest := by
  have hbyte : x + 240 < 256 := by omega
  have hone : ¬ UInt8.ofNat (x + 240) < 0x80 := by
    rw [byte_lt_iff hbyte]
    omega
  have htwo : ¬ byteWithin 0xC2 0xDF (UInt8.ofNat (x + 240)) = true := by
    rw [byteWithin_iff hbyte]
    show ¬ (0xC2 ≤ x + 240 ∧ x + 240 ≤ 0xDF)
    omega
  have hthree : ¬ byteWithin 0xE0 0xEF (UInt8.ofNat (x + 240)) = true := by
    rw [byteWithin_iff hbyte]
    show ¬ (0xE0 ≤ x + 240 ∧ x + 240 ≤ 0xEF)
    omega
  have hfirst : byteWithin 0xF0 0xF4 (UInt8.ofNat (x + 240)) = true := by
    apply (byteWithin_iff hbyte).2
    show 0xF0 ≤ x + 240 ∧ x + 240 ≤ 0xF4
    omega
  have hsecond := secondOfFour_bits (show x < 8 by omega) hy long scalar
  have hbits : (x + 240) % 8 = x := by omega
  rw [decodeLossy.eq_def]
  simp only [if_neg hone, if_neg htwo, if_neg hthree, if_pos hfirst, if_pos hsecond,
    if_pos (isTail_bits hz), if_pos (isTail_bits hw), toNat_byte hbyte, hbits, tailBits_bits hy,
    tailBits_bits hz, tailBits_bits hw]

/-! ## Texts -/

/-- The bytes of a character denote it, whatever follows. -/
theorem decodeLossy_encodeChar (c : Char) (rest : List UInt8) :
    decodeLossy (String.utf8EncodeChar c ++ rest) = c :: decodeLossy rest := by
  have hscalar : c.val.toNat < 0xD800 ∨ 0xDFFF < c.val.toNat ∧ c.val.toNat < 0x110000 := c.valid
  have hback : Char.ofNat c.val.toNat = c := Char.ofNat_toNat c
  unfold String.utf8EncodeChar
  generalize c.val.toNat = v at hscalar hback ⊢
  rw [← hback]
  simp only
  -- The encoder splits the number where the decoder asks for one more byte.
  split
  · exact decodeLossy_one (by omega) rest
  split
  · refine (decodeLossy_two (by omega) (by omega) rest).trans ?_
    congr 2
    omega
  split
  · refine (decodeLossy_three (by omega) (by omega) (by omega) (by omega) (by omega) rest).trans ?_
    congr 2
    omega
  · refine (decodeLossy_four (by omega) (by omega) (by omega) (by omega) (by omega) (by omega)
      rest).trans ?_
    congr 2
    omega

/-- **The bytes of a text are read as the text.** -/
theorem decodeLossy_encode (cs : List Char) : decodeLossy (encode cs) = cs := by
  induction cs with
  | nil => rfl
  | cons c cs ih =>
    rw [encode, List.flatMap_cons, decodeLossy_encodeChar]
    exact congrArg (c :: ·) ih

theorem encode_ofAscii {bytes : List UInt8} (ascii : ∀ b ∈ bytes, b < 0x80) :
    encode (bytes.map fun b => Char.ofNat b.toNat) = bytes := by
  induction bytes with
  | nil => rfl
  | cons b bytes ih =>
    rw [List.forall_mem_cons] at ascii
    have hb : b.toNat < 0x80 := UInt8.lt_iff_toNat_lt.1 ascii.1
    have hvalid : b.toNat.isValidChar := .inl (by omega)
    have hval : (Char.ofNat b.toNat).val.toNat = b.toNat := by
      rw [Char.ofNat, dif_pos hvalid]
      rfl
    have hchar : String.utf8EncodeChar (Char.ofNat b.toNat) = [b] := by
      unfold String.utf8EncodeChar
      simp only [hval]
      rw [if_pos (by omega), UInt8.ofNat_toNat]
    rw [encode, List.map_cons, List.flatMap_cons, hchar]
    exact congrArg (b :: ·) (ih ascii.2)

end BracketFilter.Text
