import BracketFilter.Proofs.Utf8ReadBack
import BracketFilter.Query.Form

/-!
# Query strings carry pairs

* `Form.Plain` — a byte may stand for itself in a query string.
* `Form.Spelled` — the spellings of a sequence of bytes: byte by byte, as itself, as a plus sign, or
  as a percent sign with two hexadecimal digits of either case.
* `Form.PieceOf`, `Form.Written` — the ways to write a pair, and a list of pairs with any number of
  ampersands around them.

Principal results: `component_of_spelled` — a spelling of a text is read as the text;
`exists_written` — every list of pairs can be written; `ofForm_written` — the query of a list of
pairs is the query of every query string that they are written as.
-/

set_option autoImplicit false

namespace BracketFilter

namespace Form

open BracketFilter.Text

/-! ## Ways to write pairs -/

/-- The byte of a hexadecimal digit, as a capital or as a small letter. -/
def hexDigit (capital : Bool) (value : Nat) : UInt8 :=
  UInt8.ofNat <|
    if value < 10 then 0x30 + value else if capital then 0x37 + value else 0x57 + value

/-- A byte that stands for itself: no ampersand, equals sign, plus sign, percent sign or space. -/
def Plain (b : UInt8) : Prop := b ∉ [ampersand, equalsSign, 0x2B, 0x25, 0x20]

instance (b : UInt8) : Decidable (Plain b) := inferInstanceAs (Decidable (b ∉ _))

/-- The spellings of bytes. -/
inductive Spelled : List UInt8 → List UInt8 → Prop
  | nil : Spelled [] []
  | plain {b : UInt8} {bytes spelling : List UInt8} (plain : Plain b)
      (rest : Spelled bytes spelling) : Spelled (b :: bytes) (b :: spelling)
  | plus {bytes spelling : List UInt8} (rest : Spelled bytes spelling) :
      Spelled (0x20 :: bytes) (0x2B :: spelling)
  | percent {b : UInt8} {bytes spelling : List UInt8} (first second : Bool)
      (rest : Spelled bytes spelling) :
      Spelled (b :: bytes)
        (0x25 :: hexDigit first (b.toNat / 16) :: hexDigit second (b.toNat % 16) :: spelling)

/-- The ways to write a pair: a spelled key, an equals sign and a spelled value. -/
inductive PieceOf : String × String → List UInt8 → Prop
  | mk {key value : String} {k v : List UInt8} (spelledKey : Spelled (encode key.toList) k)
      (spelledValue : Spelled (encode value.toList) v) :
      PieceOf (key, value) (k ++ equalsSign :: v)

/-- The ways to write pairs: at least one ampersand stands between two of them, and further ones may
stand anywhere around them. -/
inductive Written : List (String × String) → List UInt8 → Prop
  | nil : Written [] []
  | ampersand {pairs : List (String × String)} {bytes : List UInt8} (rest : Written pairs bytes) :
      Written pairs (ampersand :: bytes)
  | last {p : String × String} {piece : List UInt8} (pair : PieceOf p piece) : Written [p] piece
  | cons {p : String × String} {pairs : List (String × String)} {piece bytes : List UInt8}
      (pair : PieceOf p piece) (rest : Written pairs bytes) :
      Written (p :: pairs) (piece ++ Form.ampersand :: bytes)

/-! ## Digits and bytes -/

theorem hexByte?_hexDigit (capital : Bool) {value : Nat} (h : value < 16) :
    hexByte? (hexDigit capital value) = some value := by
  have all : ∀ capital, ∀ value : Fin 16, hexByte? (hexDigit capital value) = some value.val := by
    decide
  exact all capital ⟨value, h⟩

theorem plain_hexDigit (capital : Bool) {value : Nat} (h : value < 16) :
    Plain (hexDigit capital value) := by
  have all : ∀ capital, ∀ value : Fin 16, Plain (hexDigit capital value) := by decide
  exact all capital ⟨value, h⟩

theorem hexDigit_lt (capital : Bool) {value : Nat} (h : value < 16) :
    hexDigit capital value < 0x80 := by
  have all : ∀ capital, ∀ value : Fin 16, hexDigit capital value < 0x80 := by decide
  exact all capital ⟨value, h⟩

theorem digits_lt (b : UInt8) : b.toNat / 16 < 16 ∧ b.toNat % 16 < 16 := by
  have hb : b.toNat < 256 := b.toNat_lt
  omega

theorem percentDecode_cons {a : UInt8} (h : a ≠ 0x25) (rest : List UInt8) :
    percentDecode (a :: rest) = a :: percentDecode rest := by
  match rest with
  | [] => rfl
  | [b] => rfl
  | b :: c :: rest => rw [percentDecode, if_neg h]

/-- A percent sign and the digits of a byte denote it, whatever the case of the digits. -/
theorem percentDecode_percent (b : UInt8) (first second : Bool) (rest : List UInt8) :
    percentDecode
        (0x25 :: hexDigit first (b.toNat / 16) :: hexDigit second (b.toNat % 16) :: rest) =
      b :: percentDecode rest := by
  have hbyte : UInt8.ofNat (b.toNat / 16 * 16 + b.toNat % 16) = b := by
    rw [Nat.div_add_mod', UInt8.ofNat_toNat]
  rw [percentDecode, if_pos rfl, hexByte?_hexDigit first (digits_lt b).1,
    hexByte?_hexDigit second (digits_lt b).2]
  simp only [hbyte]

theorem plusToSpace_of_plain {b : UInt8} (h : Plain b) : plusToSpace b = b := by
  have hplus : b ≠ 0x2B := by
    rintro rfl
    exact h (by decide)
  exact if_neg hplus

/-! ## Spellings of a text -/

/-- A spelling of bytes is decoded to them. Plus signs are replaced first, so that a plus sign that
is spelled with a percent sign remains one. -/
theorem percentDecode_of_spelled {bytes spelling : List UInt8} (h : Spelled bytes spelling) :
    percentDecode (spelling.map plusToSpace) = bytes := by
  induction h with
  | nil => rfl
  | @plain b bytes spelling plain _ ih =>
    have hpercent : b ≠ 0x25 := by
      rintro rfl
      exact plain (by decide)
    rw [List.map_cons, plusToSpace_of_plain plain, percentDecode_cons hpercent, ih]
  | plus _ ih =>
    rw [List.map_cons, show plusToSpace 0x2B = 0x20 from rfl, percentDecode_cons (by decide), ih]
  | @percent b bytes spelling first second _ ih =>
    have hfirst := plain_hexDigit first (digits_lt b).1
    have hsecond := plain_hexDigit second (digits_lt b).2
    rw [List.map_cons, List.map_cons, List.map_cons, show plusToSpace 0x25 = 0x25 from rfl,
      plusToSpace_of_plain hfirst, plusToSpace_of_plain hsecond, percentDecode_percent, ih]

/-- **A spelling of a text is read as the text.** -/
theorem component_of_spelled {text : String} {spelling : List UInt8}
    (h : Spelled (encode text.toList) spelling) : component spelling = text := by
  rw [component, percentDecode_of_spelled h, decodeLossy_encode, String.ofList_toList]

theorem spelled_self {bytes : List UInt8} (plain : ∀ b ∈ bytes, Plain b) : Spelled bytes bytes := by
  induction bytes with
  | nil => exact .nil
  | cons b bytes ih =>
    rw [List.forall_mem_cons] at plain
    exact .plain plain.1 (ih plain.2)

theorem not_mem_of_spelled {bytes spelling : List UInt8} (h : Spelled bytes spelling)
    {separator : UInt8} (separates : separator = ampersand ∨ separator = equalsSign) :
    separator ∉ spelling := by
  have hplain {b : UInt8} (hb : Plain b) : separator ≠ b := by
    rintro rfl
    rcases separates with rfl | rfl <;> exact hb (by decide)
  have hsign {b : UInt8} (hb : ampersand ≠ b ∧ equalsSign ≠ b) : separator ≠ b := by
    rcases separates with rfl | rfl
    · exact hb.1
    · exact hb.2
  induction h with
  | nil => exact List.not_mem_nil
  | plain plain _ ih => exact List.not_mem_cons_of_ne_of_not_mem (hplain plain) ih
  | plus _ ih => exact List.not_mem_cons_of_ne_of_not_mem (hsign (by decide)) ih
  | @percent b bytes spelling first second _ ih =>
    have hfirst := plain_hexDigit first (digits_lt b).1
    have hsecond := plain_hexDigit second (digits_lt b).2
    simp only [List.mem_cons, not_or]
    exact ⟨hsign (by decide), hplain hfirst, hplain hsecond, ih⟩

/-! ## Pairs -/

theorem cutAt_append {separator : UInt8} {before after : List UInt8} (h : separator ∉ before) :
    cutAt separator (before ++ separator :: after) = (before, after) := by
  have hkept : ∀ b ∈ before, decide (b ≠ separator) = true := by
    intro b hb
    rw [decide_eq_true_eq]
    rintro rfl
    exact h hb
  unfold cutAt
  rw [List.takeWhile_append_of_pos hkept, List.dropWhile_append_of_pos hkept]
  simp

/-- A written pair is read as the pair, although its value may hold further equals signs, spelled
with a percent sign. -/
theorem pair_of_pieceOf {p : String × String} {piece : List UInt8} (h : PieceOf p piece) :
    pair piece = p := by
  obtain @⟨key, value, k, v, hkey, hvalue⟩ := h
  have hcut : cutAt equalsSign (k ++ equalsSign :: v) = (k, v) :=
    cutAt_append (not_mem_of_spelled hkey (.inr rfl))
  simp only [pair, hcut, component_of_spelled hkey, component_of_spelled hvalue]

theorem not_mem_of_pieceOf {p : String × String} {piece : List UInt8} (h : PieceOf p piece) :
    ampersand ∉ piece := by
  obtain ⟨hkey, hvalue⟩ := h
  rw [List.mem_append, List.mem_cons]
  rintro (hmem | hmem | hmem)
  · exact not_mem_of_spelled hkey (.inl rfl) hmem
  · cases hmem
  · exact not_mem_of_spelled hvalue (.inl rfl) hmem

theorem ne_nil_of_pieceOf {p : String × String} {piece : List UInt8} (h : PieceOf p piece) :
    piece ≠ [] := by
  obtain ⟨-, -⟩ := h
  exact List.append_ne_nil_of_right_ne_nil _ (List.cons_ne_nil _ _)

/-- **Written pairs are read piece by piece**, and nothing between two ampersands is no pair. -/
theorem pieces_of_written {pairs : List (String × String)} {bytes : List UInt8}
    (h : Written pairs bytes) :
    ((bytes.splitOn ampersand).filter (· ≠ [])).map pair = pairs := by
  have hkept {p : String × String} {piece : List UInt8} (hp : PieceOf p piece)
      (rest : List (List UInt8)) :
      (piece :: rest).filter (· ≠ []) = piece :: rest.filter (· ≠ []) :=
    List.filter_cons_of_pos (by simpa using ne_nil_of_pieceOf hp)
  induction h with
  | nil => rfl
  | @ampersand pairs bytes _ ih =>
    have hsplit : (Form.ampersand :: bytes).splitOn Form.ampersand =
        [] :: bytes.splitOn Form.ampersand :=
      List.splitOn_append_cons_self_of_not_mem List.not_mem_nil bytes
    rw [hsplit, List.filter_cons_of_neg (by simp), ih]
  | last hp =>
    rw [List.splitOn_eq_singleton (not_mem_of_pieceOf hp), hkept hp, List.filter_nil,
      List.map_singleton, pair_of_pieceOf hp]
  | cons hp _ ih =>
    rw [List.splitOn_append_cons_self_of_not_mem (not_mem_of_pieceOf hp),
      hkept hp, List.map_cons, ih, pair_of_pieceOf hp]

/-! ## Every list of pairs can be written -/

theorem exists_spelled (bytes : List UInt8) :
    ∃ spelling, Spelled bytes spelling ∧ ∀ b ∈ spelling, b < 0x80 := by
  induction bytes with
  | nil => exact ⟨[], .nil, by simp⟩
  | cons b bytes ih =>
    obtain ⟨spelling, hspelled, hascii⟩ := ih
    refine ⟨_, .percent true true hspelled, ?_⟩
    simp only [List.forall_mem_cons]
    exact ⟨by decide, hexDigit_lt true (digits_lt b).1, hexDigit_lt true (digits_lt b).2, hascii⟩

theorem exists_pieceOf (p : String × String) :
    ∃ piece, PieceOf p piece ∧ ∀ b ∈ piece, b < 0x80 := by
  obtain ⟨k, hkey, hk⟩ := exists_spelled (encode p.1.toList)
  obtain ⟨v, hvalue, hv⟩ := exists_spelled (encode p.2.toList)
  refine ⟨k ++ equalsSign :: v, .mk hkey hvalue, ?_⟩
  rw [List.forall_mem_append, List.forall_mem_cons]
  exact ⟨hk, by decide, hv⟩

/-- **Every list of pairs can be written**, whatever characters its texts hold. -/
theorem exists_written (pairs : List (String × String)) :
    ∃ body : String, Written pairs (encode body.toList) := by
  have hbytes : ∃ bytes, Written pairs bytes ∧ ∀ b ∈ bytes, b < 0x80 := by
    induction pairs with
    | nil => exact ⟨[], .nil, by simp⟩
    | cons p pairs ih =>
      obtain ⟨piece, hpiece, hascii⟩ := exists_pieceOf p
      obtain ⟨bytes, hwritten, hrest⟩ := ih
      refine ⟨_, .cons hpiece hwritten, ?_⟩
      rw [List.forall_mem_append, List.forall_mem_cons]
      exact ⟨hascii, by decide, hrest⟩
  obtain ⟨bytes, hwritten, hascii⟩ := hbytes
  refine ⟨String.ofList (bytes.map fun b => Char.ofNat b.toNat), ?_⟩
  rwa [String.toList_ofList, encode_ofAscii hascii]

/-! ## Question marks -/

theorem withoutMark_mark (body : String) : withoutMark ("?" ++ body) = body := by
  have hlist : ("?" ++ body).toList = '?' :: body.toList := by
    rw [String.toList_append]
    rfl
  unfold withoutMark
  rw [hlist]
  exact String.ofList_toList

theorem withoutMark_of_unmarked {body : String} (h : body.toList.head? ≠ some '?') :
    withoutMark body = body := by
  unfold withoutMark
  split
  · rename_i rest hbody
    rw [hbody] at h
    exact absurd rfl h
  · rfl

end Form

/-- **Query strings carry pairs faithfully.** However pairs are written, and whether or not a
question mark stands in front, they are read again, and their query is the query of the text. -/
theorem Query.ofForm_written {pairs : List (String × String)} {body text : String}
    (written : Form.Written pairs (Text.encode body.toList))
    (marked : text = "?" ++ body ∨ text = body ∧ body.toList.head? ≠ some '?') :
    Form.pairs (Form.withoutMark text) = pairs ∧ ofForm text = ofPairs pairs := by
  have hbody : Form.withoutMark text = body := by
    rcases marked with rfl | ⟨rfl, hunmarked⟩
    · exact Form.withoutMark_mark body
    · exact Form.withoutMark_of_unmarked hunmarked
  have hpairs : Form.pairs (Form.withoutMark text) = pairs := by
    rw [hbody]
    exact Form.pieces_of_written written
  refine ⟨hpairs, ?_⟩
  rw [ofForm, hpairs]

/-- Two values of one key; the first holds a separator and characters of two bytes. -/
def tagPairs : List (String × String) := [("tags[in]", "é, ü=1"), ("TAGS[IN]", "a?b")]

/-- The pairs with a bracket and a character written as bytes, beside one of each that stands for
itself, and with ampersands everywhere around them. -/
def tagForm : String := "&tags%5bin]=%C3%a9,+ü%3D1&&TAGS[IN]=a?b&"

theorem Form.written_tags : Written tagPairs (Text.encode tagForm.toList) := by
  have hkey : Spelled (Text.encode "tags[in]".toList) (Text.encode "tags%5bin]".toList) := by
    rw [show Text.encode "tags[in]".toList = [0x74, 0x61, 0x67, 0x73, 0x5B, 0x69, 0x6E, 0x5D] by
        decide +kernel,
      show Text.encode "tags%5bin]".toList =
        [0x74, 0x61, 0x67, 0x73, 0x25, 0x35, 0x62, 0x69, 0x6E, 0x5D] by decide +kernel]
    refine .plain ?_ <| .plain ?_ <| .plain ?_ <| .plain ?_ <| .percent false false <|
      spelled_self ?_ <;> decide +kernel
  have hvalue : Spelled (Text.encode "é, ü=1".toList) (Text.encode "%C3%a9,+ü%3D1".toList) := by
    rw [show Text.encode "é, ü=1".toList = [0xC3, 0xA9, 0x2C, 0x20, 0xC3, 0xBC, 0x3D, 0x31] by
        decide +kernel,
      show Text.encode "%C3%a9,+ü%3D1".toList =
        [0x25, 0x43, 0x33, 0x25, 0x61, 0x39, 0x2C, 0x2B, 0xC3, 0xBC, 0x25, 0x33, 0x44, 0x31] by
        decide +kernel]
    refine .percent true false <| .percent false false <| .plain ?_ <| .plus <| .plain ?_ <|
      .plain ?_ <| .percent false true <| spelled_self ?_ <;> decide +kernel
  have hfirst : PieceOf ("tags[in]", "é, ü=1") _ := .mk hkey hvalue
  have hsecond : PieceOf ("TAGS[IN]", "a?b") _ :=
    .mk (spelled_self (by decide +kernel)) (spelled_self (by decide +kernel))
  have hwritten := Written.ampersand <| .cons hfirst <| .ampersand <| .cons hsecond .nil
  have hbytes : Text.encode tagForm.toList = Form.ampersand ::
      (Text.encode "tags%5bin]".toList ++ equalsSign :: Text.encode "%C3%a9,+ü%3D1".toList ++
        Form.ampersand :: Form.ampersand ::
          (Text.encode "TAGS[IN]".toList ++ equalsSign :: Text.encode "a?b".toList ++
            Form.ampersand :: [])) := by decide +kernel
  rw [hbytes]
  exact hwritten

/-- The tags are read with a question mark in front and without one, and joined under one key. -/
theorem Query.ofForm_written_tags :
    Form.Written tagPairs (Text.encode tagForm.toList) ∧ tagForm.toList.head? ≠ some '?' ∧
      Form.pairs (Form.withoutMark ("?" ++ tagForm)) = tagPairs ∧
      ofForm ("?" ++ tagForm) = ofPairs tagPairs ∧ ofForm tagForm = ofPairs tagPairs ∧
      (ofForm tagForm).find? ⟨[.field "tags"], some .inside⟩ = some "é, ü=1,a?b" := by
  have hunmarked : tagForm.toList.head? ≠ some '?' := by decide +kernel
  obtain ⟨hpairs, hquery⟩ := ofForm_written Form.written_tags (.inl rfl)
  have hbare := (ofForm_written Form.written_tags (.inr ⟨rfl, hunmarked⟩)).2
  exact ⟨Form.written_tags, hunmarked, hpairs, hquery, hbare, by decide +kernel⟩

end BracketFilter
