import BracketFilter.Key
import Mathlib.Data.List.Forall2

/-!
# Spellings of a key

* `Key.IsPart` — what may stand as the head of a key, or in brackets behind it.
* `Key.written` — the text of a key with a head and bracketed parts.
* `Key.ZerosApart` — two parts are one but for zeros in front of an index.
* `Key.Respelled` — two texts are one but for the case of ASCII letters, or for such zeros.

Principal results: `parse?_written` — the text of a key is read part by part, in lower case;
`parse?_respelled` — all spellings of a key are read as one key.
-/

set_option autoImplicit false

namespace BracketFilter

open BracketFilter.Text

/-! ## Letters and digits -/

theorem Text.toNat_toLower (c : Char) :
    c.toLower.toNat = if 65 ≤ c.toNat ∧ c.toNat ≤ 90 then c.toNat + 32 else c.toNat := by
  unfold Char.toLower
  simp only [Char.toNat, ge_iff_le, UInt32.le_iff_toNat_le, Char.reduceVal, UInt32.reduceToNat]
  split
  · simp only [UInt32.toNat_add, UInt32.reduceSub, UInt32.reduceToNat]
    omega
  · rfl

theorem Text.toLower_eq_iff {c d : Char} (h : d.toNat < 65 ∨ 90 < d.toNat ∧ d.toNat < 97) :
    c.toLower = d ↔ c = d := by
  rw [← Char.toNat_inj, ← Char.toNat_inj, toNat_toLower]
  split <;> omega

theorem Text.toLower_of_isDigit {c : Char} (h : c.isDigit = true) : c.toLower = c := by
  unfold Char.isDigit at h
  unfold Char.toLower
  grind

theorem Text.readNat?_zeros {digits : List Char} {n : Nat} (h : readNat? digits = some n)
    (k : Nat) : readNat? (List.replicate k '0' ++ digits) = some n := by
  induction k with
  | zero => exact h
  | succ k ih =>
    unfold readNat? at ih ⊢
    split at ih
    · rename_i cond
      rw [List.replicate_succ, List.cons_append, if_pos ⟨by simp, by simpa using cond.2⟩]
      exact ih
    · cases ih

namespace Key

/-! ## The parts of a key -/

theorem isBracket_toLower (c : Char) : isBracket c.toLower = isBracket c := by
  have hopen : c.toLower = '[' ↔ c = '[' := toLower_eq_iff (by decide)
  have hclose : c.toLower = ']' ↔ c = ']' := toLower_eq_iff (by decide)
  rw [Bool.eq_iff_iff]
  simp only [isBracket, Bool.or_eq_true, beq_iff_eq, hopen, hclose]

/-- What may stand as the head of a key, or in brackets behind it. -/
structure IsPart (part : List Char) : Prop where
  nonempty : part ≠ []
  free : ∀ c ∈ part, isBracket c = false

theorem isPart_iff {part : List Char} : IsPart part ↔ part ≠ [] ∧ part.any isBracket = false := by
  simp only [List.any_eq_false, Bool.not_eq_true]
  exact ⟨fun h => ⟨h.nonempty, h.free⟩, fun h => ⟨h.1, h.2⟩⟩

instance (part : List Char) : Decidable (IsPart part) := decidable_of_iff' _ isPart_iff

theorem isPart_map_toLower {part : List Char} : IsPart (part.map Char.toLower) ↔ IsPart part := by
  simp [isPart_iff, isBracket_toLower, Function.comp_def]

/-- Parts in brackets, one behind the other. -/
def bracketedText (parts : List (List Char)) : List Char :=
  parts.flatMap fun part => '[' :: (part ++ [']'])

/-- The text of a key with a head and bracketed parts. -/
def written (head : List Char) (parts : List (List Char)) : String :=
  String.ofList (head ++ bracketedText parts)

theorem brackets?_bracketedText {parts : List (List Char)} (h : ∀ part ∈ parts, IsPart part) :
    brackets? (bracketedText parts) = some parts := by
  induction parts with
  | nil => simp [bracketedText]
  | cons part rest ih =>
    rw [List.forall_mem_cons] at h
    have htext : bracketedText (part :: rest) = '[' :: (part ++ ']' :: bracketedText rest) := by
      simp [bracketedText]
    rw [htext, brackets?_bracketed h.1.nonempty h.1.free, ih h.2]
    rfl

theorem takeWhile_append_bracketedText {head : List Char} (hhead : IsPart head)
    (parts : List (List Char)) :
    (head ++ bracketedText parts).takeWhile (fun c => !isBracket c) = head := by
  have hfree : ∀ c ∈ head, (!isBracket c) = true := by simpa using hhead.free
  have htake : (bracketedText parts).takeWhile (fun c => !isBracket c) = [] := by
    cases parts <;> simp [bracketedText, isBracket]
  rw [List.takeWhile_append_of_pos hfree, htake, List.append_nil]

theorem dropWhile_append_bracketedText {head : List Char} (hhead : IsPart head)
    (parts : List (List Char)) :
    (head ++ bracketedText parts).dropWhile (fun c => !isBracket c) = bracketedText parts := by
  have hfree : ∀ c ∈ head, (!isBracket c) = true := by simpa using hhead.free
  have hdrop : (bracketedText parts).dropWhile (fun c => !isBracket c) = bracketedText parts := by
    cases parts <;> simp [bracketedText, isBracket]
  rw [List.dropWhile_append_of_pos hfree, hdrop]

theorem parts?_append {head : List Char} {parts : List (List Char)} (hhead : IsPart head)
    (h : ∀ part ∈ parts, IsPart part) :
    parts? (head ++ bracketedText parts) = some (head, parts) := by
  simp only [parts?, takeWhile_append_bracketedText hhead, dropWhile_append_bracketedText hhead,
    hhead.nonempty, if_false, brackets?_bracketedText h, Option.map_some]

/-- **The text of a key is read part by part, in lower case.** -/
theorem parse?_written {head : List Char} {parts : List (List Char)} (hhead : IsPart head)
    (h : ∀ part ∈ parts, IsPart part) :
    parse? (written head parts) =
      some (ofSegments (.classify (head.map Char.toLower))
        (parts.map fun part => .classify (part.map Char.toLower))) := by
  have hlower : (bracketedText parts).map Char.toLower =
      bracketedText (parts.map (List.map Char.toLower)) := by
    have hopen : '['.toLower = '[' := by decide
    have hclose : ']'.toLower = ']' := by decide
    simp [bracketedText, List.map_flatMap, List.flatMap_map, hopen, hclose]
  have hparts : parts? (lowerAscii (written head parts)).toList =
      some (head.map Char.toLower, parts.map (List.map Char.toLower)) := by
    rw [toList_lowerAscii, written, String.toList_ofList, List.map_append, hlower]
    refine parts?_append (isPart_map_toLower.2 hhead) ?_
    rw [List.forall_mem_map]
    exact fun part hpart => isPart_map_toLower.2 (h part hpart)
  simp only [parse?, hparts, Option.map_some, List.map_map, Function.comp_def]

/-! ## Spellings -/

/-- Two parts are one but for zeros in front of an index. -/
inductive ZerosApart : List Char → List Char → Prop
  | same {part : List Char} : ZerosApart part part
  | zeros {digits : List Char} {n k k' : Nat} (number : readNat? digits = some n)
      (index : n < Segment.indexBound) :
      ZerosApart (List.replicate k '0' ++ digits) (List.replicate k' '0' ++ digits)

/-- Two texts are one but for the case of ASCII letters, or for zeros in front of the indices of a
key. -/
inductive Respelled : String → String → Prop
  | letters {raw raw' : String} (same : lowerAscii raw = lowerAscii raw') : Respelled raw raw'
  | zeros {head head' : List Char} {parts parts' : List (List Char)}
      (each : List.Forall₂ ZerosApart (head :: parts) (head' :: parts'))
      (isPart : ∀ part ∈ head :: parts, IsPart part) :
      Respelled (written head parts) (written head' parts')

theorem isDigit_of_readNat? {digits : List Char} {n : Nat} (h : readNat? digits = some n) :
    digits ≠ [] ∧ ∀ c ∈ digits, c.isDigit = true := by
  unfold readNat? at h
  split at h
  · rename_i cond
    exact ⟨cond.1, List.all_eq_true.1 cond.2⟩
  · cases h

theorem isBracket_of_isDigit {c : Char} (h : c.isDigit = true) : isBracket c = false := by
  by_contra hbracket
  simp only [isBracket, Bool.not_eq_false, Bool.or_eq_true, beq_iff_eq] at hbracket
  rcases hbracket with rfl | rfl <;> revert h <;> decide

/-- A numeral is a part, and it denotes the same segment with and without zeros in front. -/
theorem classify_zeros {digits : List Char} {n : Nat} (number : readNat? digits = some n)
    (index : n < Segment.indexBound) (k : Nat) :
    IsPart (List.replicate k '0' ++ digits) ∧
      Segment.classify ((List.replicate k '0' ++ digits).map Char.toLower) = .index n := by
  have hnumber := readNat?_zeros number k
  obtain ⟨hnonempty, hdigits⟩ := isDigit_of_readNat? hnumber
  have hlower : (List.replicate k '0' ++ digits).map Char.toLower =
      List.replicate k '0' ++ digits := by
    rw [List.map_congr_left fun c hc => toLower_of_isDigit (hdigits c hc), List.map_id']
  refine ⟨⟨hnonempty, fun c hc => isBracket_of_isDigit (hdigits c hc)⟩, ?_⟩
  simp only [Segment.classify, hlower, hnumber, if_pos index]

theorem ZerosApart.alike {part part' : List Char} (h : ZerosApart part part')
    (isPart : IsPart part) :
    IsPart part' ∧ Segment.classify (part.map Char.toLower) =
      Segment.classify (part'.map Char.toLower) := by
  cases h with
  | same => exact ⟨isPart, rfl⟩
  | @zeros digits n k k' number index =>
    obtain ⟨-, hsegment⟩ := classify_zeros number index k
    obtain ⟨hpart', hsegment'⟩ := classify_zeros number index k'
    exact ⟨hpart', hsegment.trans hsegment'.symm⟩

/-- Parts that are one but for zeros are parts, and they denote the same segments. -/
theorem zerosApart_map_classify {parts parts' : List (List Char)}
    (each : List.Forall₂ ZerosApart parts parts') (isPart : ∀ part ∈ parts, IsPart part) :
    (∀ part ∈ parts', IsPart part) ∧
      parts.map (fun part => Segment.classify (part.map Char.toLower)) =
        parts'.map (fun part => Segment.classify (part.map Char.toLower)) := by
  induction each with
  | nil => exact ⟨isPart, rfl⟩
  | cons hpart _ ih =>
    rw [List.forall_mem_cons] at isPart
    obtain ⟨hpart', hsegment⟩ := hpart.alike isPart.1
    obtain ⟨hrest', hsegments⟩ := ih isPart.2
    rw [List.forall_mem_cons, List.map_cons, List.map_cons, hsegment, hsegments]
    exact ⟨⟨hpart', hrest'⟩, rfl⟩

/-- **All spellings of a key are read as one key.** -/
theorem parse?_respelled {raw raw' : String} (h : Respelled raw raw') :
    parse? raw = parse? raw' := by
  cases h with
  | letters same => simp only [parse?, same]
  | zeros each isPart =>
    obtain ⟨hpart', hsegments⟩ := zerosApart_map_classify each isPart
    rw [List.forall_mem_cons] at isPart hpart'
    rw [List.map_cons, List.map_cons, List.cons.injEq] at hsegments
    rw [parse?_written isPart.1 isPart.2, parse?_written hpart'.1 hpart'.2, hsegments.1,
      hsegments.2]

end Key

end BracketFilter
