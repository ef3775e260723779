import BracketFilter.Proofs.KeysBelow

/-!
# The grammar of keys

A key is `head ("[" part "]")*`, where the head and the parts are non-empty and free of brackets.

* `Text.NumeralOf` — a run of digits that denotes a number: its numeral behind any zeros.
* `Key.Denotes` — the segment that a part denotes: an index, or a field in lower case.
* `Key.SpellsTag` — a part that is the tag of an operation in some ASCII case.
* `Key.Reads` — the key that a head and bracketed parts stand for.

Principal results: `readNat?_eq_some_iff` — a text is read as a number exactly if it is a numeral of
it; `exists_written_of_parts?` — only texts of the grammar have parts; `parse?_accepts_grammar` —
exactly the texts of the grammar are keys, and they are read as what they stand for.
-/

set_option autoImplicit false

namespace BracketFilter

open BracketFilter.Text

/-! ## Numerals -/

/-- The text is the numeral of a number, behind any zeros. -/
def Text.NumeralOf (n : Nat) (cs : List Char) : Prop :=
  ∃ zeros, cs = List.replicate zeros '0' ++ writeNat n

theorem Text.digitChar_of_isDigit {c : Char} (h : c.isDigit = true) :
    c.toNat - '0'.toNat < 10 ∧ Nat.digitChar (c.toNat - '0'.toNat) = c := by
  have hbounds : '0'.toNat ≤ c.toNat ∧ c.toNat ≤ '9'.toNat := by
    simp only [Char.isDigit, Bool.and_eq_true, decide_eq_true_eq, ge_iff_le,
      UInt32.le_iff_toNat_le] at h
    exact h
  have hzero : '0'.toNat = 48 := rfl
  have hnine : '9'.toNat = 57 := rfl
  have hlt : c.toNat - '0'.toNat < 10 := by omega
  refine ⟨hlt, Char.toNat_inj.1 ?_⟩
  rw [Nat.toNat_digitChar_of_lt_ten hlt]
  omega

theorem Text.numeralOf_ofDigitChars {cs : List Char} (nonempty : cs ≠ [])
    (digits : ∀ c ∈ cs, c.isDigit = true) : NumeralOf (Nat.ofDigitChars 10 cs 0) cs := by
  induction cs using List.reverseRecOn with
  | nil => exact absurd rfl nonempty
  | append_singleton init c ih =>
    have hc : c.isDigit = true := digits c (by simp)
    obtain ⟨hlt, hchar⟩ := digitChar_of_isDigit hc
    have hlast : writeNat (c.toNat - '0'.toNat) = [c] := by
      unfold writeNat
      rw [Nat.toDigits_of_lt_base hlt, hchar]
    have hvalue : Nat.ofDigitChars 10 (init ++ [c]) 0 =
        10 * Nat.ofDigitChars 10 init 0 + (c.toNat - '0'.toNat) := by
      rw [Nat.ofDigitChars_append, Nat.ofDigitChars_cons, Nat.ofDigitChars_nil]
    rw [hvalue]
    by_cases hinit : init = []
    · subst hinit
      refine ⟨0, ?_⟩
      rw [Nat.ofDigitChars_nil, Nat.mul_zero, Nat.zero_add, hlast]
      rfl
    · obtain ⟨zeros, hzeros⟩ := ih hinit fun d hd => digits d (by simp [hd])
      generalize Nat.ofDigitChars 10 init 0 = m at hzeros
      by_cases hm : m = 0
      · -- What stands before the digit are zeros, of which the last is the numeral of zero.
        subst hm
        refine ⟨zeros + 1, ?_⟩
        rw [Nat.mul_zero, Nat.zero_add, hlast, hzeros, List.replicate_succ']
        rfl
      · refine ⟨zeros, ?_⟩
        have hjoin : writeNat m ++ [c] = writeNat (10 * m + (c.toNat - '0'.toNat)) := by
          rw [← hlast]
          exact Nat.toDigits_append_toDigits (by omega) (by omega) hlt
        rw [hzeros, List.append_assoc, hjoin]

/-- **A text is read as a number exactly if it is a numeral of it.** -/
theorem Text.readNat?_eq_some_iff {cs : List Char} {n : Nat} :
    readNat? cs = some n ↔ NumeralOf n cs := by
  constructor
  · intro h
    unfold readNat? at h
    split at h
    · rename_i cond
      cases h
      exact numeralOf_ofDigitChars cond.1 (List.all_eq_true.1 cond.2)
    · cases h
  · rintro ⟨zeros, rfl⟩
    exact readNat?_zeros (readNat?_writeNat n) zeros

theorem Text.NumeralOf.digits {n : Nat} {cs : List Char} (h : NumeralOf n cs) :
    cs ≠ [] ∧ ∀ c ∈ cs, c.isDigit = true :=
  Key.isDigit_of_readNat? (readNat?_eq_some_iff.2 h)

theorem Text.isDigit_toLower (c : Char) : c.toLower.isDigit = c.isDigit := by
  by_cases h : 65 ≤ c.toNat ∧ c.toNat ≤ 90
  · have hupper : c.isDigit = false := by
      rw [Bool.eq_false_iff]
      intro hdigit
      have hsmall := (digitChar_of_isDigit hdigit).1
      have hzero : '0'.toNat = 48 := rfl
      omega
    have hlower : c.toLower.isDigit = false := by
      rw [Bool.eq_false_iff]
      intro hdigit
      have hsmall := (digitChar_of_isDigit hdigit).1
      have hzero : '0'.toNat = 48 := rfl
      rw [toNat_toLower, if_pos h] at hsmall
      omega
    rw [hupper, hlower]
  · have hsame : c.toLower = c := by
      apply Char.toNat_inj.1
      rw [toNat_toLower, if_neg h]
    rw [hsame]

theorem Text.numeralOf_map_toLower {n : Nat} {cs : List Char} :
    NumeralOf n (cs.map Char.toLower) ↔ NumeralOf n cs := by
  have hsame (h : ∀ c ∈ cs, c.isDigit = true) : cs.map Char.toLower = cs := by
    rw [List.map_congr_left fun c hc => toLower_of_isDigit (h c hc), List.map_id']
  constructor
  · intro h
    have hdigits : ∀ c ∈ cs, c.isDigit = true := by
      intro c hc
      rw [← isDigit_toLower]
      exact h.digits.2 _ (List.mem_map_of_mem hc)
    rwa [hsame hdigits] at h
  · intro h
    rwa [hsame h.digits.2]

namespace Key

/-! ## Texts of the grammar -/

theorem eq_bracketedText_of_brackets? {cs : List Char} {parts : List (List Char)}
    (h : brackets? cs = some parts) :
    (∀ part ∈ parts, IsPart part) ∧ cs = bracketedText parts := by
  induction parts generalizing cs with
  | nil =>
    cases cs with
    | nil => exact ⟨by simp, rfl⟩
    | cons c cs =>
      obtain ⟨_, _, _, -, -, -, -, -, hparts⟩ := eq_of_brackets?_cons h
      cases hparts
  | cons part parts ih =>
    cases cs with
    | nil =>
      rw [brackets?_nil] at h
      cases h
    | cons c cs =>
      obtain ⟨part', rest, others, rfl, rfl, hnonempty, hfree, hrest, hparts⟩ :=
        eq_of_brackets?_cons h
      cases hparts
      obtain ⟨hothers, rfl⟩ := ih hrest
      rw [List.forall_mem_cons]
      refine ⟨⟨⟨hnonempty, hfree⟩, hothers⟩, ?_⟩
      simp [bracketedText]

/-- **Only texts of the grammar have parts.** -/
theorem exists_written_of_parts? {cs head : List Char} {parts : List (List Char)}
    (h : parts? cs = some (head, parts)) :
    (∀ part ∈ head :: parts, IsPart part) ∧ cs = head ++ bracketedText parts := by
  unfold parts? at h
  simp only at h
  split at h
  · cases h
  · rename_i hnonempty
    obtain ⟨bracketed, hbracketed, heq⟩ := Option.map_eq_some_iff.1 h
    obtain ⟨rfl, rfl⟩ := Prod.mk.inj heq
    obtain ⟨hparts, htext⟩ := eq_bracketedText_of_brackets? hbracketed
    have hfree : ∀ c ∈ cs.takeWhile (fun d => !isBracket d), isBracket c = false := by
      intro c hc
      simpa using List.mem_takeWhile_imp hc
    rw [List.forall_mem_cons]
    refine ⟨⟨⟨hnonempty, hfree⟩, hparts⟩, ?_⟩
    rw [← htext, List.takeWhile_append_dropWhile]

/-- Lower case changes nothing but the letters of bracketed parts. -/
theorem exists_of_map_toLower_eq_bracketedText {cs : List Char} {lowered : List (List Char)}
    (h : cs.map Char.toLower = bracketedText lowered) :
    ∃ parts : List (List Char), parts.map (List.map Char.toLower) = lowered ∧
      cs = bracketedText parts := by
  induction lowered generalizing cs with
  | nil =>
    refine ⟨[], rfl, ?_⟩
    simpa [bracketedText] using h
  | cons part lowered ih =>
    have htext : bracketedText (part :: lowered) =
        '[' :: (part ++ ']' :: bracketedText lowered) := by
      simp [bracketedText]
    rw [htext] at h
    obtain ⟨c, inner, rfl, hopen, hinner⟩ := List.map_eq_cons_iff.1 h
    obtain ⟨part', behind, rfl, hpart, hbehind⟩ := List.map_eq_append_iff.1 hinner
    obtain ⟨d, rest, rfl, hclose, hrest⟩ := List.map_eq_cons_iff.1 hbehind
    obtain ⟨parts, hparts, rfl⟩ := ih hrest
    have hc : c = '[' := (toLower_eq_iff (by decide)).1 hopen
    have hd : d = ']' := (toLower_eq_iff (by decide)).1 hclose
    refine ⟨part' :: parts, by rw [List.map_cons, hpart, hparts], ?_⟩
    simp [bracketedText, hc, hd]

/-- Only texts of the grammar are keys. -/
theorem wellFormed_of_parse? {raw : String} {key : Key} (h : parse? raw = some key) :
    WellFormed raw := by
  obtain ⟨⟨head, lowered⟩, hparts, -⟩ := Option.map_eq_some_iff.1 h
  obtain ⟨hisPart, htext⟩ := exists_written_of_parts? hparts
  rw [toList_lowerAscii] at htext
  obtain ⟨head', behind, hraw, rfl, hbehind⟩ := List.map_eq_append_iff.1 htext
  obtain ⟨parts, rfl, rfl⟩ := exists_of_map_toLower_eq_bracketedText hbehind
  refine ⟨head', parts, ?_, ?_⟩
  · rw [List.forall_mem_cons, List.forall_mem_map] at hisPart
    rw [List.forall_mem_cons]
    exact ⟨isPart_map_toLower.1 hisPart.1, fun part hpart =>
      isPart_map_toLower.1 (hisPart.2 part hpart)⟩
  · apply String.toList_inj.1
    rw [hraw, written, String.toList_ofList]

/-! ## What the texts stand for -/

/-- The segment that a part denotes: an index if the part is the numeral of a number below the
bound, and else a field under the part in lower case. -/
inductive Denotes (part : List Char) : Segment → Prop
  | index {n : Nat} (numeral : NumeralOf n part) (fits : n < Segment.indexBound) :
      Denotes part (.index n)
  | field (noIndex : ∀ n < Segment.indexBound, ¬ NumeralOf n part) :
      Denotes part (.field (lowerAscii (String.ofList part)))

/-- The part is the tag of an operation, whatever the case of its ASCII letters. -/
def SpellsTag (part : List Char) (op : Operation) : Prop :=
  lowerAscii (String.ofList part) = op.tag

/-- The key that a head and bracketed parts stand for: each of them is a segment, but for a last
bracketed part that spells an operation. -/
inductive Reads (head : List Char) : List (List Char) → Key → Prop
  | bare {parts : List (List Char)} {segments : Path}
      (each : List.Forall₂ Denotes (head :: parts) segments)
      (noTag : ∀ last, parts.getLast? = some last → ∀ op, ¬ SpellsTag last op) :
      Reads head parts ⟨segments, none⟩
  | operation {parts : List (List Char)} {last : List Char} {op : Operation} {segments : Path}
      (each : List.Forall₂ Denotes (head :: parts) segments) (tag : SpellsTag last op) :
      Reads head (parts ++ [last]) ⟨segments, some op⟩

theorem denotes_iff {part : List Char} {segment : Segment} :
    Denotes part segment ↔ segmentOf part = segment := by
  have hname : String.ofList (part.map Char.toLower) = lowerAscii (String.ofList part) := by
    rw [lowerAscii, String.toList_ofList]
  have hread (n : Nat) : readNat? (part.map Char.toLower) = some n ↔ NumeralOf n part := by
    rw [readNat?_eq_some_iff, numeralOf_map_toLower]
  constructor
  · intro h
    cases h with
    | index numeral fits =>
      simp only [segmentOf, Segment.classify, (hread _).2 numeral, if_pos fits]
    | field noIndex =>
      simp only [segmentOf, Segment.classify]
      cases hn : readNat? (part.map Char.toLower) with
      | none => simp only [hname]
      | some n =>
        have hlarge : ¬ n < Segment.indexBound := fun hfits => noIndex n hfits ((hread n).1 hn)
        simp only [if_neg hlarge, hname]
  · rintro rfl
    simp only [segmentOf, Segment.classify]
    cases hn : readNat? (part.map Char.toLower) with
    | none =>
      simp only [hname]
      refine .field fun n _ hnumeral => ?_
      rw [(hread n).2 hnumeral] at hn
      cases hn
    | some n =>
      by_cases hfits : n < Segment.indexBound
      · simp only [if_pos hfits]
        exact .index ((hread n).1 hn) hfits
      · simp only [if_neg hfits, hname]
        refine .field fun m hm hnumeral => ?_
        cases hn.symm.trans ((hread m).2 hnumeral)
        exact hfits hm

theorem forall₂_denotes_iff {parts : List (List Char)} {segments : Path} :
    List.Forall₂ Denotes parts segments ↔ parts.map segmentOf = segments := by
  induction parts generalizing segments with
  | nil => rw [List.forall₂_nil_left_iff, List.map_nil, eq_comm]
  | cons part parts ih =>
    simp only [List.forall₂_cons_left_iff, List.map_cons, denotes_iff, ih]
    constructor
    · rintro ⟨_, _, rfl, rfl, rfl⟩
      rfl
    · rintro rfl
      exact ⟨_, _, rfl, rfl, rfl⟩

theorem not_numeralOf_of_spellsTag {part : List Char} {op : Operation} (h : SpellsTag part op)
    (n : Nat) : ¬ NumeralOf n part := by
  intro hnumeral
  have hdigits : op.tag.toList.all Char.isDigit = true := by
    rw [← h, toList_lowerAscii, String.toList_ofList, List.all_eq_true]
    exact (numeralOf_map_toLower.2 hnumeral).digits.2
  revert hdigits
  cases op <;> decide

/-- A part spells an operation exactly if the segment that it denotes does. -/
theorem operationOf?_segmentOf_iff {part : List Char} {op : Operation} :
    operationOf? (segmentOf part) = some op ↔ SpellsTag part op := by
  constructor
  · intro h
    cases hsegment : segmentOf part with
    | index n =>
      rw [hsegment] at h
      cases h
    | field name =>
      rw [hsegment] at h
      have hdenotes := denotes_iff.2 hsegment
      cases hdenotes with
      | field noIndex => exact (tag_of_operationOf? (lowerAscii_lowerAscii _) h).symm
  · intro h
    have hsegment : segmentOf part = .field op.tag := by
      rw [← h]
      exact denotes_iff.1 (.field fun n _ => not_numeralOf_of_spellsTag h n)
    rw [hsegment]
    exact Operation.ofTag?_tag op

/-- A head and bracketed parts stand for the key that is put together of their segments. -/
theorem reads_iff {head : List Char} {parts : List (List Char)} {key : Key} :
    Reads head parts key ↔ ofSegments (segmentOf head) (parts.map segmentOf) = key := by
  unfold ofSegments
  -- The last part alone decides whether the key has an operation.
  rcases List.eq_nil_or_concat parts with rfl | ⟨init, last, rfl⟩
  · constructor
    · intro h
      generalize hparts : ([] : List (List Char)) = parts at h
      cases h with
      | bare each noTag =>
        subst hparts
        rw [forall₂_denotes_iff] at each
        rw [← each]
        rfl
      | operation => simp at hparts
    · rintro rfl
      exact .bare (forall₂_denotes_iff.2 rfl) (by simp)
  · rw [List.concat_eq_append, List.map_append, List.map_singleton, List.getLast?_append,
      List.getLast?_singleton, Option.some_or, Option.bind_some, List.dropLast_concat]
    constructor
    · intro h
      generalize hparts : init ++ [last] = parts at h
      cases h with
      | bare each noTag =>
        subst hparts
        rw [forall₂_denotes_iff] at each
        have hnone : operationOf? (segmentOf last) = none := by
          rw [Option.eq_none_iff_forall_ne_some]
          intro op hop
          exact noTag last (by simp) op (operationOf?_segmentOf_iff.1 hop)
        rw [hnone, ← each, List.map_cons, List.map_append, List.map_singleton]
      | operation each tag =>
        obtain ⟨rfl, hlast⟩ := List.append_inj' hparts rfl
        cases hlast
        rw [forall₂_denotes_iff] at each
        rw [operationOf?_segmentOf_iff.2 tag, ← each, List.map_cons]
    · rintro rfl
      cases hop : operationOf? (segmentOf last) with
      | none =>
        refine .bare (forall₂_denotes_iff.2 ?_) ?_
        · rw [List.map_cons, List.map_append, List.map_singleton]
        · intro last' hlast' op htag
          rw [List.getLast?_append, List.getLast?_singleton, Option.some_or,
            Option.some.injEq] at hlast'
          subst hlast'
          rw [operationOf?_segmentOf_iff.2 htag] at hop
          cases hop
      | some op =>
        exact .operation (forall₂_denotes_iff.2 (List.map_cons ..))
          (operationOf?_segmentOf_iff.1 hop)

theorem parse?_written_iff {head : List Char} {parts : List (List Char)}
    (isPart : ∀ part ∈ head :: parts, IsPart part) {key : Key} :
    parse? (written head parts) = some key ↔ Reads head parts key := by
  rw [List.forall_mem_cons] at isPart
  rw [parse?_written isPart.1 isPart.2, reads_iff, Option.some.injEq]
  exact Iff.rfl

/-- A key is read from a text exactly if the text is a head with bracketed parts that stand for
it. -/
theorem parse?_eq_some_iff {raw : String} {key : Key} :
    parse? raw = some key ↔ ∃ head parts, raw = written head parts ∧
      (∀ part ∈ head :: parts, IsPart part) ∧ Reads head parts key := by
  constructor
  · intro h
    obtain ⟨head, parts, hisPart, rfl⟩ := wellFormed_of_parse? h
    exact ⟨head, parts, rfl, hisPart, (parse?_written_iff hisPart).1 h⟩
  · rintro ⟨head, parts, rfl, hisPart, hreads⟩
    exact (parse?_written_iff hisPart).2 hreads

/-- **Exactly the texts of the grammar are keys**, and each is read as what its head and its
bracketed parts stand for; a text without brackets has no operation. -/
theorem parse?_accepts_grammar (raw : String) :
    ((∃ key, parse? raw = some key) ↔ WellFormed raw) ∧
    (∀ key, parse? raw = some key ↔ ∃ head parts, raw = written head parts ∧
      (∀ part ∈ head :: parts, IsPart part) ∧ Reads head parts key) ∧
    ∀ key, parse? raw = some key → '[' ∉ raw.toList → key.operation = none := by
  refine ⟨⟨?_, ?_⟩, fun key => parse?_eq_some_iff, ?_⟩
  · rintro ⟨key, hkey⟩
    exact wellFormed_of_parse? hkey
  · rintro ⟨head, parts, isPart, rfl⟩
    obtain ⟨key, hkey, -⟩ := exists_parse?_written isPart
    exact ⟨key, hkey⟩
  · intro key hkey hbrackets
    obtain ⟨head, parts, rfl, -, hreads⟩ := parse?_eq_some_iff.1 hkey
    cases hreads with
    | bare => rfl
    | operation =>
      refine absurd ?_ hbrackets
      simp [written, bracketedText]

theorem parse?_accepts_grammar_items :
    WellFormed "Items[007][SKU][nIn]" ∧
      Reads "Items".toList ["007".toList, "SKU".toList, "nIn".toList]
        ⟨[.field "items", .index 7, .field "sku"], some .notInside⟩ ∧
      ¬ WellFormed "items[sku" ∧
      ∃ key, parse? "NIN" = some key ∧ '[' ∉ "NIN".toList ∧ key.operation = none := by
  have hparse : parse? "Items[007][SKU][nIn]" =
      some ⟨[.field "items", .index 7, .field "sku"], some .notInside⟩ := by decide +kernel
  have hwellFormed := (parse?_accepts_grammar "Items[007][SKU][nIn]").1.1 ⟨_, hparse⟩
  have hmalformed : ¬ WellFormed "items[sku" := by
    rw [← (parse?_accepts_grammar "items[sku").1]
    rintro ⟨key, hkey⟩
    have hnone : parse? "items[sku" = none := by decide +kernel
    cases hnone.symm.trans hkey
  have hreads : Reads "Items".toList ["007".toList, "SKU".toList, "nIn".toList]
      ⟨[.field "items", .index 7, .field "sku"], some .notInside⟩ := by
    refine (parse?_written_iff (by decide)).1 ?_
    exact hparse
  have hname : parse? "NIN" = some ⟨[.field "nin"], none⟩ := by decide +kernel
  have hbare : '[' ∉ "NIN".toList := by decide
  exact ⟨hwellFormed, hreads, hmalformed, _, hname, hbare,
    (parse?_accepts_grammar "NIN").2.2 _ hname hbare⟩

end Key

end BracketFilter
