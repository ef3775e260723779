import BracketFilter.Proofs.KeySpelling
import BracketFilter.Text.LowerCase
import Mathlib.Data.List.TakeWhile

/-!
# Lower-casing in context

* `lowerWithin` — the lower-case form of a piece between the text before it and the text after it.
* `EndsInSigma`, `OpensWithSigma` — a piece ends a word in a capital sigma, or begins with the last
  letters of a word and a capital sigma among them.
* `SplitsAfter`, `SplitsBefore` — the text goes on with the word that ends in this sigma, or has
  begun it.
* `SameLetters` — two texts are one but for the case of ASCII letters.

Each character has a form of its own, apart from the capital sigma, which has one at the end of a
word and one elsewhere. So a piece has the same form wherever it stands, unless a word with a sigma
is split.

Principal results: `lowerWithin_eq_iff` — a piece has the same form in two places exactly if every
capital sigma in it has; `lowerWithin_after_iff`, `lowerWithin_before_iff` — at the start and at the
end of a text the form of a piece is that which it has alone, exactly if no word with a sigma is
split; `lower_map_toLower` — the case of ASCII letters does not matter, in the characters around a
sigma neither.
-/

set_option autoImplicit false

namespace BracketFilter.Text

/-! ## Pieces of texts -/

/-- The character whose lower-case form depends on what stands around it. -/
def capitalSigma : Char := Char.ofNat 0x3A3

theorem toNat_eq_sigma_iff {c : Char} : c.toNat = 0x3A3 ↔ c = capitalSigma := by
  constructor
  · intro h
    rw [← Char.ofNat_toNat c, h]
    rfl
  · rintro rfl
    rfl

/-- The lower-case form of a piece between the text before it, which is kept in reverse, and the
text after it. -/
def lowerWithin (before after : List Char) : List Char → List Char
  | [] => []
  | c :: rest =>
    (if c.toNat = 0x3A3 then [lowerSigma before (rest ++ after)] else lowerChar c) ++
      lowerWithin (c :: before) after rest

theorem lowerAfter_append (before piece after : List Char) :
    lowerAfter before (piece ++ after) =
      lowerWithin before after piece ++ lowerAfter (piece.reverse ++ before) after := by
  induction piece generalizing before with
  | nil => rfl
  | cons c rest ih =>
    simp only [List.cons_append, lowerAfter, lowerWithin, ih, List.append_assoc,
      List.reverse_cons, List.nil_append]

theorem lowerAfter_eq_lowerWithin (before piece : List Char) :
    lowerAfter before piece = lowerWithin before [] piece := by
  have h := lowerAfter_append before piece []
  rwa [List.append_nil, lowerAfter, List.append_nil] at h

/-- A text is lowered piece by piece, each between the others. -/
theorem lower_append₃ (front piece back : List Char) :
    lower (front ++ (piece ++ back)) =
      lowerWithin [] (piece ++ back) front ++
        (lowerWithin front.reverse back piece ++
          lowerAfter (piece.reverse ++ front.reverse) back) := by
  unfold lower
  rw [lowerAfter_append, lowerAfter_append, List.append_nil]

theorem length_lowerWithin (before after before' after' piece : List Char) :
    (lowerWithin before after piece).length = (lowerWithin before' after' piece).length := by
  induction piece generalizing before before' with
  | nil => rfl
  | cons c rest ih =>
    simp only [lowerWithin, List.length_append, ih (c :: before) (c :: before')]
    split <;> rfl

/-- **A piece has the same form in two places exactly if every capital sigma in it has.** -/
theorem lowerWithin_eq_iff {before after before' after' piece : List Char} :
    lowerWithin before after piece = lowerWithin before' after' piece ↔
      ∀ front back, piece = front ++ capitalSigma :: back →
        lowerSigma (front.reverse ++ before) (back ++ after) =
          lowerSigma (front.reverse ++ before') (back ++ after') := by
  -- What stands before the piece takes in its characters one by one, on both sides.
  induction piece generalizing before before' with
  | nil => simp [lowerWithin]
  | cons c rest ih =>
    have hhead : (lowerWithin before after (c :: rest) = lowerWithin before' after' (c :: rest)) ↔
        (c = capitalSigma → lowerSigma before (rest ++ after) = lowerSigma before' (rest ++ after'))
          ∧ lowerWithin (c :: before) after rest = lowerWithin (c :: before') after' rest := by
      simp only [lowerWithin, toNat_eq_sigma_iff]
      by_cases hc : c = capitalSigma
      · simp [hc]
      · simp [hc]
    rw [hhead, ih]
    constructor
    · rintro ⟨hfirst, hrest⟩ front back hsplit
      cases front with
      | nil =>
        simp only [List.nil_append, List.cons.injEq] at hsplit
        obtain ⟨rfl, rfl⟩ := hsplit
        exact hfirst rfl
      | cons d front =>
        simp only [List.cons_append, List.cons.injEq] at hsplit
        obtain ⟨rfl, rfl⟩ := hsplit
        simpa using hrest front back rfl
    · intro h
      refine ⟨?_, ?_⟩
      · rintro rfl
        exact h [] rest rfl
      · rintro front back rfl
        simpa using h (c :: front) back rfl

/-! ## Words that end in a sigma -/

theorem startsCased_append_of_ignorable {cs : List Char}
    (h : ∀ c ∈ cs, isCaseIgnorable c = true) (rest : List Char) :
    startsCased (cs ++ rest) = startsCased rest := by
  unfold startsCased
  rw [List.dropWhile_append_of_pos h]

theorem startsCased_append_of_not {cs : List Char}
    (h : ¬ ∀ c ∈ cs, isCaseIgnorable c = true) (rest : List Char) :
    startsCased (cs ++ rest) = startsCased cs := by
  have hne : cs.dropWhile isCaseIgnorable ≠ [] := by
    rw [ne_eq, List.dropWhile_eq_nil_iff]
    exact h
  obtain ⟨c, tail, htail⟩ := List.exists_cons_of_ne_nil hne
  unfold startsCased
  rw [List.dropWhile_append, htail]
  rfl

theorem startsCased_of_ignorable {cs : List Char} (h : ∀ c ∈ cs, isCaseIgnorable c = true) :
    startsCased cs = false := by
  have hnil := startsCased_append_of_ignorable h []
  rwa [List.append_nil] at hnil

theorem lowerSigma_eq_iff {before after before' after' : List Char} :
    lowerSigma before after = lowerSigma before' after' ↔
      (startsCased before = true ∧ startsCased after = false ↔
        startsCased before' = true ∧ startsCased after' = false) := by
  unfold lowerSigma
  cases startsCased before <;> cases startsCased after <;> cases startsCased before' <;>
    cases startsCased after' <;> decide

/-- A piece ends a word in a capital sigma: there are letters of the word before it, and nothing
that counts behind it. -/
def EndsInSigma (piece : List Char) : Prop :=
  ∃ front back, piece = front ++ capitalSigma :: back ∧ startsCased front.reverse = true ∧
    ∀ c ∈ back, isCaseIgnorable c = true

/-- A piece opens with a capital sigma at which a word may end: nothing that counts stands before
it, and no letter of the word behind it. -/
def OpensWithSigma (piece : List Char) : Prop :=
  ∃ front back, piece = front ++ capitalSigma :: back ∧
    (∀ c ∈ front, isCaseIgnorable c = true) ∧ startsCased back = false

/-- The text behind a piece goes on with the word that the piece ends in a capital sigma. -/
def SplitsAfter (piece after : List Char) : Prop :=
  EndsInSigma piece ∧ startsCased after = true

/-- The text before a piece, which is kept in reverse, has begun the word that ends at the capital
sigma with which the piece opens. -/
def SplitsBefore (before piece : List Char) : Prop :=
  startsCased before = true ∧ OpensWithSigma piece

/-- A sigma has the form that it has in its piece alone, unless the word there ends in it and goes
on behind the piece, or begins before the piece and ends in it. -/
theorem lowerSigma_placed_iff {before front back after : List Char} :
    lowerSigma (front.reverse ++ before) (back ++ after) = lowerSigma front.reverse back ↔
      ¬ (startsCased front.reverse = true ∧ (∀ c ∈ back, isCaseIgnorable c = true) ∧
        startsCased after = true) ∧
      ¬ (startsCased before = true ∧ (∀ c ∈ front, isCaseIgnorable c = true) ∧
        startsCased (back ++ after) = false) := by
  have hfront : (∀ c ∈ front.reverse, isCaseIgnorable c = true) ↔
      ∀ c ∈ front, isCaseIgnorable c = true := by
    simp only [List.mem_reverse]
  rw [lowerSigma_eq_iff]
  by_cases hf : ∀ c ∈ front, isCaseIgnorable c = true
  · have hnone := startsCased_of_ignorable (hfront.2 hf)
    rw [startsCased_append_of_ignorable (hfront.2 hf), hnone, iff_true_intro hf]
    simp
  · rw [startsCased_append_of_not (mt hfront.1 hf), iff_false_intro hf]
    by_cases hb : ∀ c ∈ back, isCaseIgnorable c = true
    · rw [startsCased_append_of_ignorable hb, startsCased_of_ignorable hb, iff_true_intro hb]
      simp
    · rw [startsCased_append_of_not hb, iff_false_intro hb]
      simp

/-- **A piece has the form that it has alone** where no word with a sigma is split. -/
theorem lowerWithin_of_not_splits {before piece after : List Char}
    (notAfter : ¬ SplitsAfter piece after) (notBefore : ¬ SplitsBefore before piece) :
    lowerWithin before after piece = lowerWithin [] [] piece := by
  rw [lowerWithin_eq_iff]
  intro front back hpiece
  rw [List.append_nil, List.append_nil, lowerSigma_placed_iff]
  constructor
  · rintro ⟨hword, hback, hafter⟩
    exact notAfter ⟨⟨front, back, hpiece, hword, hback⟩, hafter⟩
  · rintro ⟨hbefore, hfront, hnone⟩
    refine notBefore ⟨hbefore, front, back, hpiece, hfront, ?_⟩
    by_cases hback : ∀ c ∈ back, isCaseIgnorable c = true
    · exact startsCased_of_ignorable hback
    · rwa [startsCased_append_of_not hback] at hnone

/-- **At the start of a text** a piece has the form that it has alone exactly if the text does not
go on with a word that the piece ends in a sigma. -/
theorem lowerWithin_after_iff {piece after : List Char} :
    lowerWithin [] after piece = lowerWithin [] [] piece ↔ ¬ SplitsAfter piece after := by
  constructor
  · rintro h ⟨⟨front, back, hpiece, hword, hback⟩, hafter⟩
    have hsame := lowerWithin_eq_iff.1 h front back hpiece
    have hplaced := @lowerSigma_placed_iff [] front back after
    rw [List.append_nil] at hsame hplaced
    rw [List.append_nil back] at hsame
    exact (hplaced.1 hsame).1 ⟨hword, hback, hafter⟩
  · intro h
    refine lowerWithin_of_not_splits h ?_
    rintro ⟨hnone, -⟩
    cases hnone

/-- **At the end of a text** a piece has the form that it has alone exactly if the text has not
begun the word that ends at a sigma with which the piece opens. -/
theorem lowerWithin_before_iff {before piece : List Char} :
    lowerWithin before [] piece = lowerWithin [] [] piece ↔ ¬ SplitsBefore before piece := by
  constructor
  · rintro h ⟨hbefore, front, back, hpiece, hfront, hback⟩
    have hsame := lowerWithin_eq_iff.1 h front back hpiece
    have hplaced := @lowerSigma_placed_iff before front back []
    rw [List.append_nil] at hplaced
    rw [List.append_nil back, List.append_nil front.reverse] at hsame
    exact (hplaced.1 hsame).2 ⟨hbefore, hfront, hback⟩
  · intro h
    refine lowerWithin_of_not_splits ?_ h
    rintro ⟨-, hnone⟩
    cases hnone

/-! ## ASCII letters -/

theorem inRanges_of_ascii {ranges : List (Nat × Nat)} {c : Char} (h : c.toNat < 128) :
    inRanges ranges c = inRanges (ranges.filter fun r => r.1 < 128) c := by
  unfold inRanges
  rw [List.any_filter]
  congr 1
  funext r
  by_cases hfirst : r.1 < 128
  · simp [hfirst]
  · simp only [hfirst, decide_false, Bool.false_and, Bool.and_eq_false_iff, decide_eq_false_iff_not]
    omega

theorem isCased_of_ascii {c : Char} (h : c.toNat < 128) :
    isCased c = inRanges [(65, 90), (97, 122)] c := by
  have hranges : casedRanges.filter (fun r => r.1 < 128) = [(65, 90), (97, 122)] := by
    decide +kernel
  rw [isCased, inRanges_of_ascii h, hranges]

theorem isCaseIgnorable_of_ascii {c : Char} (h : c.toNat < 128) :
    isCaseIgnorable c = inRanges [(39, 39), (46, 46), (58, 58), (94, 94), (96, 96)] c := by
  have hranges : caseIgnorableRanges.filter (fun r => r.1 < 128) =
      [(39, 39), (46, 46), (58, 58), (94, 94), (96, 96)] := by
    decide +kernel
  rw [isCaseIgnorable, inRanges_of_ascii h, hranges]

theorem lowerChar_of_ascii {c : Char} (h : c.toNat < 128) : lowerChar c = [c.toLower] := by
  have hruns : lowerRuns.filter (fun r => r.first < 128) = [⟨65, 90, 1, 32⟩] := by
    decide +kernel
  have hfind : lowerRuns.find? (·.covers c.toNat) =
      (lowerRuns.filter fun r => r.first < 128).find? (·.covers c.toNat) := by
    rw [List.find?_filter]
    congr 1
    funext r
    by_cases hfirst : r.first < 128
    · simp [hfirst]
    · have hbelow : ¬ r.first ≤ c.toNat := by omega
      simp [hfirst, CaseRun.covers, hbelow]
  unfold lowerChar
  rw [if_neg (by omega), hfind, hruns, ← Char.ofNat_toNat c.toLower, toNat_toLower]
  by_cases hcapital : 65 ≤ c.toNat ∧ c.toNat ≤ 90
  · have hmoved : ((c.toNat : Int) + 32).toNat = c.toNat + 32 := by omega
    simp [CaseRun.covers, hcapital, Nat.mod_one, hmoved]
  · simp [CaseRun.covers, hcapital]

theorem toLower_of_not_ascii {c : Char} (h : ¬ c.toNat < 128) : c.toLower = c := by
  rw [← Char.toNat_inj, toNat_toLower, if_neg (by omega)]

/-- The case of an ASCII letter shows neither in its form nor in what it is around a sigma. -/
theorem caseless_toLower (c : Char) :
    lowerChar c.toLower = lowerChar c ∧ isCased c.toLower = isCased c ∧
      isCaseIgnorable c.toLower = isCaseIgnorable c := by
  by_cases h : c.toNat < 128
  · have hlower : c.toLower.toNat < 128 := by
      rw [toNat_toLower]
      split <;> omega
    refine ⟨?_, ?_, ?_⟩
    · rw [lowerChar_of_ascii hlower, lowerChar_of_ascii h, toLower_toLower]
    · rw [isCased_of_ascii hlower, isCased_of_ascii h, Bool.eq_iff_iff]
      simp only [inRanges, List.any_cons, List.any_nil, toNat_toLower, Bool.or_eq_true,
        Bool.and_eq_true, decide_eq_true_eq, Bool.or_false]
      split <;> omega
    · rw [isCaseIgnorable_of_ascii hlower, isCaseIgnorable_of_ascii h, Bool.eq_iff_iff]
      simp only [inRanges, List.any_cons, List.any_nil, toNat_toLower, Bool.or_eq_true,
        Bool.and_eq_true, decide_eq_true_eq, Bool.or_false]
      split <;> omega
  · rw [toLower_of_not_ascii h]
    exact ⟨rfl, rfl, rfl⟩

theorem startsCased_map_toLower (cs : List Char) :
    startsCased (cs.map Char.toLower) = startsCased cs := by
  have hignorable : isCaseIgnorable ∘ Char.toLower = isCaseIgnorable :=
    funext fun c => (caseless_toLower c).2.2
  unfold startsCased
  rw [List.dropWhile_map, hignorable]
  cases cs.dropWhile isCaseIgnorable with
  | nil => rfl
  | cons c rest => exact (caseless_toLower c).2.1

theorem lowerAfter_map_toLower (before cs : List Char) :
    lowerAfter (before.map Char.toLower) (cs.map Char.toLower) = lowerAfter before cs := by
  induction cs generalizing before with
  | nil => rfl
  | cons c rest ih =>
    have hsigma : c.toLower.toNat = 0x3A3 ↔ c.toNat = 0x3A3 := by
      rw [toNat_toLower]
      split <;> omega
    have hrest := ih (c :: before)
    rw [List.map_cons] at hrest
    simp only [List.map_cons, lowerAfter, hsigma, lowerSigma, startsCased_map_toLower,
      (caseless_toLower c).1, hrest]

/-- **The case of ASCII letters does not matter**, in the characters around a sigma neither. -/
theorem lower_map_toLower (cs : List Char) : lower (cs.map Char.toLower) = lower cs :=
  lowerAfter_map_toLower [] cs

/-- Two texts are one but for the case of ASCII letters. -/
def SameLetters (cs cs' : List Char) : Prop := cs.map Char.toLower = cs'.map Char.toLower

theorem lower_congr {cs cs' : List Char} (h : SameLetters cs cs') : lower cs = lower cs' := by
  rw [← lower_map_toLower cs, ← lower_map_toLower cs', h]

/-- The form of an ASCII text has its letters in lower case, one for one. -/
theorem lower_of_ascii {cs : List Char} (h : ∀ c ∈ cs, c.toNat < 128) :
    lower cs = cs.map Char.toLower := by
  suffices each : ∀ before, lowerAfter before cs = cs.map Char.toLower from each []
  induction cs with
  | nil => exact fun _ => rfl
  | cons c rest ih =>
    intro before
    rw [List.forall_mem_cons] at h
    rw [lowerAfter, if_neg (by omega), lowerChar_of_ascii h.1, ih h.2]
    rfl

/-! ## Pieces and the forms of texts -/

/-- The form of a piece stands in the form of a text where no word with a sigma is split. -/
theorem lower_infix {front piece back : List Char} (notAfter : ¬ SplitsAfter piece back)
    (notBefore : ¬ SplitsBefore front.reverse piece) :
    lower piece <:+: lower (front ++ (piece ++ back)) := by
  have halone : lower piece = lowerWithin front.reverse back piece := by
    rw [lowerWithin_of_not_splits notAfter notBefore]
    exact lowerAfter_eq_lowerWithin [] piece
  rw [lower_append₃, halone]
  exact ⟨_, _, List.append_assoc _ _ _⟩

/-- The form of a text begins with that of its first piece exactly if it does not go on with a word
that the piece ends in a sigma. -/
theorem lower_prefix_iff {piece back : List Char} :
    lower piece <+: lower (piece ++ back) ↔ ¬ SplitsAfter piece back := by
  have hwhole : lower (piece ++ back) =
      lowerWithin [] back piece ++ lowerAfter (piece.reverse ++ []) back :=
    lowerAfter_append [] piece back
  have hpiece : lower piece = lowerWithin [] [] piece := lowerAfter_eq_lowerWithin [] piece
  rw [hwhole, hpiece, ← lowerWithin_after_iff]
  constructor
  · intro h
    have hstart := List.prefix_of_prefix_length_le h (List.prefix_append _ _)
      (length_lowerWithin [] [] [] back piece).le
    exact (hstart.eq_of_length (length_lowerWithin _ _ _ _ _)).symm
  · intro h
    rw [h]
    exact List.prefix_append _ _

/-- The form of a text ends with that of its last piece exactly if it has not begun the word that
ends at a sigma with which the piece opens. -/
theorem lower_suffix_iff {front piece : List Char} :
    lower piece <:+ lower (front ++ piece) ↔ ¬ SplitsBefore front.reverse piece := by
  have hwhole : lower (front ++ piece) =
      lowerWithin [] piece front ++ lowerWithin front.reverse [] piece := by
    have h := lower_append₃ front piece []
    simpa only [List.append_nil, lowerAfter] using h
  have hpiece : lower piece = lowerWithin [] [] piece := lowerAfter_eq_lowerWithin [] piece
  rw [hwhole, hpiece, ← lowerWithin_before_iff]
  constructor
  · intro h
    have hend := List.suffix_of_suffix_length_le h (List.suffix_append _ _)
      (length_lowerWithin [] [] front.reverse [] piece).le
    exact (hend.eq_of_length (length_lowerWithin _ _ _ _ _)).symm
  · intro h
    rw [h]
    exact List.suffix_append _ _

theorem not_splits_of_not_mem {piece : List Char} (h : capitalSigma ∉ piece)
    (before after : List Char) : ¬ SplitsAfter piece after ∧ ¬ SplitsBefore before piece := by
  constructor
  · rintro ⟨⟨front, back, rfl, -⟩, -⟩
    simp at h
  · rintro ⟨-, front, back, rfl, -⟩
    simp at h

end BracketFilter.Text
