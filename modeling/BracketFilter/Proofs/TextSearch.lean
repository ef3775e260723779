import BracketFilter.Proofs.Cells
import BracketFilter.Proofs.Lowering

/-!
# Searching texts

* `titleCell`, `titleSite` — the title of a note, and where it is asked for.
* `Cell.SearchesText` — how the text operations on a cell see the case of letters.

Text and operand are lowered apart from each other, so that a piece of a text is found where it has
the same form alone as it has in the text.

Principal results: `Cell.accepts_pieces` — the pieces of a text are found unless a word with a
capital sigma is split; `Cell.searchesText` — the search is exact on ASCII texts, does not see the
case of ASCII letters in any text, and finds what stands at an end of a text, or is all of it, in
the text.
-/

set_option autoImplicit false

namespace BracketFilter

open BracketFilter.Text

variable {ι κ : Type} {C : κ → Type} {types : RecordTypes κ C} {k : κ}

namespace Cell

section Accepts

variable {cell : Cell ι types k} (string : cell.declared.kind = .string) (site : Site)
  (raw : String) {r : C k} {text : String} (reads : (cell.read r).text? = some text)
include string reads

theorem accepts_like_iff :
    cell.verdictOn? site .like raw r = some true ↔ lower raw.toList <:+: lower text.toList := by
  rw [verdictOn?_text rfl string site raw reads, ← occursIn_iff]
  simp [Test.finds, Operation.isNegated]

theorem accepts_startsWith_iff :
    cell.verdictOn? site .startsWith raw r = some true ↔
      lower raw.toList <+: lower text.toList := by
  rw [verdictOn?_text rfl string site raw reads]
  simp [Test.finds, Operation.isNegated]

theorem accepts_endsWith_iff :
    cell.verdictOn? site .endsWith raw r = some true ↔ lower raw.toList <:+ lower text.toList := by
  rw [verdictOn?_text rfl string site raw reads]
  simp [Test.finds, Operation.isNegated]

end Accepts

/-! ## Pieces of texts -/

/-- **A text is found by its pieces** unless a word with a capital sigma is split: at its start and
at its end exactly then, and a piece without such a sigma does not split one. -/
theorem accepts_pieces (cell : Cell ι types k) (string : cell.declared.kind = .string)
    (site : Site) (a b c : String) :
    (∀ r, cell.read r = .string (a ++ b ++ c) → ¬ SplitsAfter b.toList c.toList →
      ¬ SplitsBefore a.toList.reverse b.toList → cell.verdictOn? site .like b r = some true) ∧
    (∀ r, cell.read r = .string (b ++ c) →
      (cell.verdictOn? site .startsWith b r = some true ↔ ¬ SplitsAfter b.toList c.toList)) ∧
    (∀ r, cell.read r = .string (a ++ b) →
      (cell.verdictOn? site .endsWith b r = some true ↔
        ¬ SplitsBefore a.toList.reverse b.toList)) ∧
    (capitalSigma ∉ b.toList →
      ¬ SplitsAfter b.toList c.toList ∧ ¬ SplitsBefore a.toList.reverse b.toList) := by
  have htext {r : C k} {text : String} (h : cell.read r = .string text) :
      (cell.read r).text? = some text := by
    rw [h]
    rfl
  refine ⟨?inside, ?front, ?back, fun h => not_splits_of_not_mem h _ _⟩
  case inside =>
    intro r hread notAfter notBefore
    rw [accepts_like_iff string site b (htext hread), String.toList_append, String.toList_append,
      List.append_assoc]
    exact lower_infix notAfter notBefore
  case front =>
    intro r hread
    rw [accepts_startsWith_iff string site b (htext hread), String.toList_append]
    exact lower_prefix_iff
  case back =>
    intro r hread
    rw [accepts_endsWith_iff string site b (htext hread), String.toList_append]
    exact lower_suffix_iff

end Cell

/-- The title of a note. -/
def titleCell (k : Fin 1) : Cell (Fin 1) noteTypes k where
  shape := noteShapes k
  name := "title"
  type := .primitive ⟨.string, false⟩
  member := none
  declared := ⟨.string, false⟩
  found := ⟨.string, false⟩
  read := fun note => .string note.title
  declares := rfl
  reads := by
    obtain rfl := Subsingleton.elim k 0
    exact .value rfl rfl rfl

/-- Where titles of notes are asked for. -/
def titleSite : Site := ⟨"title", .standard, 2⟩

/-- A word is found in a title with other words, also if it ends in a capital sigma. -/
theorem Cell.accepts_pieces_title :
    (titleCell 0).verdictOn? titleSite .like "ΟΔΟΣ" { note with title := "Η ΟΔΟΣ ΜΟΥ" } =
      some true ∧
    (titleCell 0).verdictOn? titleSite .startsWith "ΟΔΟΣ" { note with title := "ΟΔΟΣ ΜΟΥ" } =
      some true ∧
    (titleCell 0).verdictOn? titleSite .endsWith "ΟΔΟΣ" { note with title := "Η ΟΔΟΣ" } =
      some true := by
  obtain ⟨hinside, hfront, hback, -⟩ :=
    accepts_pieces (titleCell 0) rfl titleSite "Η " "ΟΔΟΣ" " ΜΟΥ"
  have notAfter : ¬ SplitsAfter "ΟΔΟΣ".toList " ΜΟΥ".toList := fun h =>
    absurd h.2 (by decide +kernel)
  have notBefore : ¬ SplitsBefore "Η ".toList.reverse "ΟΔΟΣ".toList := fun h =>
    absurd h.1 (by decide +kernel)
  exact ⟨hinside _ rfl notAfter notBefore, (hfront _ rfl).2 notAfter, (hback _ rfl).2 notBefore⟩

/-- The start of a word up to a sigma is not found in the word, and neither is a sigma at its
end. -/
theorem Cell.rejects_split_word :
    (titleCell 0).read { note with title := "ΑΣΑ" } = .string ("" ++ "ΑΣ" ++ "Α") ∧
    (titleCell 0).verdictOn? titleSite .like "ΑΣ" { note with title := "ΑΣΑ" } = some false ∧
    (titleCell 0).verdictOn? titleSite .startsWith "ΑΣ" { note with title := "ΑΣΑ" } =
      some false ∧
    (titleCell 0).read { note with title := "ΑΣ" } = .string ("Α" ++ "Σ") ∧
    (titleCell 0).verdictOn? titleSite .endsWith "Σ" { note with title := "ΑΣ" } = some false := by
  decide +kernel

/-! ## The case of letters -/

/-- All characters of a text are ASCII. -/
def IsAscii (text : String) : Prop := ∀ c ∈ text.toList, c.toNat < 128

instance (text : String) : Decidable (IsAscii text) :=
  List.decidableBAll (fun c : Char => c.toNat < 128) text.toList

/-- How the text operations on a cell see the case of letters. -/
structure Cell.SearchesText (cell : Cell ι types k) (site : Site) : Prop where
  /-- Every text operation answers, whatever its operand. -/
  answers : ∀ {op : Operation} {r : C k} {text : String}, op.family = .text →
    (cell.read r).text? = some text → ∀ raw, (cell.verdictOn? site op raw r).isSome = true
  /-- In an ASCII text `li` finds exactly the ASCII operands that a run of it spells. -/
  like_ascii : ∀ {r : C k} {text raw : String}, (cell.read r).text? = some text →
    IsAscii text → IsAscii raw →
      (cell.verdictOn? site .like raw r = some true ↔
        ∃ part, part <:+: text.toList ∧ SameLetters raw.toList part)
  /-- At the start of an ASCII text `sw` finds exactly the ASCII operands that a prefix spells. -/
  startsWith_ascii : ∀ {r : C k} {text raw : String}, (cell.read r).text? = some text →
    IsAscii text → IsAscii raw →
      (cell.verdictOn? site .startsWith raw r = some true ↔
        ∃ part, part <+: text.toList ∧ SameLetters raw.toList part)
  /-- At the end of an ASCII text `ew` finds exactly the ASCII operands that a suffix spells. -/
  endsWith_ascii : ∀ {r : C k} {text raw : String}, (cell.read r).text? = some text →
    IsAscii text → IsAscii raw →
      (cell.verdictOn? site .endsWith raw r = some true ↔
        ∃ part, part <:+ text.toList ∧ SameLetters raw.toList part)
  /-- No operation sees the case of ASCII letters, in any text and operand. -/
  caseless : ∀ {op : Operation} {r r' : C k} {text text' raw raw' : String}, op.family = .text →
    (cell.read r).text? = some text → (cell.read r').text? = some text' →
    SameLetters text.toList text'.toList → SameLetters raw.toList raw'.toList →
      cell.verdictOn? site op raw r = cell.verdictOn? site op raw' r'
  /-- What stands at the start or at the end of a text stands in it. -/
  like_of_end : ∀ {r : C k} {text raw : String}, (cell.read r).text? = some text →
    cell.verdictOn? site .startsWith raw r = some true ∨
      cell.verdictOn? site .endsWith raw r = some true →
    cell.verdictOn? site .like raw r = some true

/-- **The search sees ASCII texts as they are and no case of an ASCII letter in any text.** -/
theorem Cell.searchesText {cell : Cell ι types k} (string : cell.declared.kind = .string)
    (site : Site) : cell.SearchesText site where
  answers := by
    intro op r text family reads raw
    rw [verdictOn?_text family string site raw reads]
    rfl
  like_ascii := by
    intro r text raw reads ascii ascii'
    rw [accepts_like_iff string site raw reads, lower_of_ascii ascii, lower_of_ascii ascii',
      List.infix_map_iff]
    exact Iff.rfl
  startsWith_ascii := by
    intro r text raw reads ascii ascii'
    rw [accepts_startsWith_iff string site raw reads, lower_of_ascii ascii, lower_of_ascii ascii',
      List.prefix_map_iff]
    exact Iff.rfl
  endsWith_ascii := by
    intro r text raw reads ascii ascii'
    rw [accepts_endsWith_iff string site raw reads, lower_of_ascii ascii, lower_of_ascii ascii',
      List.suffix_map_iff]
    exact Iff.rfl
  caseless := by
    intro op r r' text text' raw raw' family reads reads' same same'
    rw [verdictOn?_text family string site raw reads,
      verdictOn?_text family string site raw' reads', lower_congr same, lower_congr same']
  like_of_end := by
    intro r text raw reads h
    rw [accepts_startsWith_iff string site raw reads,
      accepts_endsWith_iff string site raw reads] at h
    rw [accepts_like_iff string site raw reads]
    rcases h with hstart | hend
    · exact hstart.isInfix
    · exact hend.isInfix

/-- What equality accepts is the text of the operand. -/
theorem Cell.string_of_accepts_eq {cell : Cell ι types k} {site : Site}
    (standard : site.coercer = .standard) {r : C k} {text raw : String}
    (reads : cell.read r = .string text) (h : cell.verdictOn? site .eq raw r = some true) :
    cell.declared.kind = .string ∧ text = raw := by
  obtain ⟨x, hx, horder⟩ := exists_operand_of_verdictOn? rfl h
  rw [standard] at hx
  have hkind := Coercer.kind?_of_standard hx
  simp only [Test.acceptsOrder, beq_iff_eq, reads] at horder
  cases x with
  | string s =>
    simp only [Value.kind?, Option.some.injEq] at hkind
    rw [← hkind] at hx
    simp only [Value.compare?, Option.some.injEq, Std.LawfulEqOrd.compare_eq_iff_eq] at horder
    cases hx
    exact ⟨hkind.symm, horder⟩
  | _ => cases horder

/-- **Text search and the case of letters.** The search sees ASCII texts as they are and no case of
an ASCII letter in any text, and it finds every text that equality accepts. -/
theorem Cell.text_search (cell : Cell ι types k) (site : Site) :
    (cell.declared.kind = .string → cell.SearchesText site) ∧
      (site.coercer = .standard → ∀ {r : C k} {text raw : String}, cell.read r = .string text →
        cell.verdictOn? site .eq raw r = some true →
        cell.verdictOn? site .startsWith raw r = some true ∧
          cell.verdictOn? site .endsWith raw r = some true ∧
          cell.verdictOn? site .like raw r = some true) := by
  refine ⟨fun string => searchesText string site, ?_⟩
  intro standard r text raw reads h
  obtain ⟨string, rfl⟩ := string_of_accepts_eq standard reads h
  have htext : (cell.read r).text? = some text := by
    rw [reads]
    rfl
  rw [accepts_startsWith_iff string site text htext, accepts_endsWith_iff string site text htext,
    accepts_like_iff string site text htext]
  exact ⟨List.prefix_rfl, List.suffix_rfl, List.infix_rfl⟩

/-- Capitals find small letters in a title, and the title finds itself. -/
theorem Cell.text_search_title :
    (titleCell 0).SearchesText titleSite ∧
    (∃ part, part <:+: "On Lean".toList ∧ SameLetters "LEAN".toList part) ∧
    (titleCell 0).verdictOn? titleSite .eq "On Lean" note = some true ∧
    (titleCell 0).verdictOn? titleSite .startsWith "On Lean" note = some true ∧
    (titleCell 0).verdictOn? titleSite .endsWith "On Lean" note = some true ∧
    (titleCell 0).verdictOn? titleSite .like "On Lean" note = some true := by
  obtain ⟨hsearch, hequal⟩ := text_search (titleCell 0) titleSite
  have hlike : (titleCell 0).verdictOn? titleSite .like "LEAN" note = some true := by decide +kernel
  have heq : (titleCell 0).verdictOn? titleSite .eq "On Lean" note = some true := by decide +kernel
  have hspelled := ((hsearch rfl).like_ascii rfl (by decide) (by decide)).1 hlike
  exact ⟨hsearch rfl, hspelled, heq, hequal rfl rfl heq⟩

end BracketFilter
