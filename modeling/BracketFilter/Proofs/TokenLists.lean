import BracketFilter.Proofs.Answers
import Mathlib.Data.List.DropRight

/-!
# Lists of tokens

A membership operation lists the pieces of its value between commas, without the spaces around them
and without empty ones: `Leaf.tokens`.

* `Leaf.Surrounds` — spaces around a text; `Leaf.Lists` — what a value lists, piece by piece.
* `Leaf.Respaced` — the pieces of a value with more spaces around them, and with blank ones between
  them.

Principal results: `tokens_eq_iff` — the tokens of a value are what it lists; `tokens_joined` — the
tokens of values that are joined with commas are those of the first value, then those of the
second, and so on; `tokens_respaced` — spaces around pieces, and blank pieces, change nothing.
-/

set_option autoImplicit false

namespace BracketFilter

open BracketFilter.Text

/-! ## Trimmed texts -/

section Trim

variable {inClass : Char → Bool}

theorem Text.trimBoth_eq_self {cs : List Char}
    (first : ∀ c, cs.head? = some c → inClass c = false)
    (last : ∀ c, cs.getLast? = some c → inClass c = false) : trimBoth inClass cs = cs := by
  have hfront : cs.dropWhile inClass = cs := by
    rw [List.dropWhile_eq_self_iff]
    intro hpos
    simp [first _ (List.head?_eq_getElem? ▸ List.getElem?_eq_getElem hpos)]
  have hback : cs.rdropWhile inClass = cs := by
    rw [List.rdropWhile_eq_self_iff]
    intro hne
    simp [last _ (List.getLast?_eq_some_getLast hne)]
  unfold trimBoth
  rw [hfront]
  exact hback

theorem Text.trimBoth_append_left {front : List Char} (all : ∀ c ∈ front, inClass c = true)
    (cs : List Char) : trimBoth inClass (front ++ cs) = trimBoth inClass cs := by
  unfold trimBoth
  rw [List.dropWhile_append_of_pos all]

theorem Text.trimBoth_append_right {back : List Char} (all : ∀ c ∈ back, inClass c = true)
    (cs : List Char) : trimBoth inClass (cs ++ back) = trimBoth inClass cs := by
  unfold trimBoth
  rw [List.dropWhile_append]
  split
  · -- Nothing is left of the text, and nothing of what stands behind it.
    rename_i hnone
    rw [List.isEmpty_iff.1 hnone, List.dropWhile_eq_nil_iff.2 all]
  · have hback : ∀ c ∈ back.reverse, inClass c = true := fun c hc => all c (List.mem_reverse.1 hc)
    rw [List.reverse_append, List.dropWhile_append_of_pos hback]

/-- A text is trimmed to what stands between two runs of a class and neither begins nor ends with a
character of it. -/
theorem Text.trimBoth_eq_iff {cs core : List Char} :
    trimBoth inClass cs = core ↔ ∃ front back, cs = front ++ core ++ back ∧
      (∀ c ∈ front, inClass c = true) ∧ (∀ c ∈ back, inClass c = true) ∧
      (∀ c, core.head? = some c → inClass c = false) ∧
      ∀ c, core.getLast? = some c → inClass c = false := by
  constructor
  · rintro rfl
    have hcut : cs = cs.takeWhile inClass ++ trimBoth inClass cs ++
        ((cs.dropWhile inClass).reverse.takeWhile inClass).reverse := by
      unfold trimBoth
      rw [List.append_assoc, ← List.reverse_append, List.takeWhile_append_dropWhile,
        List.reverse_reverse, List.takeWhile_append_dropWhile]
    refine ⟨_, _, hcut, fun c hc => List.mem_takeWhile_imp hc,
      fun c hc => List.mem_takeWhile_imp (List.mem_reverse.1 hc), fun c hc => ?_, fun c hc => ?_⟩
    · -- The first character that is left is the first behind the run in front.
      unfold trimBoth at hc
      rw [List.head?_reverse] at hc
      have hsuffix := List.dropWhile_suffix (l := (cs.dropWhile inClass).reverse) inClass
      obtain ⟨run, hrun⟩ := hsuffix
      have hne : (cs.dropWhile inClass).reverse.dropWhile inClass ≠ [] := by
        rintro hnil
        rw [hnil] at hc
        cases hc
      have hlast : (cs.dropWhile inClass).reverse.getLast? = some c := by
        rw [← hrun, List.getLast?_append_of_ne_nil _ hne, hc]
      rw [List.getLast?_reverse] at hlast
      have hfirst := List.head?_dropWhile_not inClass cs
      rw [hlast] at hfirst
      simpa using hfirst
    · unfold trimBoth at hc
      rw [List.getLast?_reverse] at hc
      have hfirst := List.head?_dropWhile_not inClass (cs.dropWhile inClass).reverse
      rw [hc] at hfirst
      simpa using hfirst
  · rintro ⟨front, back, rfl, hfront, hback, hfirst, hlast⟩
    rw [trimBoth_append_right hback, trimBoth_append_left hfront, trimBoth_eq_self hfirst hlast]

end Trim

namespace Leaf

/-! ## What a value lists -/

/-- A piece is a text with spaces around it, and the text itself neither begins nor ends with
one. -/
def Surrounds (piece core : List Char) : Prop :=
  ∃ m n, piece = List.replicate m ' ' ++ core ++ List.replicate n ' ' ∧
    core.head? ≠ some ' ' ∧ core.getLast? ≠ some ' '

/-- A value lists the texts between its commas, without the spaces around them and without empty
ones. -/
def Lists (raw : String) (ts : List String) : Prop :=
  ∃ cores, List.Forall₂ Surrounds (raw.toList.splitOn ',') cores ∧
    ts = (cores.filter (· ≠ [])).map String.ofList

/-- What is listed of some pieces. -/
def kept (pieces : List (List Char)) : List String :=
  ((pieces.map (trimBoth (· == ' '))).filter (· ≠ [])).map String.ofList

theorem tokens_eq_kept (raw : String) : tokens raw = kept (raw.toList.splitOn ',') := rfl

theorem kept_append (pieces pieces' : List (List Char)) :
    kept (pieces ++ pieces') = kept pieces ++ kept pieces' := by
  simp only [kept, List.map_append, List.filter_append]

theorem kept_cons (piece : List Char) (pieces : List (List Char)) :
    kept (piece :: pieces) = kept [piece] ++ kept pieces := kept_append [piece] pieces

theorem surrounds_iff {piece core : List Char} :
    Surrounds piece core ↔ trimBoth (· == ' ') piece = core := by
  rw [Text.trimBoth_eq_iff]
  simp only [beq_iff_eq, beq_eq_false_iff_ne]
  constructor
  · rintro ⟨m, n, hpiece, hfirst, hlast⟩
    refine ⟨_, _, hpiece, fun c hc => List.eq_of_mem_replicate hc,
      fun c hc => List.eq_of_mem_replicate hc, ?_, ?_⟩
    · rintro c hc rfl
      exact hfirst hc
    · rintro c hc rfl
      exact hlast hc
  · rintro ⟨front, back, hpiece, hfront, hback, hfirst, hlast⟩
    refine ⟨front.length, back.length, ?_, fun h => hfirst _ h rfl, fun h => hlast _ h rfl⟩
    rw [← List.eq_replicate_of_mem hfront, ← List.eq_replicate_of_mem hback, hpiece]

/-- **The tokens of a value are what it lists.** Spaces around them are left out, and no other white
space is. -/
theorem tokens_eq_iff {raw : String} {ts : List String} : tokens raw = ts ↔ Lists raw ts := by
  have hcores {pieces cores : List (List Char)} :
      List.Forall₂ Surrounds pieces cores ↔ cores = pieces.map (trimBoth (· == ' ')) := by
    have hsame : Surrounds = fun piece core => trimBoth (· == ' ') piece = core := by
      funext piece core
      exact propext surrounds_iff
    rw [hsame, ← List.forall₂_map_left_iff, List.forall₂_eq_eq_eq]
    exact eq_comm
  unfold Lists
  constructor
  · rintro rfl
    exact ⟨_, hcores.2 rfl, rfl⟩
  · rintro ⟨cores, hsurrounds, rfl⟩
    rw [hcores.1 hsurrounds]
    rfl

/-! ## Values that are joined -/

theorem tokens_append_comma (first second : String) :
    tokens (first ++ "," ++ second) = tokens first ++ tokens second := by
  have hpieces : (first ++ "," ++ second).toList.splitOn ',' =
      first.toList.splitOn ',' ++ second.toList.splitOn ',' := by
    simp only [String.toList_append, List.append_assoc]
    exact List.splitOn_append_cons_self first.toList second.toList
  simp only [tokens_eq_kept, hpieces, kept_append]

/-- **The tokens of joined values are those of the first, then those of the second, and so on.** -/
theorem tokens_joined (values : List String) :
    tokens (",".intercalate values) = values.flatMap tokens := by
  induction values with
  | nil => decide
  | cons value rest ih =>
    cases rest with
    | nil => simp
    | cons next rest =>
      rw [String.intercalate_cons_cons, tokens_append_comma, ih]
      rfl

/-! ## Spaces and blank pieces -/

/-- The pieces of a value with spaces put around them, and with blank pieces put between them. -/
inductive Respaced : List (List Char) → List (List Char) → Prop
  | nil : Respaced [] []
  | blank {pieces pieces' : List (List Char)} (n : Nat) (rest : Respaced pieces pieces') :
      Respaced pieces (List.replicate n ' ' :: pieces')
  | piece {piece : List Char} {pieces pieces' : List (List Char)} (m n : Nat)
      (rest : Respaced pieces pieces') :
      Respaced (piece :: pieces)
        ((List.replicate m ' ' ++ piece ++ List.replicate n ' ') :: pieces')

/-- A value is another with spaces put around the texts between its commas, and with empty texts
put between them. -/
def RespacedFrom (raw raw' : String) : Prop :=
  Respaced (raw.toList.splitOn ',') (raw'.toList.splitOn ',')

theorem kept_respaced {pieces pieces' : List (List Char)} (h : Respaced pieces pieces') :
    kept pieces' = kept pieces := by
  have hspaces (n : Nat) : ∀ c ∈ List.replicate n ' ', (c == ' ') = true := by
    intro c hc
    simp [List.eq_of_mem_replicate hc]
  induction h with
  | nil => rfl
  | blank n rest ih =>
    have hblank := Text.trimBoth_eq_nil_iff.2 (hspaces n)
    rw [kept_cons, ih]
    simp [kept, hblank]
  | piece m n rest ih =>
    simp only [kept, List.map_cons, List.append_assoc, List.filter_cons] at ih ⊢
    rw [Text.trimBoth_append_left (hspaces m), Text.trimBoth_append_right (hspaces n)]
    split
    · rw [List.map_cons, List.map_cons, ih]
    · exact ih

/-- **Spaces around its pieces, and blank pieces, change nothing about what a value lists.** -/
theorem tokens_respaced {raw raw' : String} (h : RespacedFrom raw raw') :
    tokens raw' = tokens raw := kept_respaced h

end Leaf

end BracketFilter
