import BracketFilter.Operation
import BracketFilter.Text.Numeral

/-!
# Keys in bracket notation

A key such as `author[email][eq]` or `items[0][sku]` names a place by a path of segments, and may
end in an operation.

* `Segment`, `Path`, `Key` — one step, the steps of a key, and the key with its operation.
* `Key.parse?` — reads a key; letters lose their ASCII case, and the last bracket is an operation if
  it spells a tag. `none` for text that is no key.
* `Key.render` — writes a key.

`Key.brackets?_bracketed` and `Key.eq_of_brackets?_cons` say that bracketed parts, and nothing else,
are read behind the head.
-/

set_option autoImplicit false

namespace BracketFilter

open BracketFilter.Text


/-- One step of a path: a field by its name, or an entry of a list by its index. -/
inductive Segment where
  | field (name : String)
  | index (position : Nat)
  deriving DecidableEq, Repr

/-- The steps of a key, outermost first. -/
abbrev Path := List Segment

/-- The first index that is too large to be one. -/
def Segment.indexBound : Nat := Nat.pow 2 64

/-- The segment of a field that is declared under a name. -/
def Segment.named (name : String) : Segment := .field (lowerAscii name)

/-- The segment that a part of a key denotes: an index if it is a run of digits below the bound, and
a field otherwise. -/
def Segment.classify (part : List Char) : Segment :=
  match readNat? part with
  | some n => if n < indexBound then .index n else .field (String.ofList part)
  | none => .field (String.ofList part)

/-- The text of a segment without brackets. -/
def Segment.render : Segment → String
  | .field name => name
  | .index position => String.ofList (writeNat position)

/-- A path, and the operation that is asked for at its end. -/
structure Key where
  segments : Path
  operation : Option Operation
  deriving DecidableEq, Repr

namespace Key

/-- Whether a character is a bracket. -/
def isBracket (c : Char) : Bool := c == '[' || c == ']'

/-- The parts in a sequence of bracketed parts; each is non-empty and free of brackets. -/
def brackets? : List Char → Option (List (List Char))
  | [] => some []
  | c :: rest =>
    let part := rest.takeWhile fun d => !isBracket d
    let tail := rest.dropWhile fun d => !isBracket d
    if c = '[' ∧ part ≠ [] ∧ tail.head? = some ']' then
      (brackets? (tail.drop 1)).map (part :: ·)
    else none
  termination_by cs => cs.length
  decreasing_by
    have := (List.dropWhile_sublist (fun d => !isBracket d) (l := rest)).length_le
    simp only [List.length_drop, List.length_cons]
    omega

@[simp] theorem brackets?_nil : brackets? [] = some [] := by rw [brackets?]

theorem brackets?_bracketed {part rest : List Char} (nonempty : part ≠ [])
    (free : ∀ c ∈ part, isBracket c = false) :
    brackets? ('[' :: (part ++ ']' :: rest)) = (brackets? rest).map (part :: ·) := by
  have take : (part ++ ']' :: rest).takeWhile (fun d => !isBracket d) = part := by
    rw [List.takeWhile_append_of_pos (by simpa using free)]
    simp [isBracket]
  have drop : (part ++ ']' :: rest).dropWhile (fun d => !isBracket d) = ']' :: rest := by
    rw [List.dropWhile_append_of_pos (by simpa using free)]
    simp [isBracket]
  rw [brackets?]
  simp [take, drop, nonempty]

theorem eq_of_brackets?_cons {c : Char} {cs : List Char} {parts : List (List Char)}
    (h : brackets? (c :: cs) = some parts) :
    ∃ part rest others, c = '[' ∧ cs = part ++ ']' :: rest ∧ part ≠ [] ∧
      (∀ d ∈ part, isBracket d = false) ∧ brackets? rest = some others ∧
      parts = part :: others := by
  rw [brackets?] at h
  split at h
  · rename_i cond
    obtain ⟨others, hrest, rfl⟩ := Option.map_eq_some_iff.1 h
    refine ⟨_, _, others, cond.1, ?_, cond.2.1, ?_, hrest, rfl⟩
    · have := List.takeWhile_append_dropWhile (p := fun d => !isBracket d) (l := cs)
      cases htail : cs.dropWhile fun d => !isBracket d with
      | nil => simp [htail] at cond
      | cons d tail =>
        have hd : d = ']' := by simpa [htail] using cond.2.2
        subst hd
        rw [htail] at this
        simpa [htail] using this.symm
    · intro d hd
      simpa using List.all_eq_true.1 (List.all_takeWhile (p := fun d => !isBracket d)) d hd
  · cases h

/-- The parts of a key: a head, and what stands in the brackets behind it. -/
def parts? (cs : List Char) : Option (List Char × List (List Char)) :=
  let head := cs.takeWhile fun d => !isBracket d
  if head = [] then none
  else (brackets? (cs.dropWhile fun d => !isBracket d)).map fun bracketed => (head, bracketed)

/-- The operation that a segment spells. -/
def operationOf? : Segment → Option Operation
  | .field name => Operation.ofTag? name
  | .index _ => none

/-- The key with these segments, of which the last may spell the operation unless it is the head. -/
def ofSegments (head : Segment) (bracketed : List Segment) : Key :=
  match bracketed.getLast?.bind operationOf? with
  | some op => ⟨head :: bracketed.dropLast, some op⟩
  | none => ⟨head :: bracketed, none⟩

/-- Reads a key. -/
def parse? (raw : String) : Option Key :=
  (parts? (lowerAscii raw).toList).map fun (head, bracketed) =>
    ofSegments (.classify head) (bracketed.map .classify)

/-- Whether the key stands at a path or below it. -/
def isBelow (key : Key) (path : Path) : Bool := path.isPrefixOf key.segments

theorem isBelow_iff {key : Key} {path : Path} :
    key.isBelow path = true ↔ path <+: key.segments := by
  simp [isBelow]

/-- A segment in brackets. -/
def bracketed (segment : Segment) : String := "[" ++ segment.render ++ "]"

/-- The segments of a path, all but the first in brackets. -/
def renderPath : Path → String
  | [] => ""
  | head :: rest => head.render ++ String.join (rest.map bracketed)

/-- The key as text. -/
def render (key : Key) : String :=
  renderPath key.segments ++
    match key.operation with
    | some op => "[" ++ op.tag ++ "]"
    | none => ""

end Key

end BracketFilter
