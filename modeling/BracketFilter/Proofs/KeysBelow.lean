import BracketFilter.Proofs.FullPath
import BracketFilter.Proofs.KeySpelling
import BracketFilter.Proofs.RequestContent

/-!
# Keys that are moved below a path

* `Segment.Plain` — the segments that are read back from their own text.
* `Key.WellFormed` — the texts that have a head and bracketed parts.
* `Key.below` — the text of a key whose head is put in brackets behind a path.
* `Query.valuesAt` — the values that a sequence of pairs gives for the key of a full path.

A bare key whose name is a tag keeps its name as a segment at the root, and loses it to the
operation below a path: `new` is a field, and `doc[new]` has the operation `new`. The full path
tells neither spelling from the other.

Principal results: `exists_keys_below` — moving a key below a path puts the path in front of its
full path; `Settled.isPrefix_segments_iff` — the full path of a key tells at which paths it stands;
`get?_ofPairs` and `reaches_ofPairs_iff` — what a query of pairs tells about paths, by the full
paths of the pairs.
-/

set_option autoImplicit false

namespace BracketFilter

open BracketFilter.Text

/-! ## Texts -/

/-- A segment that is read back from its own text: a field in lower case, without brackets and not
all digits, or an index below the bound. -/
def Segment.Plain : Segment → Prop
  | .field name =>
    lowerAscii name = name ∧ (∀ c ∈ name.toList, Key.isBracket c = false) ∧
      ∃ c ∈ name.toList, c.isDigit = false
  | .index position => position < indexBound

instance (segment : Segment) : Decidable segment.Plain :=
  match segment with
  | .field name =>
    decidable_of_iff (lowerAscii name = name ∧ name.toList.any Key.isBracket = false ∧
      name.toList.all Char.isDigit = false) (by simp [Segment.Plain])
  | .index position => inferInstanceAs (Decidable (position < Segment.indexBound))

namespace Key

/-- The segment that a part of a key denotes in any case of its letters. -/
def segmentOf (part : List Char) : Segment := .classify (part.map Char.toLower)

theorem segmentOf_render {segment : Segment} (plain : segment.Plain) :
    IsPart segment.render.toList ∧ segmentOf segment.render.toList = segment := by
  cases segment with
  | field name =>
    obtain ⟨hlower, hfree, c, hc, hdigit⟩ := plain
    have htext : name.toList.map Char.toLower = name.toList := by
      rw [← toList_lowerAscii, hlower]
    have hnumber : readNat? name.toList = none := by
      unfold readNat?
      rw [if_neg]
      rintro ⟨-, hall⟩
      rw [List.all_eq_true.1 hall c hc] at hdigit
      cases hdigit
    refine ⟨⟨List.ne_nil_of_mem hc, hfree⟩, ?_⟩
    simp only [segmentOf, Segment.render, htext, Segment.classify, hnumber, String.ofList_toList]
  | index position =>
    have hread := classify_zeros (readNat?_writeNat position) plain 0
    simpa [segmentOf, Segment.render] using hread

theorem lowerAscii_of_segmentOf {part : List Char} {name : String}
    (h : segmentOf part = .field name) : lowerAscii name = name := by
  have hname : name = String.ofList (part.map Char.toLower) := by
    unfold segmentOf Segment.classify at h
    split at h
    · split at h
      · cases h
      · exact (Segment.field.inj h).symm
    · exact (Segment.field.inj h).symm
  rw [hname]
  rw [lowerAscii, String.toList_ofList, List.map_map]
  simp only [Function.comp_def, toLower_toLower]

/-- The text has a head and bracketed parts: `name[part]…[part]`. -/
def WellFormed (raw : String) : Prop :=
  ∃ head parts, (∀ part ∈ head :: parts, IsPart part) ∧ raw = written head parts

/-- The text of a key with its head put in brackets behind a path. -/
def below (base : Path) (raw : String) : String :=
  renderPath base ++ String.ofList ('[' :: (raw.toList.takeWhile (fun c => !isBracket c) ++
    ']' :: raw.toList.dropWhile (fun c => !isBracket c)))

theorem below_written {first : Segment} {rest : Path} {head : List Char} {parts : List (List Char)}
    (hhead : IsPart head) :
    below (first :: rest) (written head parts) =
      written first.render.toList
        ((rest.map fun segment => segment.render.toList) ++ head :: parts) := by
  apply String.toList_inj.1
  simp only [below, written, String.toList_ofList, takeWhile_append_bracketedText hhead,
    dropWhile_append_bracketedText hhead]
  simp [renderPath, bracketed, bracketedText, String.toList_join, List.flatMap_map]

/-! ## Full paths -/

theorem tag_of_operationOf? {name : String} {op : Operation} (lower : lowerAscii name = name)
    (h : operationOf? (.field name) = some op) : op.tag = name := by
  have hsame : sameName op.tag name = true := by
    simpa using List.find?_some (p := fun op : Operation => sameName op.tag name) h
  rwa [sameName_iff, lowerAscii_tag, lower] at hsame

theorem full_ofSegments (head : Segment) {rest : List Segment}
    (lower : ∀ name, .field name ∈ rest → lowerAscii name = name) :
    (ofSegments head rest).full = head :: rest := by
  unfold ofSegments
  rcases List.eq_nil_or_concat rest with rfl | ⟨init, last, rfl⟩
  · simp
  · rw [List.concat_eq_append] at lower ⊢
    simp only [List.getLast?_append, List.getLast?_singleton, Option.some_or, Option.bind_some,
      List.dropLast_concat]
    cases hop : operationOf? last with
    | none => simp
    | some op =>
      cases last with
      | index position => cases hop
      | field name => simp [tag_of_operationOf? (lower name (by simp)) hop]

/-- A key with a head and bracketed parts has the segments of all of them as its full path. -/
theorem exists_parse?_written {head : List Char} {parts : List (List Char)}
    (isPart : ∀ part ∈ head :: parts, IsPart part) :
    ∃ key, parse? (written head parts) = some key ∧ key.full = (head :: parts).map segmentOf := by
  rw [List.forall_mem_cons] at isPart
  refine ⟨_, parse?_written isPart.1 isPart.2, ?_⟩
  rw [List.map_cons]
  refine full_ofSegments _ fun name hname => ?_
  obtain ⟨part, -, hpart⟩ := List.mem_map.1 hname
  exact lowerAscii_of_segmentOf hpart

/-- **A key that is moved below a path has the path in front of its full path.** -/
theorem exists_keys_below {base : Path} (nonempty : base ≠ [])
    (plain : ∀ segment ∈ base, segment.Plain) {raw : String} (wellFormed : WellFormed raw) :
    ∃ key key', parse? raw = some key ∧ parse? (below base raw) = some key' ∧
      key'.full = base ++ key.full := by
  obtain ⟨head, parts, isPart, rfl⟩ := wellFormed
  obtain ⟨key, hkey, hfull⟩ := exists_parse?_written isPart
  obtain ⟨first, rest, rfl⟩ := List.exists_cons_of_ne_nil nonempty
  have hmoved : ∀ part ∈ first.render.toList ::
      ((rest.map fun segment => segment.render.toList) ++ head :: parts), IsPart part := by
    rw [← List.cons_append, List.forall_mem_append, ← List.map_cons (f := fun segment : Segment =>
      segment.render.toList), List.forall_mem_map]
    exact ⟨fun segment hsegment => (segmentOf_render (plain segment hsegment)).1, isPart⟩
  obtain ⟨key', hkey', hfull'⟩ := exists_parse?_written hmoved
  refine ⟨key, key', hkey, ?_, ?_⟩
  · rw [below_written (List.forall_mem_cons.1 isPart).1, hkey']
  · have hbase : ((first :: rest).map fun segment => segmentOf segment.render.toList) =
        first :: rest := by
      conv_rhs => rw [← List.map_id (first :: rest)]
      refine List.map_congr_left fun segment hsegment => ?_
      exact (segmentOf_render (plain segment hsegment)).2
    rw [hfull', hfull, ← hbase]
    simp [Function.comp_def]

/-- **The full path of a key tells at which paths it stands**: at those that the full path starts
with, except for the full path itself if that spells an operation. -/
theorem Settled.isPrefix_segments_iff {key : Key} (settled : key.Settled) {path : Path} :
    path <+: key.segments ↔
      path <+: key.full ∧ (path = key.full → Query.asOperation? path = none) := by
  obtain ⟨segments, operation⟩ := key
  cases operation with
  | none =>
    rw [full_bare]
    exact ⟨fun h => ⟨h, fun heq => heq ▸ settled.bare rfl⟩, And.left⟩
  | some op =>
    rw [full_operation]
    have hspells := asOperation?_append_tag settled.nonempty op
    constructor
    · intro h
      refine ⟨h.trans (List.prefix_append _ _), fun heq => ?_⟩
      have := h.length_le
      rw [heq, List.length_append, List.length_singleton] at this
      exact absurd this (by simp)
    · rintro ⟨habove, hwhole⟩
      rcases List.prefix_concat_iff.1 habove with rfl | hshort
      · rw [hwhole rfl] at hspells
        cases hspells
      · exact hshort

end Key

/-! ## Values at full paths -/

namespace Query

/-- The values that a sequence of pairs gives for the key of a full path, in their order. -/
def valuesAt (pairs : List (String × String)) (full : Path) : List String :=
  (pairs.filter fun pair => (Key.parse? pair.1).map Key.full = some full).map Prod.snd

theorem mem_keys_ofPairs {pairs : List (String × String)} {key : Key} :
    key ∈ (ofPairs pairs).keys ↔ ∃ pair ∈ pairs, Key.parse? pair.1 = some key := by
  rw [← not_iff_not, ← find?_eq_none_iff, find?_ofPairs]
  simp only [joined, ite_eq_left_iff, reduceCtorEq, imp_false, not_not, valuesFor,
    List.map_eq_nil_iff, List.filter_eq_nil_iff, decide_eq_true_eq, not_exists, not_and]

theorem valuesFor_eq_valuesAt {key : Key} (settled : key.Settled) (pairs : List (String × String)) :
    valuesFor pairs key = valuesAt pairs key.full := by
  unfold valuesFor valuesAt
  refine congrArg (List.map Prod.snd) (List.filter_congr fun pair _ => decide_eq_decide.2 ?_)
  rw [Option.map_eq_some_iff]
  constructor
  · intro h
    exact ⟨key, h, rfl⟩
  · rintro ⟨other, hother, hfull⟩
    rw [hother, (Key.settled_of_parse? hother).ext settled hfull]

/-- **The value at a full path is what the pairs of that full path give together.** -/
theorem map_entryAt?_ofPairs (pairs : List (String × String)) (full : Path) :
    ((ofPairs pairs).entryAt? full).map Prod.snd = joined (valuesAt pairs full) := by
  have settled := settled_ofPairs pairs
  cases hentry : (ofPairs pairs).entryAt? full with
  | some entry =>
    obtain ⟨hmem, rfl⟩ := (entryAt?_eq_some_iff settled).1 hentry
    rw [← valuesFor_eq_valuesAt (settled _ (mem_keys_of_mem hmem)), ← find?_ofPairs,
      find?_eq_some_iff.2 hmem, Option.map_some]
  | none =>
    have hnone : valuesAt pairs full = [] := by
      unfold valuesAt
      rw [List.map_eq_nil_iff, List.filter_eq_nil_iff]
      intro pair hpair hfull
      obtain ⟨key, hkey, rfl⟩ := Option.map_eq_some_iff.1 (of_decide_eq_true hfull)
      obtain ⟨⟨_, value⟩, hmem, rfl⟩ := List.mem_map.1 (mem_keys_ofPairs.2 ⟨pair, hpair, hkey⟩)
      rw [(entryAt?_eq_some_iff settled).2 ⟨hmem, rfl⟩] at hentry
      cases hentry
    rw [hnone]
    rfl

/-- A lookup finds what the pairs of its full path give. -/
theorem get?_ofPairs (pairs : List (String × String)) (parent : Path) (name : String)
    (op : Option Operation) :
    (ofPairs pairs).get? (parent ++ [.named name]) op =
      joined (valuesAt pairs (Key.full ⟨parent ++ [.named name], op⟩)) := by
  rw [← map_entryAt?_ofPairs]
  cases op with
  | none => rw [Key.full_bare, get?_bare (settled_ofPairs pairs)]
  | some op => rw [Key.full_operation, get?_operation (settled_ofPairs pairs) (by simp)]

/-- A path is reached exactly if a full path of the pairs starts with it, which is not the path
itself if that spells an operation. -/
theorem reaches_ofPairs_iff {pairs : List (String × String)} {path : Path} :
    (ofPairs pairs).reaches path = true ↔ ∃ full, valuesAt pairs full ≠ [] ∧ path <+: full ∧
      (path = full → asOperation? path = none) := by
  have hvalues (full : Path) : valuesAt pairs full ≠ [] ↔
      ∃ pair ∈ pairs, ∃ key, Key.parse? pair.1 = some key ∧ key.full = full := by
    simp [valuesAt, Option.map_eq_some_iff]
  simp only [reaches_iff, mem_keys_ofPairs, hvalues]
  constructor
  · rintro ⟨key, ⟨pair, hpair, hkey⟩, hbelow⟩
    rw [(Key.settled_of_parse? hkey).isPrefix_segments_iff] at hbelow
    exact ⟨key.full, ⟨pair, hpair, key, hkey, rfl⟩, hbelow⟩
  · rintro ⟨_, ⟨pair, hpair, key, hkey, rfl⟩, hbelow⟩
    rw [← (Key.settled_of_parse? hkey).isPrefix_segments_iff] at hbelow
    exact ⟨key, ⟨pair, hpair, hkey⟩, hbelow⟩

end Query

end BracketFilter
