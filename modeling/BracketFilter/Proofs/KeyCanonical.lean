import BracketFilter.Proofs.KeyGrammar

/-!
# Keys that are read back from their own text

* `Segment.Canonical`, `Key.Canonical` — the segments and the keys that reading a text can give.
* `Key.renderedParts` — the head and the bracketed parts that a key is written with.

Principal results: `canonical_of_reads` — a key that is read from a text is canonical;
`parse?_render_of_canonical` — a canonical key is read back from its own text;
`parse?_render_iff_canonical` — no other key is, and no two canonical keys have one text.
-/

set_option autoImplicit false

namespace BracketFilter

open BracketFilter.Text

/-! ## Canonical keys -/

/-- A segment that reading a text can give: a field with a name in lower case, non-empty, free of
brackets and not the numeral of an index; or an index below the bound. -/
def Segment.Canonical : Segment → Prop
  | .field name =>
    name ≠ "" ∧ (∀ c ∈ name.toList, c ≠ '[' ∧ c ≠ ']') ∧ (∀ c ∈ name.toList, c.isUpper = false) ∧
      ∀ n < indexBound, ¬ NumeralOf n name.toList
  | .index position => position < indexBound

/-- A key that reading a text can give. Without an operation, a field behind the head is not spelled
like one at the end. -/
structure Key.Canonical (key : Key) : Prop where
  nonempty : key.segments ≠ []
  segments : ∀ segment ∈ key.segments, segment.Canonical
  noTag : key.operation = none → 2 ≤ key.segments.length →
    ∀ name, key.segments.getLast? = some (.field name) → ∀ op : Operation,
      sameName op.tag name = false

/-! ## Segments -/

theorem Text.toLower_eq_self_iff {c : Char} : c.toLower = c ↔ c.isUpper = false := by
  have hupper : c.isUpper = true ↔ 65 ≤ c.toNat ∧ c.toNat ≤ 90 := by
    unfold Char.isUpper
    rw [decide_eq_true_eq]
    exact Iff.rfl
  rw [← Char.toNat_inj, toNat_toLower, ← Bool.not_eq_true, hupper]
  split
  · rename_i h
    constructor
    · intro hsame
      omega
    · intro hnot
      exact absurd h hnot
  · rename_i h
    exact ⟨fun _ => h, fun _ => rfl⟩

theorem Text.lowerAscii_eq_self_iff {name : String} :
    lowerAscii name = name ↔ ∀ c ∈ name.toList, c.isUpper = false := by
  rw [← String.toList_inj, toList_lowerAscii]
  have heach : name.toList.map Char.toLower = name.toList ↔
      ∀ c ∈ name.toList, c.toLower = c := by
    conv_lhs => rhs; rw [← List.map_id name.toList]
    rw [List.map_inj_left]
    exact Iff.rfl
  rw [heach]
  simp only [toLower_eq_self_iff]

namespace Key

theorem isPart_toList_iff {name : String} :
    IsPart name.toList ↔ name ≠ "" ∧ ∀ c ∈ name.toList, c ≠ '[' ∧ c ≠ ']' := by
  have hempty : name.toList ≠ [] ↔ name ≠ "" := by
    rw [ne_eq, ne_eq, String.toList_eq_nil_iff]
  have hfree (c : Char) : isBracket c = false ↔ c ≠ '[' ∧ c ≠ ']' := by
    unfold isBracket
    rw [Bool.or_eq_false_iff, beq_eq_false_iff_ne, beq_eq_false_iff_ne]
  constructor
  · intro h
    exact ⟨hempty.1 h.nonempty, fun c hc => (hfree c).1 (h.free c hc)⟩
  · rintro ⟨hnonempty, hbrackets⟩
    exact ⟨hempty.2 hnonempty, fun c hc => (hfree c).2 (hbrackets c hc)⟩

theorem canonical_of_denotes {part : List Char} {segment : Segment} (isPart : IsPart part)
    (h : Denotes part segment) : segment.Canonical := by
  cases h with
  | index numeral fits => exact fits
  | field noIndex =>
    have hname : (lowerAscii (String.ofList part)).toList = part.map Char.toLower := by
      rw [toList_lowerAscii, String.toList_ofList]
    have hlower : IsPart (lowerAscii (String.ofList part)).toList := by
      rw [hname]
      exact isPart_map_toLower.2 isPart
    obtain ⟨hnonempty, hbrackets⟩ := isPart_toList_iff.1 hlower
    refine ⟨hnonempty, hbrackets, ?_, ?_⟩
    · exact lowerAscii_eq_self_iff.1 (lowerAscii_lowerAscii _)
    · intro n hn hnumeral
      rw [hname] at hnumeral
      exact noIndex n hn (numeralOf_map_toLower.1 hnumeral)

/-- A canonical segment is a part, and denotes itself. -/
theorem denotes_render {segment : Segment} (h : segment.Canonical) :
    IsPart segment.render.toList ∧ Denotes segment.render.toList segment := by
  cases segment with
  | field name =>
    obtain ⟨hnonempty, hbrackets, hlower, hnoIndex⟩ := h
    refine ⟨isPart_toList_iff.2 ⟨hnonempty, hbrackets⟩, ?_⟩
    have hself : lowerAscii (String.ofList name.toList) = name := by
      rw [String.ofList_toList]
      exact lowerAscii_eq_self_iff.2 hlower
    have hdenotes : Denotes name.toList (.field (lowerAscii (String.ofList name.toList))) :=
      .field hnoIndex
    rwa [hself] at hdenotes
  | index position =>
    have hnumeral : NumeralOf position (Segment.index position).render.toList := by
      refine ⟨0, ?_⟩
      simp [Segment.render]
    obtain ⟨hnonempty, hdigits⟩ := hnumeral.digits
    exact ⟨⟨hnonempty, fun c hc => isBracket_of_isDigit (hdigits c hc)⟩, .index hnumeral h⟩

/-! ## Keys -/

theorem spellsTag_toList_iff {name : String} {op : Operation} :
    SpellsTag name.toList op ↔ sameName op.tag name = true := by
  unfold SpellsTag
  rw [String.ofList_toList, sameName_iff, lowerAscii_tag, eq_comm]

/-- **A key that is read from a text is canonical.** -/
theorem canonical_of_reads {head : List Char} {parts : List (List Char)} {key : Key}
    (isPart : ∀ part ∈ head :: parts, IsPart part) (h : Reads head parts key) : key.Canonical := by
  have each {parts : List (List Char)} {segments : Path}
      (isPart : ∀ part ∈ parts, IsPart part) (h : List.Forall₂ Denotes parts segments) :
      ∀ segment ∈ segments, segment.Canonical := by
    intro segment hsegment
    obtain ⟨part, hpart, hdenotes⟩ := exists_of_mem_forall₂ h.flip hsegment
    exact canonical_of_denotes (isPart part hpart) hdenotes
  have nonempty {parts : List (List Char)} {segments : Path}
      (h : List.Forall₂ Denotes (head :: parts) segments) : segments ≠ [] := by
    rintro rfl
    cases h
  cases h with
  | @bare _ segments hdenotes noTag =>
    refine ⟨nonempty hdenotes, each isPart hdenotes, fun _ hlong name hlast op => ?_⟩
    obtain ⟨first, rest, -, hrest, rfl⟩ := List.forall₂_cons_left_iff.1 hdenotes
    rw [forall₂_denotes_iff] at hrest
    have hrest_ne : rest ≠ [] := by
      rintro rfl
      simp at hlong
    rw [List.getLast?_cons_of_ne_nil hrest_ne, ← hrest, List.getLast?_map,
      Option.map_eq_some_iff] at hlast
    obtain ⟨last, hlast, hsegment⟩ := hlast
    rw [Bool.eq_false_iff]
    intro hsame
    -- The last part denotes a field of this name, so that it would spell the operation.
    refine noTag last hlast op (operationOf?_segmentOf_iff.1 ?_)
    rw [hsegment]
    have hlower : lowerAscii name = name := lowerAscii_of_segmentOf hsegment
    rw [sameName_iff, lowerAscii_tag, hlower] at hsame
    rw [← hsame]
    exact Operation.ofTag?_tag op
  | operation hdenotes tag =>
    have hisPart := isPart
    rw [← List.cons_append, List.forall_mem_append] at hisPart
    exact ⟨nonempty hdenotes, each hisPart.1 hdenotes, fun hop => nomatch hop⟩

/-- The bracketed parts that a key is written with: its segments behind the head, and the tag of its
operation. -/
def renderedParts (rest : Path) (operation : Option Operation) : List (List Char) :=
  rest.map (fun segment => segment.render.toList) ++
    operation.toList.map fun op => op.tag.toList

theorem render_eq_written (head : Segment) (rest : Path) (operation : Option Operation) :
    render ⟨head :: rest, operation⟩ =
      written head.render.toList (renderedParts rest operation) := by
  apply String.toList_inj.1
  unfold render written renderedParts
  cases operation with
  | none => simp [renderPath, bracketed, bracketedText, String.toList_join, List.flatMap_map]
  | some op => simp [renderPath, bracketed, bracketedText, String.toList_join, List.flatMap_map]

theorem isPart_tag (op : Operation) : IsPart op.tag.toList := by
  cases op <;> decide

/-- The parts that a canonical key is written with stand for it. -/
theorem reads_renderedParts {head : Segment} {rest : Path} {operation : Option Operation}
    (h : Canonical ⟨head :: rest, operation⟩) :
    (∀ part ∈ head.render.toList :: renderedParts rest operation, IsPart part) ∧
      Reads head.render.toList (renderedParts rest operation) ⟨head :: rest, operation⟩ := by
  have hsegments : ∀ segment ∈ head :: rest, IsPart segment.render.toList ∧
      Denotes segment.render.toList segment :=
    fun segment hsegment => denotes_render (h.segments segment hsegment)
  have hdenotes : List.Forall₂ Denotes
      (head.render.toList :: rest.map fun segment => segment.render.toList) (head :: rest) := by
    rw [← List.map_cons (f := fun segment : Segment => segment.render.toList),
      List.forall₂_map_left_iff, List.forall₂_same]
    exact fun segment hsegment => (hsegments segment hsegment).2
  constructor
  · intro part hpart
    unfold renderedParts at hpart
    rw [List.mem_cons, List.mem_append, List.mem_map, List.mem_map] at hpart
    rcases hpart with rfl | ⟨segment, hsegment, rfl⟩ | ⟨op, -, rfl⟩
    · exact (hsegments head List.mem_cons_self).1
    · exact (hsegments segment (List.mem_cons_of_mem _ hsegment)).1
    · exact isPart_tag op
  · cases operation with
    | some op =>
      refine .operation hdenotes ?_
      exact spellsTag_toList_iff.2 (sameName_iff.2 rfl)
    | none =>
      unfold renderedParts
      rw [Option.toList_none, List.map_nil, List.append_nil]
      -- The last part is no tag: indices never are, and a canonical bare key ends in no such name.
      refine .bare hdenotes fun last hlast op htag => ?_
      rw [List.getLast?_map, Option.map_eq_some_iff] at hlast
      obtain ⟨segment, hsegment, rfl⟩ := hlast
      have hmem : segment ∈ rest := List.mem_of_getLast? hsegment
      cases segment with
      | index position =>
        refine not_numeralOf_of_spellsTag htag position ⟨0, ?_⟩
        simp [Segment.render]
      | field name =>
        have hlong : 2 ≤ (head :: rest).length := by
          have := List.length_pos_of_mem hmem
          rw [List.length_cons]
          omega
        have hlast : (head :: rest).getLast? = some (.field name) := by
          rw [List.getLast?_cons_of_ne_nil (List.ne_nil_of_mem hmem), hsegment]
        have hfree := h.noTag rfl hlong name hlast op
        have hspelled : sameName op.tag name = true := spellsTag_toList_iff.1 htag
        rw [hspelled] at hfree
        cases hfree

/-- **A canonical key is read back from its own text.** -/
theorem parse?_render_of_canonical {key : Key} (h : key.Canonical) :
    parse? key.render = some key := by
  obtain ⟨segments, operation⟩ := key
  obtain ⟨head, rest, rfl⟩ := List.exists_cons_of_ne_nil h.nonempty
  obtain ⟨hisPart, hreads⟩ := reads_renderedParts h
  rw [render_eq_written]
  exact (parse?_written_iff hisPart).2 hreads

theorem canonical_of_parse? {raw : String} {key : Key} (h : parse? raw = some key) :
    key.Canonical := by
  obtain ⟨head, parts, -, hisPart, hreads⟩ := parse?_eq_some_iff.1 h
  exact canonical_of_reads hisPart hreads

/-- **A key is read back from its own text exactly if it is canonical.** Reading gives canonical
keys only, so that the text of a key that was read is read as that key again, and canonical keys
that differ have different texts. -/
theorem parse?_render_iff_canonical :
    (∀ key : Key, parse? key.render = some key ↔ key.Canonical) ∧
    (∀ raw key, parse? raw = some key → key.Canonical ∧ parse? key.render = some key) ∧
    ∀ key key' : Key, key.Canonical → key'.Canonical → key ≠ key' → key.render ≠ key'.render := by
  refine ⟨fun key => ⟨canonical_of_parse?, parse?_render_of_canonical⟩, ?_, ?_⟩
  · intro raw key hkey
    have hcanonical := canonical_of_parse? hkey
    exact ⟨hcanonical, parse?_render_of_canonical hcanonical⟩
  · intro key key' hkey hkey' hne hsame
    have hread := parse?_render_of_canonical hkey
    rw [hsame, parse?_render_of_canonical hkey'] at hread
    exact hne (Option.some.inj hread).symm

/-- A field behind the head that is spelled with the digits of a number beyond the indices. -/
def longRunKey : Key := ⟨[.field "items", .field "18446744073709551616"], none⟩

/-- A head that is spelled like an operation. -/
def tagHeadKey : Key := ⟨[.field "eq"], some .eq⟩

theorem parse?_render_iff_canonical_runs :
    longRunKey.Canonical ∧ tagHeadKey.Canonical ∧ longRunKey ≠ tagHeadKey ∧
      longRunKey.render ≠ tagHeadKey.render ∧
      ¬ Canonical ⟨[.field "items", .field "eq"], none⟩ ∧
      ∃ key, parse? "Items[0042]" = some key ∧ key.render = "items[42]" ∧ key.Canonical ∧
        parse? key.render = some key := by
  have hlong : longRunKey.Canonical :=
    (parse?_render_iff_canonical.1 longRunKey).1 (by decide +kernel)
  have htag : tagHeadKey.Canonical :=
    (parse?_render_iff_canonical.1 tagHeadKey).1 (by decide +kernel)
  have hne : longRunKey ≠ tagHeadKey := by decide
  have hother : ¬ Canonical ⟨[.field "items", .field "eq"], none⟩ := by
    rw [← parse?_render_iff_canonical.1]
    decide +kernel
  have hread : parse? "Items[0042]" = some ⟨[.field "items", .index 42], none⟩ := by
    decide +kernel
  obtain ⟨hcanonical, hback⟩ := parse?_render_iff_canonical.2.1 _ _ hread
  have hrender : render ⟨[.field "items", .index 42], none⟩ = "items[42]" := by decide +kernel
  exact ⟨hlong, htag, hne, parse?_render_iff_canonical.2.2 _ _ hlong htag hne, hother, _, hread,
    hrender, hcanonical, hback⟩

end Key

end BracketFilter
