import BracketFilter.Proofs.KeysBelow
import Mathlib.Data.List.Dedup

/-!
# What a lookup finds

A bare path whose last field, behind others, is spelled like an operation has two readings: the key
of the path itself, and the key with the operation. Reading a text never gives the first, so that a
lookup has one key to find at most.

* `Operation.ofTag?_eq_some_iff` — a word names an operation exactly if it is its tag, apart from
  the case of letters.
* `Query.asOperation?_eq_none_iff` — the bare paths that have one reading only.

Principal results: `get?_of_asOperation?` — with the operation read off, the key of the path itself
is not there; `get?_full` — every key is found by the bare lookup of its full path;
`get?_finds_stored` — what lookups find in the request of a sequence of pairs.
-/

set_option autoImplicit false

namespace BracketFilter

open BracketFilter.Text

/-! ## Words that name an operation -/

theorem Operation.ofTag?_congr {word word' : String} (same : sameName word word' = true) :
    ofTag? word = ofTag? word' := by
  rw [sameName_iff] at same
  unfold ofTag? sameName
  rw [same]

/-- **A word names an operation exactly if it is its tag**, apart from the case of letters. -/
theorem Operation.ofTag?_eq_some_iff {word : String} {op : Operation} :
    ofTag? word = some op ↔ sameName op.tag word = true := by
  constructor
  · intro h
    simpa using List.find?_some (p := fun op : Operation => sameName op.tag word) h
  · intro same
    rw [← ofTag?_congr same]
    exact ofTag?_tag op

namespace Query

/-! ## The readings of a bare path -/

/-- Behind other segments, a field that is spelled like an operation is read as it. -/
theorem asOperation?_concat {parent : Path} (nonempty : parent ≠ []) {name : String}
    {op : Operation} (tag : sameName op.tag name = true) :
    asOperation? (parent ++ [.field name]) = some ⟨parent, some op⟩ := by
  have hop : Key.operationOf? (.field name) = some op := Operation.ofTag?_eq_some_iff.2 tag
  simp only [asOperation?, List.getLast?_append, List.getLast?_singleton, Option.some_or,
    List.dropLast_concat, if_neg nonempty, hop, Option.map_some]

theorem exists_of_asOperation?_eq_some {path : Path} {key : Key}
    (h : asOperation? path = some key) :
    ∃ parent name op, parent ≠ [] ∧ sameName op.tag name = true ∧
      path = parent ++ [.field name] ∧ key = ⟨parent, some op⟩ := by
  unfold asOperation? at h
  split at h
  · rename_i last hlast
    split at h
    · cases h
    · rename_i hparent
      obtain ⟨op, hop, rfl⟩ := Option.map_eq_some_iff.1 h
      cases last with
      | index position => cases hop
      | field name =>
        have hpath : path = path.dropLast ++ [.field name] :=
          (List.dropLast_append_getLast? _ hlast).symm
        exact ⟨_, name, op, hparent, Operation.ofTag?_eq_some_iff.1 hop, hpath, rfl⟩
  · cases h

/-- **A bare path stands for itself alone exactly if no field behind others ends it that is spelled
like an operation.** -/
theorem asOperation?_eq_none_iff {path : Path} :
    asOperation? path = none ↔ path.length ≤ 1 ∨
      ∀ name, path.getLast? = some (.field name) → ∀ op : Operation,
        sameName op.tag name = false := by
  constructor
  · intro h
    rw [Classical.or_iff_not_imp_left]
    intro hlong name hlast op
    rw [Bool.eq_false_iff]
    intro tag
    have hpath : path.dropLast ++ [.field name] = path := List.dropLast_append_getLast? _ hlast
    have hparent : path.dropLast ≠ [] := by
      intro hnil
      rw [hnil] at hpath
      rw [← hpath] at hlong
      simp at hlong
    rw [← hpath, asOperation?_concat hparent tag] at h
    cases h
  · intro h
    rw [Option.eq_none_iff_forall_ne_some]
    intro key hkey
    obtain ⟨parent, name, op, hparent, tag, rfl, -⟩ := exists_of_asOperation?_eq_some hkey
    rcases h with hshort | hfree
    · have := List.length_pos_of_ne_nil hparent
      simp only [List.length_append, List.length_singleton] at hshort
      omega
    · rw [hfree name (by simp) op] at tag
      cases tag

/-! ## Lookups -/

section Lookups

variable {q : Query}

/-- With an operation, a lookup finds its own key. -/
theorem get?_some (path : Path) (op : Operation) :
    q.get? path (some op) = q.find? ⟨path, some op⟩ := by
  unfold get?
  cases q.find? ⟨path, some op⟩ <;> rfl

/-- The lookup of a path that stands for itself alone finds the key of the path. -/
theorem get?_of_asOperation?_eq_none {path : Path} (alone : asOperation? path = none) :
    q.get? path none = q.find? ⟨path, none⟩ := by
  unfold get?
  cases q.find? ⟨path, none⟩ with
  | none => simp only [alone, Option.bind_none]
  | some value => rfl

/-- **Where a path is read as an operation, the key of the path itself is not there**, and the
lookup finds the key with the operation. -/
theorem get?_of_asOperation? (settled : q.Settled) {path : Path} {key : Key}
    (h : asOperation? path = some key) :
    q.find? ⟨path, none⟩ = none ∧ q.get? path none = q.find? key := by
  have habsent : q.find? ⟨path, none⟩ = none := by
    rw [find?_eq_none_iff]
    intro hmem
    have halone := (settled _ hmem).bare rfl
    rw [h] at halone
    cases halone
  refine ⟨habsent, ?_⟩
  simp only [get?, habsent, h, Option.bind_some]

/-- **Every key is found by the bare lookup of its full path.** -/
theorem get?_full (settled : q.Settled) {key : Key} (hkey : key.Settled) :
    q.get? key.full none = q.find? key := by
  obtain ⟨path, operation⟩ := key
  cases operation with
  | none =>
    rw [Key.full_bare]
    exact get?_of_asOperation?_eq_none (hkey.bare rfl)
  | some op =>
    rw [Key.full_operation]
    exact (get?_of_asOperation? settled (Key.asOperation?_append_tag hkey.nonempty op)).2

end Lookups

/-! ## The request of a sequence of pairs -/

theorem mem_valuesFor {pairs : List (String × String)} {pair : String × String} {key : Key}
    (hpair : pair ∈ pairs) (hkey : Key.parse? pair.1 = some key) :
    pair.2 ∈ valuesFor pairs key := by
  unfold valuesFor
  refine List.mem_map_of_mem ?_
  rw [List.mem_filter]
  exact ⟨hpair, decide_eq_true hkey⟩

/-- The keys of a sequence of pairs, each once, are those of its request. -/
theorem size_ofPairs (pairs : List (String × String)) :
    (ofPairs pairs).size = (pairs.filterMap fun pair => Key.parse? pair.1).dedup.length := by
  have hperm : (ofPairs pairs).keys.Perm
      (pairs.filterMap fun pair => Key.parse? pair.1).dedup := by
    refine (List.perm_ext_iff_of_nodup (ofPairs pairs).nodup (List.nodup_dedup _)).2 fun key => ?_
    rw [List.mem_dedup, List.mem_filterMap]
    exact mem_keys_ofPairs
  have hlength := hperm.length_eq
  unfold keys at hlength
  rw [List.length_map] at hlength
  exact hlength

/-- **Lookups find every stored value under each of its readings, and nothing else.** With an
operation, a lookup finds the values of its own key; a bare lookup finds those of the path, or,
where its last field behind others is spelled like an operation, those of the key with the
operation, and the key of the path is not there. So the bare lookup of a key's full path finds its
values; and there are as many keys as the pairs have between them. -/
theorem get?_finds_stored (pairs : List (String × String)) :
    (∀ path op, (ofPairs pairs).get? path (some op) =
      joined (valuesFor pairs ⟨path, some op⟩)) ∧
    (∀ path : Path, (path.length = 1 ∨ ∀ name, path.getLast? = some (.field name) →
        ∀ op : Operation, sameName op.tag name = false) →
      (ofPairs pairs).get? path none = joined (valuesFor pairs ⟨path, none⟩)) ∧
    (∀ parent name (op : Operation), parent ≠ [] → sameName op.tag name = true →
      (ofPairs pairs).find? ⟨parent ++ [.field name], none⟩ = none ∧
      (ofPairs pairs).get? (parent ++ [.field name]) none =
        (ofPairs pairs).get? parent (some op)) ∧
    (∀ raw key, Key.parse? raw = some key →
      (ofPairs pairs).get? key.full none = joined (valuesFor pairs key)) ∧
    (∀ pair ∈ pairs, ∀ key, Key.parse? pair.1 = some key →
      pair.2 ∈ valuesFor pairs key ∧
      (ofPairs pairs).get? key.full none = some (",".intercalate (valuesFor pairs key))) ∧
    (ofPairs pairs).size = (pairs.filterMap fun pair => Key.parse? pair.1).dedup.length := by
  have settled := settled_ofPairs pairs
  have hfull (raw : String) (key : Key) (hkey : Key.parse? raw = some key) :
      (ofPairs pairs).get? key.full none = joined (valuesFor pairs key) := by
    rw [get?_full settled (Key.settled_of_parse? hkey), find?_ofPairs]
  refine ⟨fun path op => ?_, fun path halone => ?_, fun parent name op nonempty tag => ?_, hfull,
    fun pair hpair key hkey => ?_, size_ofPairs pairs⟩
  · rw [get?_some, find?_ofPairs]
  · have hnone : asOperation? path = none :=
      asOperation?_eq_none_iff.2 (halone.imp_left fun hlength => Nat.le_of_eq hlength)
    rw [get?_of_asOperation?_eq_none hnone, find?_ofPairs]
  · obtain ⟨habsent, hget⟩ := get?_of_asOperation? settled (asOperation?_concat nonempty tag)
    refine ⟨habsent, ?_⟩
    rw [hget, get?_some]
  · have hmem := mem_valuesFor hpair hkey
    refine ⟨hmem, ?_⟩
    rw [hfull _ _ hkey, joined, if_neg (List.ne_nil_of_mem hmem)]

/-- Values of one key in two spellings, a field that is spelled like an operation, a head that is,
and text that is no key. -/
def documentPairs : List (String × String) :=
  [("tags[in]", "a"), ("doc[new]", "x"), ("eq", "y"), ("age[", "?"), ("TAGS[IN]", "b")]

theorem get?_finds_stored_documents :
    (ofPairs documentPairs).get? [.field "tags"] (some .inside) = some "a,b" ∧
      (ofPairs documentPairs).get? [.field "eq"] none = some "y" ∧
      (ofPairs documentPairs).get? [.field "doc", .field "NEW"] none = some "x" ∧
      (ofPairs documentPairs).get? [.field "tags", .field "in"] none = some "a,b" ∧
      (ofPairs documentPairs).size = 3 := by
  obtain ⟨hoperation, hbare, htag, hfull, -, hsize⟩ := get?_finds_stored documentPairs
  have hkey : Key.parse? "Tags[In]" = some ⟨[.field "tags"], some .inside⟩ := by decide +kernel
  have hdoc : (ofPairs documentPairs).get? [.field "doc", .field "NEW"] none =
      (ofPairs documentPairs).get? [.field "doc"] (some .notEndsWith) :=
    (htag [.field "doc"] "NEW" .notEndsWith (by decide) (by decide)).2
  have htags : (ofPairs documentPairs).get? [.field "tags", .field "in"] none =
      joined (valuesFor documentPairs ⟨[.field "tags"], some .inside⟩) := hfull _ _ hkey
  refine ⟨?_, ?_, ?_, ?_, ?_⟩
  · rw [hoperation]
    decide +kernel
  · rw [hbare _ (.inl rfl)]
    decide +kernel
  · rw [hdoc, hoperation]
    decide +kernel
  · rw [htags]
    decide +kernel
  · rw [hsize]
    decide +kernel

end Query

end BracketFilter
