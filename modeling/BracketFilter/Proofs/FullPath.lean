import BracketFilter.Query
import Mathlib.Data.List.FinRange
import Mathlib.Data.List.TakeWhile

/-!
# Keys by their full path

The full path of a key is its path with the tag of its operation, if it has one, as a last field.

* `Key.Settled` — the keys that reading a text can give: a bare key does not end in a tag, unless it
  is a single segment.
* `Key.Settled.ext` — a settled key is determined by its full path.
* `Query.entryAt?` — the entry of a query whose key has a full path.

Principal results: `get?_operation` and `get?_bare` — both ways of looking up a value find the
entry of one full path, so that the reading of the last field as an operation changes nothing;
`lt_listLength_iff` — an index belongs to a list exactly if some key reaches it and every index
before it.
-/

set_option autoImplicit false

namespace BracketFilter

open BracketFilter.Text

/-! ## Full paths -/

namespace Key

/-- The path of a key with the tag of its operation as a last field. -/
def full (key : Key) : Path := key.segments ++ key.operation.toList.map fun op => .field op.tag

@[simp] theorem full_bare (path : Path) : full ⟨path, none⟩ = path := by simp [full]

@[simp] theorem full_operation (path : Path) (op : Operation) :
    full ⟨path, some op⟩ = path ++ [.field op.tag] := by simp [full]

theorem isPrefix_segments {key : Key} {path rest : Path} {segment : Segment}
    (h : key.full = path ++ segment :: rest) : path <+: key.segments := by
  obtain ⟨segments, operation⟩ := key
  cases operation with
  | none =>
    rw [full_bare] at h
    exact ⟨segment :: rest, h.symm⟩
  | some op =>
    rw [full_operation] at h
    rcases List.eq_nil_or_concat rest with rfl | ⟨init, last, rfl⟩
    · have := (List.append_inj' h rfl).1
      exact this ▸ List.prefix_rfl
    · have h' : segments ++ [.field op.tag] = (path ++ segment :: init) ++ [last] := by
        rw [h, List.concat_eq_append, List.append_assoc, List.cons_append]
      exact ⟨segment :: init, (List.append_inj' h' rfl).1.symm⟩

/-- A key that has segments, and that no bare path stands for as an operation. -/
structure Settled (key : Key) : Prop where
  nonempty : key.segments ≠ []
  bare : key.operation = none → Query.asOperation? key.segments = none

/-- A path whose last field spells an operation stands for the key with that operation. -/
theorem asOperation?_append_tag {parent : Path} (h : parent ≠ []) (op : Operation) :
    Query.asOperation? (parent ++ [.field op.tag]) = some ⟨parent, some op⟩ := by
  simp [Query.asOperation?, h, operationOf?, Operation.ofTag?_tag]

theorem lowerAscii_tag (op : Operation) : lowerAscii op.tag = op.tag := by cases op <;> decide

/-- The key with an operation that a path with a declared name at its end stands for has that path
as its full path. -/
theorem full_of_asOperation?_named {parent : Path} {name : String} {key : Key}
    (h : Query.asOperation? (parent ++ [.named name]) = some key) :
    key.full = parent ++ [.named name] := by
  simp only [Query.asOperation?, List.getLast?_append, List.getLast?_singleton, Option.some_or,
    List.dropLast_concat] at h
  split at h
  · cases h
  · obtain ⟨op, hop, rfl⟩ := Option.map_eq_some_iff.1 h
    have hsame : sameName op.tag (lowerAscii name) = true := by
      simpa using List.find?_some (p := fun op : Operation => sameName op.tag (lowerAscii name)) hop
    rw [sameName_iff, lowerAscii_tag, lowerAscii_lowerAscii] at hsame
    rw [full_operation, hsame]
    rfl

/-- **A settled key is determined by its full path.** -/
theorem Settled.ext {a b : Key} (ha : a.Settled) (hb : b.Settled) (h : a.full = b.full) :
    a = b := by
  obtain ⟨as, ao⟩ := a
  obtain ⟨bs, bo⟩ := b
  cases ao with
  | none =>
    cases bo with
    | none => simpa using h
    | some op =>
      have habs := ha.bare rfl
      rw [full_bare, full_operation] at h
      rw [show as = bs ++ [.field op.tag] from h, asOperation?_append_tag hb.nonempty] at habs
      cases habs
  | some op =>
    cases bo with
    | none =>
      have habs := hb.bare rfl
      rw [full_bare, full_operation] at h
      rw [show bs = as ++ [.field op.tag] from h.symm, asOperation?_append_tag ha.nonempty] at habs
      cases habs
    | some op' =>
      rw [full_operation, full_operation] at h
      obtain ⟨hsegments, htag⟩ := List.append_inj' h rfl
      have hop : Operation.ofTag? op.tag = Operation.ofTag? op'.tag := by
        simp only [List.cons.injEq, Segment.field.injEq, and_true] at htag
        rw [htag]
      rw [Operation.ofTag?_tag, Operation.ofTag?_tag, Option.some.injEq] at hop
      rw [hsegments, hop]

theorem settled_of_parse? {raw : String} {key : Key} (h : parse? raw = some key) :
    key.Settled := by
  obtain ⟨⟨head, parts⟩, -, hkey⟩ := Option.map_eq_some_iff.1 h
  simp only [ofSegments] at hkey
  split at hkey <;> subst hkey
  · exact ⟨by simp, by simp⟩
  · rename_i hnone
    refine ⟨by simp, fun _ => ?_⟩
    rcases List.eq_nil_or_concat (parts.map Segment.classify) with hnil | ⟨init, last, hlast⟩
    · simp [hnil, Query.asOperation?]
    · rw [hlast, List.concat_eq_append] at hnone ⊢
      simp only [List.getLast?_append, List.getLast?_singleton, Option.some_or,
        Option.bind_some] at hnone
      simp only [Query.asOperation?, ← List.cons_append, List.getLast?_append,
        List.getLast?_singleton, Option.some_or, List.dropLast_concat, List.cons_ne_nil, if_false,
        hnone, Option.map_none]

end Key

/-! ## Looking up full paths -/

namespace Query

/-- Every key of the query can be read from a text. -/
def Settled (q : Query) : Prop := ∀ key ∈ q.keys, key.Settled

theorem settled_empty : empty.Settled := by
  intro key hkey
  cases hkey

theorem Settled.insertRaw {q : Query} (h : q.Settled) (pair : String × String) :
    (q.insertRaw pair).Settled := by
  unfold Query.insertRaw
  split
  · rename_i key hkey
    intro k hk
    rcases mem_keys_insert.1 hk with rfl | hk
    · exact Key.settled_of_parse? hkey
    · exact h k hk
  · exact h

/-- **The keys of a query that is built from texts are settled.** -/
theorem settled_ofPairs (pairs : List (String × String)) : (ofPairs pairs).Settled := by
  unfold ofPairs
  suffices ∀ (ps : List (String × String)) (q : Query), q.Settled →
      (ps.foldl insertRaw q).Settled from this pairs empty settled_empty
  intro ps
  induction ps with
  | nil => intro q hq; exact hq
  | cons pair ps ih => intro q hq; exact ih _ (hq.insertRaw pair)

theorem mem_keys_of_mem {q : Query} {key : Key} {value : String} (h : (key, value) ∈ q.entries) :
    key ∈ q.keys := List.mem_map_of_mem h

theorem find?_eq_some_iff {q : Query} {key : Key} {value : String} :
    q.find? key = some value ↔ (key, value) ∈ q.entries := by
  unfold find?
  obtain ⟨entries, nodup⟩ := q
  simp only
  induction entries with
  | nil => simp
  | cons entry rest ih =>
    obtain ⟨k, v⟩ := entry
    simp only [List.map_cons, List.nodup_cons] at nodup
    have ih := ih nodup.2
    by_cases hk : key = k
    · subst hk
      have hrest : (key, value) ∉ rest := fun hmem => nodup.1 (List.mem_map_of_mem hmem)
      simp only [List.lookup_cons_self, Option.some.injEq, List.mem_cons, Prod.mk.injEq, true_and,
        hrest, or_false]
      exact eq_comm
    · have hbeq : (key == k) = false := by simpa using hk
      simp only [List.lookup_cons, hbeq, List.mem_cons, Prod.mk.injEq, hk, false_and, false_or, ih]

theorem find?_eq_none_iff {q : Query} {key : Key} : q.find? key = none ↔ key ∉ q.keys := by
  rw [Option.eq_none_iff_forall_ne_some]
  simp only [ne_eq, find?_eq_some_iff, keys, List.mem_map, Prod.exists, exists_and_right,
    exists_eq_right, not_exists]

/-- The entry whose key has a full path. -/
def entryAt? (q : Query) (full : Path) : Option (Key × String) :=
  q.entries.find? fun entry => entry.1.full = full

theorem entryAt?_eq_some_iff {q : Query} (settled : q.Settled) {full : Path}
    {entry : Key × String} :
    q.entryAt? full = some entry ↔ entry ∈ q.entries ∧ entry.1.full = full := by
  unfold entryAt?
  constructor
  · intro h
    exact ⟨List.mem_of_find?_eq_some h, by simpa using List.find?_some h⟩
  · rintro ⟨hmem, hfull⟩
    cases hfound : q.entries.find? fun entry => entry.1.full = full with
    | none =>
      rw [List.find?_eq_none] at hfound
      simpa [hfull] using hfound entry hmem
    | some other =>
      have hother := List.mem_of_find?_eq_some hfound
      have hsame : other.1 = entry.1 := by
        refine (settled _ (mem_keys_of_mem hother)).ext (settled _ (mem_keys_of_mem hmem)) ?_
        rw [hfull]
        simpa using List.find?_some hfound
      have hvalue : other.2 = entry.2 := by
        have h₁ := find?_eq_some_iff.2 hother
        rw [hsame, find?_eq_some_iff.2 hmem] at h₁
        exact (Option.some.inj h₁).symm
      rw [Prod.ext hsame hvalue]

/-- A value is looked up with an operation behind the path that ends in its tag. -/
theorem get?_operation {q : Query} (settled : q.Settled) {path : Path} (hpath : path ≠ [])
    (op : Operation) :
    q.get? path (some op) = (q.entryAt? (path ++ [.field op.tag])).map Prod.snd := by
  have hget : q.get? path (some op) = q.find? ⟨path, some op⟩ := by
    unfold get?
    cases q.find? ⟨path, some op⟩ <;> rfl
  rw [hget]
  apply Option.ext
  intro value
  rw [find?_eq_some_iff, Option.map_eq_some_iff]
  constructor
  · intro hmem
    exact ⟨_, (entryAt?_eq_some_iff settled).2 ⟨hmem, Key.full_operation path op⟩, rfl⟩
  · rintro ⟨⟨key, v⟩, hentry, rfl⟩
    obtain ⟨hmem, hfull⟩ := (entryAt?_eq_some_iff settled).1 hentry
    have hkey : key = ⟨path, some op⟩ :=
      (settled _ (mem_keys_of_mem hmem)).ext ⟨hpath, by simp⟩ (by rw [hfull, Key.full_operation])
    exact hkey ▸ hmem

/-- A bare value is looked up at its path, whichever of the two keys is there. -/
theorem get?_bare {q : Query} (settled : q.Settled) (parent : Path) (name : String) :
    q.get? (parent ++ [.named name]) none =
      (q.entryAt? (parent ++ [.named name])).map Prod.snd := by
  generalize hpath : parent ++ [Segment.named name] = path
  apply Option.ext
  intro value
  rw [Option.map_eq_some_iff]
  constructor
  · intro hget
    cases hfind : q.find? ⟨path, none⟩ with
    | some stored =>
      simp only [get?, hfind, Option.some.injEq] at hget
      subst hget
      refine ⟨_, (entryAt?_eq_some_iff settled).2 ⟨find?_eq_some_iff.1 hfind, ?_⟩, rfl⟩
      exact Key.full_bare path
    | none =>
      simp only [get?, hfind] at hget
      obtain ⟨key, has, hkey⟩ := Option.bind_eq_some_iff.1 hget
      refine ⟨_, (entryAt?_eq_some_iff settled).2 ⟨find?_eq_some_iff.1 hkey, ?_⟩, rfl⟩
      rw [← hpath] at has ⊢
      exact Key.full_of_asOperation?_named has
  · rintro ⟨⟨⟨segments, operation⟩, v⟩, hentry, rfl⟩
    obtain ⟨hmem, hfull⟩ := (entryAt?_eq_some_iff settled).1 hentry
    have hsettled := settled _ (mem_keys_of_mem hmem)
    cases operation with
    | none =>
      rw [Key.full_bare] at hfull
      subst hfull
      simp only [get?, find?_eq_some_iff.2 hmem]
    | some op =>
      rw [Key.full_operation] at hfull
      have has : asOperation? path = some ⟨segments, some op⟩ :=
        hfull ▸ Key.asOperation?_append_tag hsettled.nonempty op
      -- A bare key at this path would be read with the operation, so that no settled query has it.
      have habsent : q.find? ⟨path, none⟩ = none := by
        rw [find?_eq_none_iff]
        intro hbare
        rw [(settled _ hbare).bare rfl] at has
        cases has
      simp only [get?, habsent, has, Option.bind_some, find?_eq_some_iff.2 hmem]

/-! ## Lists -/

theorem reaches_of_full {q : Query} {entry : Key × String} (hmem : entry ∈ q.entries) {path : Path}
    {segment : Segment} {rest : Path} (h : entry.1.full = path ++ segment :: rest) :
    q.reaches path = true :=
  reaches_iff.2 ⟨entry.1, mem_keys_of_mem hmem, Key.isPrefix_segments h⟩

/-- Indices that are all reached are fewer than the keys: each needs a key of its own. -/
theorem le_size_of_reaches {q : Query} {path : Path} {n : Nat}
    (h : ∀ i < n, q.reaches (path ++ [.index i]) = true) : n ≤ q.size := by
  have hkey : ∀ i : Fin n, ∃ key ∈ q.keys, path ++ [.index i.1] <+: key.segments :=
    fun i => reaches_iff.1 (h i.1 i.2)
  choose key hmem hbelow using hkey
  have hinj : Function.Injective key := by
    intro i j hij
    have hi := hbelow i
    rw [hij] at hi
    have hsame := List.prefix_of_prefix_length_le hi (hbelow j) (by simp)
    have heq := hsame.eq_of_length (by simp)
    simpa [Fin.ext_iff] using heq
  have hnodup : (List.ofFn key).Nodup := List.nodup_ofFn.2 hinj
  have hsub : List.ofFn key ⊆ q.keys := by
    intro k hk
    obtain ⟨i, rfl⟩ := List.mem_ofFn.1 hk
    exact hmem i
  simpa [keys, size] using (List.subperm_of_subset hnodup hsub).length_le

theorem lt_length_takeWhile_range {p : Nat → Bool} {i n : Nat} :
    i < ((List.range n).takeWhile p).length ↔ i < n ∧ ∀ j ≤ i, p j = true := by
  constructor
  · intro h
    have hfront : (List.range n).takeWhile p <+: List.range n := List.takeWhile_prefix p
    refine ⟨Nat.lt_of_lt_of_le h (by simpa using hfront.length_le), fun j hj => ?_⟩
    have hj' : j < ((List.range n).takeWhile p).length := by omega
    have hget : ((List.range n).takeWhile p)[j] = j := by
      rw [hfront.getElem hj', List.getElem_range]
    exact List.mem_takeWhile_imp (List.mem_of_getElem hget)
  · rintro ⟨hi, hp⟩
    obtain ⟨m, rfl⟩ : ∃ m, n = i + 1 + m := ⟨n - (i + 1), by omega⟩
    have hall : ∀ j ∈ List.range (i + 1), p j = true := by
      intro j hj
      exact hp j (by simpa [Nat.lt_succ_iff] using hj)
    rw [List.range_add, List.takeWhile_append_of_pos hall, List.length_append, List.length_range]
    omega

/-- **An index belongs to a list exactly if some key reaches it and each index before it.** -/
theorem lt_listLength_iff {q : Query} {path : Path} {i : Nat} :
    i < q.listLength path ↔ ∀ j ≤ i, q.reaches (path ++ [.index j]) = true := by
  unfold listLength
  rw [lt_length_takeWhile_range]
  refine ⟨And.right, fun h => ⟨?_, h⟩⟩
  exact le_size_of_reaches (n := i + 1) fun j hj => h j (by omega)

theorem listLength_congr {q q' : Query} {path path' : Path}
    (h : ∀ i, q.reaches (path ++ [.index i]) = q'.reaches (path' ++ [.index i])) :
    q.listLength path = q'.listLength path' := by
  have hiff (i : Nat) : i < q.listLength path ↔ i < q'.listLength path' := by
    simp only [lt_listLength_iff, h]
  have hle := hiff (q'.listLength path')
  have hge := hiff (q.listLength path)
  omega

end Query

end BracketFilter
