import BracketFilter.Key

/-!
# Queries

A query is what a request asks for: its well-formed keys with one value each.

* `Query.insert` — adds a key that is not there, or appends a value to the one that is, behind a
  comma. `Query.insertRaw` does so for a key as text and drops text that is no key.
* `Query.get?` — the value at a path with an operation; a path that ends in a field spelled like an
  operation also finds the key that was read as that operation.
* `Query.reaches` — whether some key stands at a path or below it.
-/

set_option autoImplicit false

namespace BracketFilter

/-- Entries in the order in which their keys arrived, with the value added to the key's own. -/
def Query.insertEntry (key : Key) (value : String) : List (Key × String) → List (Key × String)
  | [] => [(key, value)]
  | (k, v) :: rest =>
    if k = key then (k, v ++ "," ++ value) :: rest else (k, v) :: insertEntry key value rest

theorem Query.mem_keys_insertEntry {key k : Key} {value : String} {entries : List (Key × String)} :
    k ∈ (insertEntry key value entries).map Prod.fst ↔ k = key ∨ k ∈ entries.map Prod.fst := by
  induction entries with
  | nil => simp [insertEntry]
  | cons entry rest ih =>
    obtain ⟨k', v'⟩ := entry
    by_cases h : k' = key
    · subst h
      simp [insertEntry]
    · simp only [insertEntry, if_neg h, List.map_cons, List.mem_cons, ih]
      constructor
      · rintro (h1 | h1 | h1)
        · exact .inr (.inl h1)
        · exact .inl h1
        · exact .inr (.inr h1)
      · rintro (h1 | h1 | h1)
        · exact .inr (.inl h1)
        · exact .inl h1
        · exact .inr (.inr h1)

theorem Query.nodup_insertEntry {key : Key} {value : String} {entries : List (Key × String)}
    (h : (entries.map Prod.fst).Nodup) : ((insertEntry key value entries).map Prod.fst).Nodup := by
  induction entries with
  | nil => simp [insertEntry]
  | cons entry rest ih =>
    obtain ⟨k', v'⟩ := entry
    simp only [List.map_cons, List.nodup_cons] at h
    by_cases hk : k' = key
    · subst hk
      simpa [insertEntry] using h
    · simp only [insertEntry, if_neg hk, List.map_cons, List.nodup_cons]
      refine ⟨fun hmem => ?_, ih h.2⟩
      rcases mem_keys_insertEntry.1 hmem with h1 | h1
      · exact hk h1
      · exact h.1 h1

/-- The keys of a request with their values; no key occurs twice. -/
structure Query where
  entries : List (Key × String)
  nodup : (entries.map Prod.fst).Nodup

namespace Query

/-- The query without keys. -/
def empty : Query := ⟨[], by simp⟩

/-- The query with a value added to a key's values. -/
def insert (q : Query) (key : Key) (value : String) : Query :=
  ⟨insertEntry key value q.entries, nodup_insertEntry q.nodup⟩

/-- The query with a value added to the key that a text denotes. Text that is no key is dropped. -/
def insertRaw (q : Query) (pair : String × String) : Query :=
  match Key.parse? pair.1 with
  | some key => q.insert key pair.2
  | none => q

/-- The query of a sequence of keys and values. -/
def ofPairs (pairs : List (String × String)) : Query := pairs.foldl insertRaw empty

/-- The keys, each once. -/
def keys (q : Query) : List Key := q.entries.map Prod.fst

/-- The number of keys. -/
def size (q : Query) : Nat := q.entries.length

/-- Whether there is no key. -/
def isEmpty (q : Query) : Bool := q.entries.isEmpty

/-- The value of a key. -/
def find? (q : Query) (key : Key) : Option String := q.entries.lookup key

/-- The key that a bare path also stands for: the path without its last field, which spells the
operation. A path of one segment stands for itself alone. -/
def asOperation? (path : Path) : Option Key :=
  match path.getLast? with
  | some last =>
    if path.dropLast = [] then none
    else (Key.operationOf? last).map fun op => ⟨path.dropLast, some op⟩
  | none => none

/-- The value at a path with an operation. Without one, the key of the bare path comes first, and
then the key that reads the last field as an operation. -/
def get? (q : Query) (path : Path) (operation : Option Operation) : Option String :=
  match q.find? ⟨path, operation⟩ with
  | some value => some value
  | none =>
    match operation with
    | some _ => none
    | none => (asOperation? path).bind q.find?

/-- Whether some key stands at a path or below it. -/
def reaches (q : Query) (path : Path) : Bool := q.keys.any (·.isBelow path)

@[simp] theorem mem_keys_insert {q : Query} {key k : Key} {value : String} :
    k ∈ (q.insert key value).keys ↔ k = key ∨ k ∈ q.keys := mem_keys_insertEntry

theorem reaches_iff {q : Query} {path : Path} :
    q.reaches path = true ↔ ∃ key ∈ q.keys, path <+: key.segments := by
  simp [reaches, Key.isBelow_iff]

theorem lookup_insertEntry (key k : Key) (value : String) (entries : List (Key × String)) :
    (insertEntry key value entries).lookup k =
      if k = key then
        some ((entries.lookup key).elim value fun stored => stored ++ "," ++ value)
      else entries.lookup k := by
  have miss {a b : Key} (h : a ≠ b) : (a == b) = false := by simpa using h
  induction entries with
  | nil =>
    by_cases h : k = key
    · simp [insertEntry, h]
    · simp [insertEntry, List.lookup_cons, h, miss h]
  | cons entry rest ih =>
    obtain ⟨k', v'⟩ := entry
    by_cases hk : k' = key
    · subst hk
      by_cases h : k = k'
      · simp [insertEntry, h]
      · simp [insertEntry, List.lookup_cons, h, miss h]
    · by_cases h : k = k'
      · subst h
        simp [insertEntry, hk]
      · simp [insertEntry, hk, List.lookup_cons, miss h, miss (Ne.symm hk), ih]

/-- An inserted value is found under its key, behind what was there, and nothing else changes. -/
theorem find?_insert (q : Query) (key k : Key) (value : String) :
    (q.insert key value).find? k =
      if k = key then some ((q.find? key).elim value fun stored => stored ++ "," ++ value)
      else q.find? k := lookup_insertEntry key k value q.entries

/-- The number of segments of the longest key. -/
def depth (q : Query) : Nat := (q.keys.map (·.segments.length)).foldr max 0

theorem length_le_depth_of_reaches {q : Query} {path : Path} (h : q.reaches path = true) :
    path.length ≤ q.depth := by
  obtain ⟨key, hmem, hbelow⟩ := reaches_iff.1 h
  refine Nat.le_trans hbelow.length_le ?_
  unfold depth
  generalize q.keys = ks at hmem
  induction ks with
  | nil => cases hmem
  | cons k ks ih =>
    simp only [List.map_cons, List.foldr_cons]
    rcases List.mem_cons.1 hmem with rfl | h
    · exact Nat.le_max_left _ _
    · exact Nat.le_trans (ih h) (Nat.le_max_right _ _)

/-- How many entries of the list at a path are asked for: the indices from 0 up to the first that no
key reaches. Every index needs a key of its own, so the search over as many indices as there are
keys is enough. -/
def listLength (q : Query) (path : Path) : Nat :=
  ((List.range q.size).takeWhile fun i => q.reaches (path ++ [.index i])).length

end Query

end BracketFilter
