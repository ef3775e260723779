import BracketFilter.Proofs.BindingReads
import Mathlib.Data.List.Induction
import Mathlib.Logic.Equiv.Defs

/-!
# A list under other indices

* `reindexPath`, `Key.reindexed`, `Query.reindexed` — a path, a key and a query with the indices of
  the list at a path renamed.
* `indexAt` — how the indices right behind a path are renamed: only behind the path of the list.

Principal results: `get?_reindexed`, `mentions_reindexed` — the renamed query answers for renamed
paths as the query does; `ofPairs_reindexed` — a request with the indices renamed in its texts is
the renamed query.
-/

set_option autoImplicit false

namespace BracketFilter

variable {σ : Equiv.Perm Nat} {base : Path}

/-! ## Paths -/

/-- A segment with its index renamed. -/
def Segment.reindex (σ : Equiv.Perm Nat) : Segment → Segment
  | .field name => .field name
  | .index i => .index (σ i)

@[simp] theorem Segment.reindex_refl (segment : Segment) :
    segment.reindex (Equiv.refl Nat) = segment := by
  cases segment <;> rfl

@[simp] theorem Segment.reindex_symm (σ : Equiv.Perm Nat) (segment : Segment) :
    (segment.reindex σ).reindex σ.symm = segment := by
  cases segment <;> simp [reindex]

/-- A path with the index renamed that it may have right behind `base`. -/
def reindexPath (σ : Equiv.Perm Nat) : Path → Path → Path
  | _, [] => []
  | [], segment :: path => segment.reindex σ :: path
  | first :: base, segment :: path =>
    segment :: if segment = first then reindexPath σ base path else path

/-- How the indices right behind a path are renamed. -/
def indexAt (σ : Equiv.Perm Nat) (base path : Path) : Equiv.Perm Nat :=
  if path = base then σ else Equiv.refl Nat

@[simp] theorem reindexPath_nil (σ : Equiv.Perm Nat) (base : Path) :
    reindexPath σ base [] = [] := by
  cases base <;> rfl

theorem reindexPath_concat (σ : Equiv.Perm Nat) (base path : Path) (segment : Segment) :
    reindexPath σ base (path ++ [segment]) =
      reindexPath σ base path ++ [segment.reindex (indexAt σ base path)] := by
  induction base generalizing path with
  | nil => cases path <;> simp [reindexPath, indexAt]
  | cons first base ih =>
    cases path with
    | nil => simp [reindexPath, indexAt]
    | cons head path =>
      by_cases hhead : head = first
      · simp [reindexPath, indexAt, hhead, ih]
      · simp [reindexPath, indexAt, hhead]

theorem reindexPath_named (σ : Equiv.Perm Nat) (base path : Path) (name : String) :
    reindexPath σ base (path ++ [.named name]) = reindexPath σ base path ++ [.named name] :=
  reindexPath_concat σ base path _

theorem reindexPath_index (σ : Equiv.Perm Nat) (base path : Path) (i : Nat) :
    reindexPath σ base (path ++ [.index i]) =
      reindexPath σ base path ++ [.index (indexAt σ base path i)] :=
  reindexPath_concat σ base path _

/-- Nothing is renamed on the way to the list. -/
theorem reindexPath_of_isPrefix {path : Path} (above : path <+: base) :
    reindexPath σ base path = path := by
  induction base generalizing path with
  | nil => rw [List.prefix_nil.1 above, reindexPath_nil]
  | cons first base ih =>
    cases path with
    | nil => rfl
    | cons head path =>
      obtain ⟨rfl, htail⟩ := List.cons_prefix_cons.1 above
      simp [reindexPath, ih htail]

theorem reindexPath_symm (σ : Equiv.Perm Nat) (base path : Path) :
    reindexPath σ.symm base (reindexPath σ base path) = path := by
  induction path using List.reverseRecOn with
  | nil => simp
  | append_singleton path segment ih =>
    have hindex : indexAt σ.symm base (reindexPath σ base path) = (indexAt σ base path).symm := by
      by_cases hpath : path = base
      · simp [indexAt, hpath, reindexPath_of_isPrefix (List.prefix_refl base)]
      · have hother : reindexPath σ base path ≠ base := by
          intro hsame
          rw [hsame, reindexPath_of_isPrefix (List.prefix_refl base)] at ih
          exact hpath ih.symm
        simp [indexAt, hpath, hother]
    rw [reindexPath_concat, reindexPath_concat, ih, hindex, Segment.reindex_symm]

theorem reindexPath_injective (σ : Equiv.Perm Nat) (base : Path) :
    Function.Injective (reindexPath σ base) :=
  Function.LeftInverse.injective (reindexPath_symm σ base)

theorem reindexPath_isPrefix (σ : Equiv.Perm Nat) (base : Path) {path p : Path}
    (above : path <+: p) : reindexPath σ base path <+: reindexPath σ base p := by
  obtain ⟨rest, rfl⟩ := above
  induction rest using List.reverseRecOn with
  | nil => simp
  | append_singleton rest segment ih =>
    rw [← List.append_assoc, reindexPath_concat]
    exact ih.trans (List.prefix_append _ _)

theorem reindexPath_isPrefix_iff {path p : Path} :
    reindexPath σ base path <+: reindexPath σ base p ↔ path <+: p := by
  refine ⟨fun h => ?_, reindexPath_isPrefix σ base⟩
  have hback := reindexPath_isPrefix σ.symm base h
  rwa [reindexPath_symm, reindexPath_symm] at hback

/-! ## Keys -/

/-- A key with the indices of the list at a path renamed. -/
def Key.reindexed (σ : Equiv.Perm Nat) (base : Path) (key : Key) : Key :=
  ⟨reindexPath σ base key.segments, key.operation⟩

theorem Key.reindexed_injective (σ : Equiv.Perm Nat) (base : Path) :
    Function.Injective (reindexed σ base) := by
  rintro ⟨segments, operation⟩ ⟨segments', operation'⟩ h
  obtain ⟨hsegments, rfl⟩ := Key.mk.inj h
  obtain rfl := reindexPath_injective σ base hsegments
  rfl

/-- A renamed path stands for the renamed key with an operation. -/
theorem asOperation?_reindexPath (σ : Equiv.Perm Nat) (base path : Path) :
    Query.asOperation? (reindexPath σ base path) =
      (Query.asOperation? path).map (Key.reindexed σ base) := by
  rcases List.eq_nil_or_concat path with rfl | ⟨init, last, rfl⟩
  · simp [Query.asOperation?]
  · have hempty : reindexPath σ base init = [] ↔ init = [] := by
      constructor
      · intro h
        exact reindexPath_injective σ base (h.trans (reindexPath_nil σ base).symm)
      · rintro rfl
        exact reindexPath_nil σ base
    have hspelled : Key.operationOf? (last.reindex (indexAt σ base init)) =
        Key.operationOf? last := by
      cases last <;> rfl
    rw [List.concat_eq_append, reindexPath_concat]
    simp only [Query.asOperation?, List.getLast?_append, List.getLast?_singleton, Option.some_or,
      List.dropLast_concat, hempty, hspelled]
    split
    · rfl
    · rw [Option.map_map]
      rfl

/-! ## Queries -/

namespace Query

/-- A query with the indices of the list at a path renamed in all keys. -/
def reindexed (σ : Equiv.Perm Nat) (base : Path) (q : Query) : Query where
  entries := q.entries.map fun entry => (entry.1.reindexed σ base, entry.2)
  nodup := by
    have hkeys := q.nodup.map (Key.reindexed_injective σ base)
    rw [List.map_map] at hkeys ⊢
    exact hkeys

variable {q : Query}

theorem keys_reindexed (σ : Equiv.Perm Nat) (base : Path) (q : Query) :
    (q.reindexed σ base).keys = q.keys.map (Key.reindexed σ base) := by
  simp [keys, reindexed]

theorem find?_reindexed (σ : Equiv.Perm Nat) (base : Path) (q : Query) (key : Key) :
    (q.reindexed σ base).find? (key.reindexed σ base) = q.find? key := by
  apply Option.ext
  intro value
  rw [find?_eq_some_iff, find?_eq_some_iff]
  simp only [reindexed, List.mem_map, Prod.mk.injEq]
  constructor
  · rintro ⟨⟨key', _⟩, hmem, hkey, rfl⟩
    rwa [← Key.reindexed_injective σ base hkey]
  · intro hmem
    exact ⟨(key, value), hmem, rfl, rfl⟩

/-- **The renamed query finds at renamed paths what the query finds.** -/
theorem get?_reindexed (σ : Equiv.Perm Nat) (base : Path) (q : Query) (path : Path)
    (op : Option Operation) :
    (q.reindexed σ base).get? (reindexPath σ base path) op = q.get? path op := by
  have hfind := find?_reindexed σ base q
  unfold get?
  rw [show (⟨reindexPath σ base path, op⟩ : Key) = Key.reindexed σ base ⟨path, op⟩ from rfl, hfind,
    asOperation?_reindexPath, Option.bind_map]
  simp only [Function.comp_def, hfind]

/-- **The renamed query mentions the renamed paths.** -/
theorem mentions_reindexed {path : Path} :
    (q.reindexed σ base).Mentions (reindexPath σ base path) ↔ q.Mentions path := by
  unfold Mentions
  rw [keys_reindexed]
  simp only [List.mem_map, exists_exists_and_eq_and, Key.reindexed, reindexPath_isPrefix_iff]

theorem reaches_reindexed (σ : Equiv.Perm Nat) (base : Path) (q : Query) (path : Path) :
    (q.reindexed σ base).reaches (reindexPath σ base path) = q.reaches path := by
  rw [Bool.eq_iff_iff, reaches_iff_mentions, reaches_iff_mentions, mentions_reindexed]

/-- A list is as long as the run of indices that its keys use. -/
theorem listLength_eq_of_mentions {path : Path} {n : Nat}
    (exact : ∀ i, q.Mentions (path ++ [.index i]) ↔ i < n) : q.listLength path = n := by
  have hiff (i : Nat) : i < q.listLength path ↔ i < n := by
    simp only [lt_listLength_iff, reaches_iff_mentions, exact]
    exact ⟨fun h => h i (Nat.le_refl i), fun h j hj => by omega⟩
  have hle := hiff (q.listLength path)
  have hge := hiff n
  omega

/-- Lists are as long under their new indices, if those of the renamed list are used without a gap
and permuted among themselves. -/
theorem listLength_reindexed {n : Nat} (exact : ∀ i, q.Mentions (base ++ [.index i]) ↔ i < n)
    (permutes : ∀ i, σ i < n ↔ i < n) (path : Path) :
    (q.reindexed σ base).listLength (reindexPath σ base path) = q.listLength path := by
  by_cases hpath : path = base
  · subst hpath
    have hself : reindexPath σ path path = path := reindexPath_of_isPrefix (List.prefix_refl path)
    have hexact (i : Nat) : (q.reindexed σ path).Mentions (path ++ [.index i]) ↔ i < n := by
      have hindex := reindexPath_index σ path path (σ.symm i)
      rw [hself, indexAt, if_pos rfl, Equiv.apply_symm_apply] at hindex
      rw [← hindex, mentions_reindexed, exact, ← permutes, Equiv.apply_symm_apply]
    rw [hself, listLength_eq_of_mentions hexact, listLength_eq_of_mentions exact]
  · refine listLength_congr fun i => ?_
    have hindex := reindexPath_index σ base path i
    rw [indexAt, if_neg hpath, Equiv.refl_apply] at hindex
    rw [← hindex, reaches_reindexed]

/-! ## Requests -/

theorem insertEntry_map {f : Key → Key} (injective : Function.Injective f) (key : Key)
    (value : String) (entries : List (Key × String)) :
    insertEntry (f key) value (entries.map fun entry => (f entry.1, entry.2)) =
      (insertEntry key value entries).map fun entry => (f entry.1, entry.2) := by
  induction entries with
  | nil => rfl
  | cons entry rest ih =>
    obtain ⟨k, v⟩ := entry
    by_cases hk : k = key
    · simp [insertEntry, hk]
    · simp [insertEntry, hk, injective.ne hk, ih]

theorem insert_reindexed (σ : Equiv.Perm Nat) (base : Path) (q : Query) (key : Key)
    (value : String) :
    (q.reindexed σ base).insert (key.reindexed σ base) value =
      (q.insert key value).reindexed σ base := by
  simp only [insert, reindexed, mk.injEq]
  exact insertEntry_map (Key.reindexed_injective σ base) key value q.entries

/-- A pair with the indices of the list at a path renamed in its text; the spelling may change. -/
def PairReindexed (σ : Equiv.Perm Nat) (base : Path) (pair pair' : String × String) : Prop :=
  Key.parse? pair'.1 = (Key.parse? pair.1).map (Key.reindexed σ base) ∧ pair'.2 = pair.2

theorem forall₂_pairReindexed {pairs pairs' : List (String × String)}
    (keys : pairs'.map (fun pair => Key.parse? pair.1) =
      pairs.map fun pair => (Key.parse? pair.1).map (Key.reindexed σ base))
    (values : pairs'.map Prod.snd = pairs.map Prod.snd) :
    List.Forall₂ (PairReindexed σ base) pairs pairs' := by
  induction pairs generalizing pairs' with
  | nil =>
    rw [List.map_nil, List.map_eq_nil_iff] at values
    rw [values]
    exact .nil
  | cons pair pairs ih =>
    cases pairs' with
    | nil => cases values
    | cons pair' pairs' =>
      simp only [List.map_cons, List.cons.injEq] at keys values
      exact .cons ⟨keys.1, values.1⟩ (ih keys.2 values.2)

/-- **A request with the indices of a list renamed in its texts is the renamed query.** -/
theorem ofPairs_reindexed {pairs pairs' : List (String × String)}
    (renamed : List.Forall₂ (PairReindexed σ base) pairs pairs') :
    ofPairs pairs' = (ofPairs pairs).reindexed σ base := by
  suffices ∀ q : Query, pairs'.foldl insertRaw (q.reindexed σ base) =
      (pairs.foldl insertRaw q).reindexed σ base from this empty
  induction renamed with
  | nil => exact fun q => rfl
  | @cons pair pair' pairs pairs' hpair _ ih =>
    intro q
    obtain ⟨hkey, hvalue⟩ := hpair
    have hinsert : (q.reindexed σ base).insertRaw pair' =
        (q.insertRaw pair).reindexed σ base := by
      unfold insertRaw
      rw [hkey, hvalue]
      cases Key.parse? pair.1 with
      | none => rfl
      | some key => exact insert_reindexed σ base q key pair.2
    rw [List.foldl_cons, List.foldl_cons, hinsert, ih]

end Query

end BracketFilter
