import BracketFilter.Proofs.BindingSteps
import BracketFilter.Proofs.FullPath

/-!
# A query with more keys gives a larger tree

* `Query.Extends` — one query finds every value, and reaches every path, that another does.
* `Node.Within` — a tree asks for what another does, or for less of it: entries, operations and
  entries of lists may be missing from it.

Principal results: `extends_insertRaw` — a query with a key that is new extends the query without
it; `exists_build_within` — if the larger query is bound, so is the smaller, to a tree within its
tree.
-/

set_option autoImplicit false

namespace BracketFilter

open BracketFilter.Text

variable {ι : Type}

/-! ## Queries with more keys -/

namespace Query

/-- The second query finds every value, and reaches every path, that the first does. -/
structure Extends (q q' : Query) : Prop where
  get? : ∀ path op raw, q.get? path op = some raw → q'.get? path op = some raw
  reaches : ∀ path, q.reaches path = true → q'.reaches path = true

variable {q q' : Query}

theorem Extends.unreached (h : q.Extends q') {path : Path} (hq' : q'.reaches path = false) :
    q.reaches path = false := by
  cases hq : q.reaches path with
  | false => rfl
  | true => rw [h.reaches path hq] at hq'; cases hq'

theorem Extends.listLength_le (h : q.Extends q') (path : Path) :
    q.listLength path ≤ q'.listLength path := by
  by_contra hlt
  -- The first index behind the longer list would belong to it.
  have hin : q'.listLength path < q.listLength path := by omega
  have hreached : ∀ j ≤ q'.listLength path, q'.reaches (path ++ [.index j]) = true := by
    intro j hj
    exact h.reaches _ (lt_listLength_iff.1 hin j hj)
  have hself := lt_listLength_iff.2 hreached
  omega

theorem find?_insert_of_fresh {key k : Key} {value raw : String} (fresh : key ∉ q.keys)
    (h : q.find? k = some raw) : (q.insert key value).find? k = some raw := by
  have hne : k ≠ key := by
    rintro rfl
    rw [find?_eq_none_iff.2 fresh] at h
    cases h
  rw [find?_insert, if_neg hne, h]

/-- **A query with a key that is new extends the query without it.** A bare key that has been read
from a text does not stand for an operation, so that it hides no key that does. -/
theorem extends_insert {key : Key} {value : String} (settled : key.Settled)
    (fresh : key ∉ q.keys) : q.Extends (q.insert key value) where
  get? := by
    intro path op raw h
    unfold get? at h ⊢
    cases hfind : q.find? ⟨path, op⟩ with
    | some stored =>
      rw [hfind] at h
      rw [find?_insert_of_fresh fresh hfind]
      exact h
    | none =>
      rw [hfind] at h
      cases op with
      | some op => cases h
      | none =>
        simp only at h ⊢
        obtain ⟨k, has, hk⟩ := Option.bind_eq_some_iff.1 h
        -- The new key is settled, so that it is not a bare key that hides one with an operation.
        have hbare : (q.insert key value).find? ⟨path, none⟩ = none := by
          have hne : (⟨path, none⟩ : Key) ≠ key := by
            rintro rfl
            rw [settled.bare rfl] at has
            cases has
          rw [find?_insert, if_neg hne, hfind]
        rw [hbare]
        simp only [has, Option.bind_some]
        exact find?_insert_of_fresh fresh hk
  reaches := by
    intro path h
    rw [reaches_iff] at h ⊢
    obtain ⟨k, hk, hbelow⟩ := h
    exact ⟨k, mem_keys_insert.2 (.inr hk), hbelow⟩

theorem extends_insertRaw {raw value : String} {key : Key} (parsed : Key.parse? raw = some key)
    (fresh : key ∉ q.keys) : q.Extends (q.insertRaw (raw, value)) := by
  have hinsert : q.insertRaw (raw, value) = q.insert key value := by
    simp only [insertRaw, parsed]
  rw [hinsert]
  exact extends_insert (Key.settled_of_parse? parsed) fresh

end Query

/-- The requests of a query are requests of each that extends it, in the same order. -/
theorem requests_sublist {q q' : Query} (more : q.Extends q') (path : Path) :
    (Binder.requests q path).Sublist (Binder.requests q' path) := by
  unfold Binder.requests
  refine List.Sublist.append (filterMap_sublist ?_ _) (List.Sublist.map _ ?_)
  · intro op request h
    obtain ⟨raw, hraw, rfl⟩ := Option.map_eq_some_iff.1 h
    rw [more.get? _ _ _ hraw]
    rfl
  · cases hget : q.get? path none with
    | none => exact List.nil_sublist _
    | some raw => rw [more.get? _ _ _ hget]

theorem leafRequests_sublist {q q' : Query} (more : q.Extends q') (path : Path)
    (type : LeafType) :
    (Binder.leafRequests q path type).Sublist (Binder.leafRequests q' path type) := by
  cases type with
  | primitive type => exact (requests_sublist more path).map _
  | composite type =>
    simp only [Binder.leafRequests]
    induction type.members with
    | nil => exact List.Sublist.refl _
    | cons m rest ih =>
      rw [List.flatMap_cons, List.flatMap_cons]
      exact ((requests_sublist more _).map _).append ih

/-! ## Trees that ask for less -/

mutual

/-- A tree asks for what another does, or for less of it. -/
inductive Node.Within : Node ι → Node ι → Prop
  | mk {node node' : Node ι} (entries : EntriesWithin node.entries node'.entries) :
      Node.Within node node'

/-- Entries are among others, in their order, each for what its counterpart asks or less. -/
inductive EntriesWithin : List (String × Entry ι) → List (String × Entry ι) → Prop
  | nil : EntriesWithin [] []
  | missing {e : String × Entry ι} {entries entries' : List (String × Entry ι)}
      (rest : EntriesWithin entries entries') : EntriesWithin entries (e :: entries')
  | kept {name : String} {entry entry' : Entry ι} {entries entries' : List (String × Entry ι)}
      (within : EntryWithin entry entry') (rest : EntriesWithin entries entries') :
      EntriesWithin ((name, entry) :: entries) ((name, entry') :: entries')

/-- An entry asks for what another does, or for less of it. -/
inductive EntryWithin : Entry ι → Entry ι → Prop
  | scalar {value : Value} : EntryWithin (.scalar value) (.scalar value)
  | leaf {type : LeafType} {operations operations' : List Applied}
      (fewer : operations.Sublist operations') :
      EntryWithin (.leaf ⟨type, operations⟩) (.leaf ⟨type, operations'⟩)
  | nested {child child' : Node ι} (within : Node.Within child child') :
      EntryWithin (.nested child) (.nested child')
  | list {items items' : List (Node ι)} (within : ItemsWithin items items') :
      EntryWithin (.list items) (.list items')

/-- The filters of a list ask for what those at the front of another do, or for less of it. -/
inductive ItemsWithin : List (Node ι) → List (Node ι) → Prop
  | nil {items : List (Node ι)} : ItemsWithin [] items
  | cons {item item' : Node ι} {items items' : List (Node ι)} (within : Node.Within item item')
      (rest : ItemsWithin items items') : ItemsWithin (item :: items) (item' :: items')

end

/-- An entry that may be missing asks for what another does, or for less of it. -/
def OptionWithin (entry entry' : Option (Entry ι)) : Prop :=
  ∀ e, entry = some e → ∃ e', entry' = some e' ∧ EntryWithin e e'

theorem optionWithin_none (entry : Option (Entry ι)) : OptionWithin none entry := by
  intro e h
  cases h

theorem itemsWithin_of_getElem {items items' : List (Node ι)} (hle : items.length ≤ items'.length)
    (each : ∀ i (h : i < items.length) (h' : i < items'.length), items[i].Within items'[i]) :
    ItemsWithin items items' := by
  induction items generalizing items' with
  | nil => exact .nil
  | cons item rest ih =>
    cases items' with
    | nil => simp at hle
    | cons item' rest' =>
      simp only [List.length_cons] at hle
      refine .cons (each 0 (by simp) (by simp)) (ih (by omega) fun i h h' => ?_)
      exact each (i + 1) (by simpa using h) (by simpa using h')

theorem optionWithin_leafEntry {type : LeafType} {operations operations' : List Applied}
    (fewer : operations.Sublist operations') :
    OptionWithin (Binder.leafEntry type operations : Option (Entry ι))
      (Binder.leafEntry type operations') := by
  intro e h
  unfold Binder.leafEntry at h ⊢
  split at h
  · cases h
  · rename_i hsome
    cases h
    refine ⟨_, if_neg ?_, .leaf fewer⟩
    rintro rfl
    exact hsome (List.sublist_nil.1 fewer)

theorem optionWithin_nestedEntry {child child' : Node ι} (within : child.Within child') :
    OptionWithin (Binder.nestedEntry child) (Binder.nestedEntry child') := by
  intro e h
  unfold Binder.nestedEntry Node.isEmpty at h ⊢
  split at h
  · cases h
  · rename_i hsome
    cases h
    refine ⟨_, if_neg ?_, .nested within⟩
    rw [List.isEmpty_iff] at hsome ⊢
    intro hnil
    obtain ⟨entries⟩ := within
    rw [hnil] at entries
    generalize child.entries = es at hsome entries
    cases entries
    exact hsome rfl

theorem optionWithin_listEntry {items items' : List (Node ι)} (within : ItemsWithin items items') :
    OptionWithin (Binder.listEntry items) (Binder.listEntry items') := by
  intro e h
  unfold Binder.listEntry at h ⊢
  split at h
  · cases h
  · rename_i hsome
    cases h
    refine ⟨_, if_neg ?_, .list within⟩
    cases within with
    | nil => exact absurd rfl hsome
    | cons within rest => simp

theorem entriesWithin_cons {field : FieldShape ι} {entry entry' : Option (Entry ι)}
    {given given' : List (Option (String × Entry ι))} (within : OptionWithin entry entry')
    (rest : EntriesWithin (given.filterMap id) (given'.filterMap id)) :
    EntriesWithin ((Binder.labelled field entry :: given).filterMap id)
      ((Binder.labelled field entry' :: given').filterMap id) := by
  cases entry with
  | none =>
    cases entry' with
    | none => exact rest
    | some e' => exact .missing rest
  | some e =>
    obtain ⟨e', rfl, hwithin⟩ := within e rfl
    exact .kept hwithin rest

/-! ## Binding the smaller query -/

section Binding

variable {b : Binder} {shapes : ι → Shape ι} {q q' : Query}

/-- A tree that is bound for a larger query has a tree within it that is bound for the smaller. -/
def BuildsWithin (b : Binder) (shapes : ι → Shape ι) (q : Query) (shape : Shape ι) (path : Path)
    (depth : Nat) (node' : Node ι) : Prop :=
  ∃ node, b.buildNode shapes q shape path depth = .ok node ∧ node.Within node'

theorem exists_bindScalar_within (more : q.Extends q') {here : Path} {type : ValueType}
    {entry' : Option (Entry ι)} (h : b.bindScalar q' here type = .ok entry') :
    ∃ entry, b.bindScalar q here type = .ok entry ∧ OptionWithin entry entry' := by
  cases hget : q.get? here none with
  | none =>
    exact ⟨none, Binder.bindScalar_ok_iff.2 (.inl ⟨hget, rfl⟩), optionWithin_none _⟩
  | some raw =>
    have hget' := more.get? _ _ _ hget
    rcases Binder.bindScalar_ok_iff.1 h with ⟨hnone, -⟩ | ⟨raw', value, hsome, hread, rfl⟩
    · rw [hget'] at hnone
      cases hnone
    · rw [hget'] at hsome
      cases hsome
      have hbound : b.bindScalar q here type = .ok (some (.scalar value) : Option (Entry ι)) :=
        Binder.bindScalar_ok_iff.2 (.inr ⟨raw, value, hget, hread, rfl⟩)
      refine ⟨some (.scalar value), hbound, ?_⟩
      rintro _ ⟨⟩
      exact ⟨_, rfl, .scalar⟩

theorem exists_bindLeaf_within (more : q.Extends q') {here : Path} {type : LeafType}
    {entry' : Option (Entry ι)} (h : b.bindLeaf q' here type = .ok entry') :
    ∃ entry, b.bindLeaf q here type = .ok entry ∧ OptionWithin entry entry' := by
  obtain ⟨answers', hanswers', rfl⟩ := Binder.bindLeaf_ok_iff.1 h
  obtain ⟨answers, hsub, hanswers⟩ :=
    exists_sublist_forall₂ (leafRequests_sublist more here type) hanswers'
  exact ⟨_, Binder.bindLeaf_ok_iff.2 ⟨answers, hanswers, rfl⟩,
    optionWithin_leafEntry (hsub.filterMap id)⟩

/-- The filters of a list are bound for the smaller query, as many as it asks for. -/
theorem exists_items_within (more : q.Extends q') {target : ι} {here : Path} {depth : Nat}
    {items' : List (Node ι)} (length : items'.length = q'.listLength here)
    (bound : ∀ i (h : i < items'.length),
      BuildsWithin b shapes q (shapes target) (here ++ [.index i]) depth items'[i]) :
    ∃ items : List (Node ι), items.length = q.listLength here ∧
      (∀ i (h : i < items.length),
        b.buildNode shapes q (shapes target) (here ++ [.index i]) depth = .ok items[i]) ∧
      ItemsWithin items items' := by
  have hle : q.listLength here ≤ items'.length := by
    rw [length]
    exact more.listLength_le here
  have each : ∀ i ∈ List.range (q.listLength here), ∃ node : Node ι,
      b.buildNode shapes q (shapes target) (here ++ [.index i]) depth = .ok node ∧
        ∀ h : i < items'.length, node.Within items'[i] := by
    intro i hi
    rw [List.mem_range] at hi
    obtain ⟨node, hnode, hwithin⟩ := bound i (by omega)
    exact ⟨node, hnode, fun _ => hwithin⟩
  obtain ⟨items, hitems⟩ := exists_forall₂_of_forall_mem each
  obtain ⟨hlength, hget⟩ := List.forall₂_iff_get.1 hitems
  rw [List.length_range] at hlength
  simp only [List.get_eq_getElem, List.getElem_range, List.length_range] at hget
  refine ⟨items, hlength.symm, fun i h => (hget i (by omega) h).1, ?_⟩
  refine itemsWithin_of_getElem (by omega) fun i h h' => ?_
  exact (hget i (by omega) h).2 h'

theorem exists_fieldBound_within (more : q.Extends q') {here : Path} {depth : Nat} {role : Role ι}
    {entry' : Option (Entry ι)}
    (h : Binder.FieldBound b shapes q' (BuildsWithin b shapes q) here depth role entry') :
    ∃ entry, Binder.FieldBound b shapes q (Binder.Builds b shapes q) here depth role entry ∧
      OptionWithin entry entry' := by
  cases h with
  | scalar bound =>
    obtain ⟨entry, hentry, hwithin⟩ := exists_bindScalar_within more bound
    exact ⟨entry, .scalar hentry, hwithin⟩
  | leaf bound =>
    obtain ⟨entry, hentry, hwithin⟩ := exists_bindLeaf_within more bound
    exact ⟨entry, .leaf hentry, hwithin⟩
  | nested reached within bound =>
    cases hreached : q.reaches here with
    | false => exact ⟨none, .noNested hreached, optionWithin_none _⟩
    | true =>
      obtain ⟨node, hnode, hwithin⟩ := bound
      exact ⟨_, .nested hreached within hnode, optionWithin_nestedEntry hwithin⟩
  | noNested unreached =>
    exact ⟨none, .noNested (more.unreached unreached), optionWithin_none _⟩
  | list reached within short length bound =>
    cases hreached : q.reaches here with
    | false => exact ⟨none, .noList hreached, optionWithin_none _⟩
    | true =>
      obtain ⟨items, hlength, hitems, hwithin⟩ := exists_items_within more length bound
      have hle := more.listLength_le here
      exact ⟨_, .list hreached within (by omega) hlength hitems, optionWithin_listEntry hwithin⟩
  | noList unreached =>
    exact ⟨none, .noList (more.unreached unreached), optionWithin_none _⟩

theorem exists_given_within (more : q.Extends q') {path : Path} {depth : Nat}
    {fields : List (FieldShape ι)} {given' : List (Option (String × Entry ι))}
    (h : List.Forall₂ (Binder.FieldGives b shapes q' (BuildsWithin b shapes q) path depth) fields
      given') :
    ∃ given, List.Forall₂
        (Binder.FieldGives b shapes q (Binder.Builds b shapes q) path depth) fields given ∧
      EntriesWithin (given.filterMap id) (given'.filterMap id) := by
  induction h with
  | nil => exact ⟨[], .nil, .nil⟩
  | cons hfield _ ih =>
    obtain ⟨entry', hbound, rfl⟩ := hfield
    obtain ⟨entry, hentry, hwithin⟩ := exists_fieldBound_within more hbound
    obtain ⟨given, hgiven, hrest⟩ := ih
    exact ⟨_, .cons ⟨entry, hentry, rfl⟩ hgiven, entriesWithin_cons hwithin hrest⟩

/-- **If a query is bound, so is each query that it extends, to a tree within its tree.** -/
theorem exists_build_within (more : q.Extends q') {shape : Shape ι} {path : Path} {depth : Nat}
    {node' : Node ι} (h : b.buildNode shapes q' shape path depth = .ok node') :
    BuildsWithin b shapes q shape path depth node' := by
  refine Binder.buildNode_induct (motive := BuildsWithin b shapes q) ?_ h
  intro shape path depth given' hgiven'
  obtain ⟨given, hgiven, hwithin⟩ := exists_given_within more hgiven'
  exact ⟨_, Binder.buildNode_ok_iff.2 ⟨given, hgiven, rfl⟩, .mk hwithin⟩

end Binding

end BracketFilter
