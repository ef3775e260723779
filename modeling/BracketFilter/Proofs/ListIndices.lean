import BracketFilter.Proofs.Narrowing
import BracketFilter.Proofs.Reindexing
import BracketFilter.Proofs.Relocation
import Mathlib.Logic.Equiv.Basic

/-!
# List indices are only labels

* `AsksAlike`, `EntryAsksAlike` — two trees, or two entries, ask for no more than each other.

Principal results: `asksAlike_assemble` — trees ask alike if their entries do; `buildNode_reindexed`
— under other indices of a list a node is bound or not as before, to a tree that asks alike;
`build_reindexed` — so that the request is bound, compiles and accepts as before.
-/

set_option autoImplicit false

namespace BracketFilter

variable {ι κ : Type} {C : κ → Type}

/-! ## Trees that ask alike -/

/-- Two trees ask for no more than each other, and both are empty or neither. -/
structure AsksAlike (types : RecordTypes κ C) (node node' : Node ι) : Prop where
  isEmpty : node.isEmpty = node'.isEmpty
  less : AsksLess types node node'
  more : AsksLess types node' node

/-- Two entries ask for no more than each other. -/
structure EntryAsksAlike (types : RecordTypes κ C) (entry entry' : Entry ι) : Prop where
  less : EntryAsksLess types entry entry'
  more : EntryAsksLess types entry' entry

/-- Two entries of one field ask for no more than each other. -/
def LabelledAlike (types : RecordTypes κ C) (e e' : String × Entry ι) : Prop :=
  e'.1 = e.1 ∧ EntryAsksAlike types e.2 e'.2

section AsksAlike

variable {types : RecordTypes κ C}

theorem EntryAsksAlike.refl (types : RecordTypes κ C) (entry : Entry ι) :
    EntryAsksAlike types entry entry := ⟨.refl types entry, .refl types entry⟩

theorem rel_refl (types : RecordTypes κ C) (entry : Option (Entry ι)) :
    Option.Rel (EntryAsksAlike types) entry entry := by
  cases entry with
  | none => exact .none
  | some entry => exact .some (.refl types entry)

theorem rel_nestedEntry {child child' : Node ι} (alike : AsksAlike types child child') :
    Option.Rel (EntryAsksAlike types) (Binder.nestedEntry child) (Binder.nestedEntry child') := by
  unfold Binder.nestedEntry
  rw [← alike.isEmpty]
  split
  · exact .none
  · exact .some ⟨entryAsksLess_nested alike.less, entryAsksLess_nested alike.more⟩

theorem rel_listEntry {items items' : List (Node ι)}
    (alike : BothWays (AsksAlike types) items items') :
    Option.Rel (EntryAsksAlike types) (Binder.listEntry items) (Binder.listEntry items') := by
  obtain ⟨hthere, hback⟩ := alike
  have hempty : items.isEmpty = items'.isEmpty := by
    rw [Bool.eq_iff_iff, List.isEmpty_iff, List.isEmpty_iff, List.eq_nil_iff_forall_not_mem,
      List.eq_nil_iff_forall_not_mem]
    constructor
    · intro hnone item' hitem'
      obtain ⟨item, hitem, -⟩ := hback item' hitem'
      exact hnone item hitem
    · intro hnone item hitem
      obtain ⟨item', hitem', -⟩ := hthere item hitem
      exact hnone item' hitem'
  unfold Binder.listEntry
  rw [← hempty]
  split
  · exact .none
  · refine .some ⟨entryAsksLess_list ?_, entryAsksLess_list ?_⟩
    · intro item hitem
      obtain ⟨item', hitem', hitems⟩ := hthere item hitem
      exact ⟨item', hitem', hitems.less⟩
    · intro item' hitem'
      obtain ⟨item, hitem, hitems⟩ := hback item' hitem'
      exact ⟨item, hitem, hitems.more⟩

/-- **Trees ask alike if their entries do**, field by field. -/
theorem asksAlike_assemble (shape : Shape ι) {given given' : List (Option (String × Entry ι))}
    (alike : List.Forall₂ (Option.Rel (LabelledAlike types)) given given') :
    AsksAlike types (Binder.assemble shape given) (Binder.assemble shape given') where
  isEmpty := by
    simp only [Node.isEmpty, Node.entries, Binder.assemble]
    induction alike with
    | nil => rfl
    | cons first _ ih =>
      cases first with
      | none => simpa using ih
      | some => rfl
  less := by
    refine asksLess_of_entries fun e he => ?_
    obtain ⟨_, hgiven, rfl⟩ := List.mem_filterMap.1 he
    obtain ⟨given', hgiven', halike⟩ := exists_of_mem_forall₂ alike hgiven
    cases halike with
    | some related => exact ⟨_, List.mem_filterMap.2 ⟨_, hgiven', rfl⟩, related.1, related.2.less⟩
  more := by
    refine asksLess_of_entries fun e' he' => ?_
    obtain ⟨_, hgiven', rfl⟩ := List.mem_filterMap.1 he'
    obtain ⟨given, hgiven, halike⟩ := exists_of_mem_forall₂ alike.flip hgiven'
    cases halike with
    | some related =>
      exact ⟨_, List.mem_filterMap.2 ⟨_, hgiven, rfl⟩, related.1.symm, related.2.more⟩

/-- Trees that ask alike compile alike, and what they compile to accepts the same records. -/
theorem AsksAlike.compile {node node' : Node ι} (alike : AsksAlike types node node') (k : κ) :
    ((∃ compiled, compile types k node = .ok compiled) ↔
      ∃ compiled', compile types k node' = .ok compiled') ∧
    ∀ compiled compiled', compile types k node = .ok compiled →
      compile types k node' = .ok compiled' →
      (compiled = none ↔ compiled' = none) ∧ ∀ r, Admits compiled r ↔ Admits compiled' r := by
  refine ⟨⟨?_, ?_⟩, fun compiled compiled' hcompiled hcompiled' => ?_⟩
  · rintro ⟨compiled, hcompiled⟩
    exact alike.more.compiles k compiled hcompiled
  · rintro ⟨compiled', hcompiled'⟩
    exact alike.less.compiles k compiled' hcompiled'
  · have hmeans := means_of_compile hcompiled
    have hmeans' := means_of_compile hcompiled'
    refine ⟨?_, fun r => ?_⟩
    · rw [hmeans.empty, hmeans'.empty]
      exact not_congr ⟨alike.less.contributes k, alike.more.contributes k⟩
    · rw [hmeans.admits r, hmeans'.admits r]
      exact ⟨alike.more.satisfied k r, alike.less.satisfied k r⟩

end AsksAlike

namespace Binder

variable {b : Binder} {shapes : ι → Shape ι} {q : Query} {σ : Equiv.Perm Nat} {base : Path}
  {n : Nat} {types : RecordTypes κ C}

/-! ## Fields -/

theorem leafRequests_reindexed (q : Query) (here : Path) (type : LeafType) :
    leafRequests q here type =
      leafRequests (q.reindexed σ base) (reindexPath σ base here) type := by
  cases type with
  | primitive type => simp only [leafRequests, requests, Query.get?_reindexed]
  | composite type =>
    simp only [leafRequests, requests, ← reindexPath_named, Query.get?_reindexed]

/-- Lists that are as long are closed together if their entries are, as far as they are within the
limit. -/
theorem closeList_together {here here' : Path} {length : Nat}
    {items items' : Except BindError (List (Node ι))}
    (together : length ≤ b.limits.maxListItems →
      Together (BothWays (AsksAlike types)) items items') :
    Together (Option.Rel (EntryAsksAlike types)) (b.closeList here length items)
      (b.closeList here' length items') := by
  by_cases hshort : length ≤ b.limits.maxListItems
  · rw [closeList_of_le hshort, closeList_of_le hshort]
    exact (together hshort).map fun _ _ => rel_listEntry
  · rw [closeList_of_lt (by omega), closeList_of_lt (by omega)]
    cases items <;> cases items' <;> exact .errors _ _

/-- The new index of an entry belongs to the list exactly if the old one does. -/
theorem indexAt_lt_iff (exact : ∀ i, q.Mentions (base ++ [.index i]) ↔ i < n)
    (permutes : ∀ i, σ i < n ↔ i < n) (here : Path) (i : Nat) :
    indexAt σ base here i < q.listLength here ↔ i < q.listLength here := by
  by_cases hhere : here = base
  · rw [hhere, indexAt, if_pos rfl, Query.listLength_eq_of_mentions exact, permutes]
  · rw [indexAt, if_neg hhere, Equiv.refl_apply]

theorem bindField_reindexed (exact : ∀ i, q.Mentions (base ++ [.index i]) ↔ i < n)
    (permutes : ∀ i, σ i < n ↔ i < n) {here : Path} {depth : Nat}
    (children : ∀ target p, q.reaches here = true → here <+: p →
      Together (AsksAlike types) (b.buildNode shapes q target p (depth + 1))
        (b.buildNode shapes (q.reindexed σ base) target (reindexPath σ base p) (depth + 1)))
    (role : Role ι) :
    Together (Option.Rel (EntryAsksAlike types)) (b.bindField shapes q here depth role)
      (b.bindField shapes (q.reindexed σ base) (reindexPath σ base here) depth role) := by
  cases role with
  | scalar type =>
    exact (bindScalar_sameOk (Query.get?_reindexed σ base q here none).symm type).together
      (rel_refl types)
  | leaf type =>
    exact (bindLeaf_sameOk_of_requests (leafRequests_reindexed q here type)).together
      (rel_refl types)
  | nested target =>
    simp only [bindField, Query.reaches_reindexed]
    split
    · rename_i hreached
      split
      · exact (children _ here hreached (List.prefix_refl _)).map fun _ _ => rel_nestedEntry
      · exact .errors _ _
    · exact .ok .none
  | list target =>
    simp only [bindField, Query.reaches_reindexed, Query.listLength_reindexed exact permutes]
    split
    · rename_i hreached
      split
      · refine closeList_together fun hshort => ?_
        rw [Nat.min_eq_left hshort]
        have hentry (i : Nat) := children (shapes target) (here ++ [.index i]) hreached
          (List.prefix_append _ _)
        simp only [reindexPath_index] at hentry
        have hrange := indexAt_lt_iff exact permutes here
        -- The entries are bound in another order, each of them at its new index.
        refine mapM_bothWays ⟨fun i hi => ?_, fun j hj => ?_⟩
        · exact ⟨_, List.mem_range.2 ((hrange i).2 (List.mem_range.1 hi)), hentry i⟩
        · refine ⟨(indexAt σ base here).symm j, ?_, ?_⟩
          · rw [List.mem_range, ← hrange, Equiv.apply_symm_apply]
            exact List.mem_range.1 hj
          · simpa only [Equiv.apply_symm_apply] using hentry ((indexAt σ base here).symm j)
      · exact .errors _ _
    · exact .ok .none

/-! ## Nodes -/

/-- **Under other indices of a list a node is bound or not as before**, to a tree that asks
alike. -/
theorem buildNode_reindexed (types : RecordTypes κ C) (b : Binder) (shapes : ι → Shape ι)
    (exact : ∀ i, q.Mentions (base ++ [.index i]) ↔ i < n) (permutes : ∀ i, σ i < n ↔ i < n)
    (shape : Shape ι) (path : Path) (depth : Nat) :
    Together (AsksAlike types) (b.buildNode shapes q shape path depth)
      (b.buildNode shapes (q.reindexed σ base) shape (reindexPath σ base path) depth) := by
  induction shape, path, depth using position_induct (q := q) with
  | step shape path depth ih =>
    rw [buildNode_eq, buildNode_eq]
    refine Together.map ?_ fun _ _ => asksAlike_assemble shape
    refine mapM_together fun field _ => ?_
    rw [← reindexPath_named]
    have hfield := bindField_reindexed exact permutes
      (fun target p hreached hbelow => ih field.name target p hreached hbelow) field.role
    refine hfield.map fun entry entry' halike => ?_
    cases halike with
    | none => exact .none
    | some related => exact .some ⟨rfl, related⟩

/-- **List indices are only labels.** Let the keys of a request use exactly the first `n` indices at
a path, where a list may stand, and let those be permuted in all keys. Then the new request is bound
exactly if the old one is; the trees compile alike; and they accept the same records. -/
theorem build_reindexed (b : Binder) (shapes : ι → Shape ι) (shape : Shape ι)
    {pairs pairs' : List (String × String)} {path base : Path} {n : Nat} {σ : Equiv.Perm Nat}
    (below : path <+: base)
    (exact : ∀ i, (Query.ofPairs pairs).Mentions (base ++ [.index i]) ↔ i < n)
    (permutes : ∀ i, σ i < n ↔ i < n)
    (renamed : List.Forall₂ (Query.PairReindexed σ base) pairs pairs') (types : RecordTypes κ C)
    (k : κ) :
    ((∃ node, b.build shapes shape (Query.ofPairs pairs) path = .ok node) ↔
      ∃ node', b.build shapes shape (Query.ofPairs pairs') path = .ok node') ∧
    ∀ node node', b.build shapes shape (Query.ofPairs pairs) path = .ok node →
      b.build shapes shape (Query.ofPairs pairs') path = .ok node' →
      ((∃ compiled, compile types k node = .ok compiled) ↔
        ∃ compiled', compile types k node' = .ok compiled') ∧
      ∀ compiled compiled', compile types k node = .ok compiled →
        compile types k node' = .ok compiled' →
        (compiled = none ↔ compiled' = none) ∧ ∀ r, Admits compiled r ↔ Admits compiled' r := by
  have htogether := buildNode_reindexed types b shapes exact permutes shape path 0
  rw [reindexPath_of_isPrefix below, ← Query.ofPairs_reindexed renamed] at htogether
  refine ⟨htogether.ok_iff, fun node node' hnode hnode' => ?_⟩
  exact (htogether.related hnode hnode').compile k

/-- The parts of the note that is answered. -/
def answeredParts : Path := [.field "answers", .field "parts"]

/-- Two of its parts are asked for; the list at the root is another one. -/
def partsPairs : List (String × String) :=
  [("answers[parts][0][title]", "Proofs"), ("answers[parts][1][tags]", "x"),
    ("parts[0][title]", "One")]

/-- The two parts have changed places. -/
def partsPairsSwapped : List (String × String) :=
  [("answers[parts][1][title]", "Proofs"), ("Answers[parts][0][tags]", "x"),
    ("parts[0][title]", "One")]

theorem mentions_partsPairs (i : Nat) :
    (Query.ofPairs partsPairs).Mentions (answeredParts ++ [.index i]) ↔ i < 2 := by
  have hkeys : (Query.ofPairs partsPairs).keys.map Key.segments =
      [answeredParts ++ [.index 0, .field "title"], answeredParts ++ [.index 1, .field "tags"],
        [.field "parts", .index 0, .field "title"]] := by
    decide +kernel
  have hmentions : (Query.ofPairs partsPairs).Mentions (answeredParts ++ [.index i]) ↔
      ∃ segments ∈ (Query.ofPairs partsPairs).keys.map Key.segments,
        answeredParts ++ [.index i] <+: segments := by
    simp [Query.Mentions]
  rw [hmentions, hkeys]
  simp [answeredParts]
  omega

theorem partsPairs_renamed : List.Forall₂ (Query.PairReindexed (Equiv.swap 0 1) answeredParts)
    partsPairs partsPairsSwapped :=
  Query.forall₂_pairReindexed (by decide +kernel) (by decide +kernel)

/-- The parts may be asked for in either order. -/
theorem build_reindexed_parts :
    (∀ i, (Query.ofPairs partsPairs).Mentions (answeredParts ++ [.index i]) ↔ i < 2) ∧
      (∀ i, Equiv.swap 0 1 i < 2 ↔ i < 2) ∧
      List.Forall₂ (Query.PairReindexed (Equiv.swap 0 1) answeredParts) partsPairs
        partsPairsSwapped ∧
      ∃ node node' p p',
        build {} noteShapes (noteShapes 0) (Query.ofPairs partsPairs) [] = .ok node ∧
        build {} noteShapes (noteShapes 0) (Query.ofPairs partsPairsSwapped) [] = .ok node' ∧
        compile noteTypes 0 node = .ok (some p) ∧ compile noteTypes 0 node' = .ok (some p') ∧
        ∀ r, p.accepts r = true ↔ p'.accepts r = true := by
  have hpermutes (i : Nat) : Equiv.swap 0 1 i < 2 ↔ i < 2 := by
    rw [Equiv.swap_apply_def]
    split
    · omega
    · split <;> omega
  have hrun : ((build {} noteShapes (noteShapes 0) (Query.ofPairs partsPairs)
      []).toOption.bind fun node => (compile noteTypes 0 node).toOption.map Option.isSome) =
      some true := by
    decide +kernel
  obtain ⟨node, hnode, hcompile⟩ := Option.bind_eq_some_iff.1 hrun
  obtain ⟨compiled, hcompiled, hsome⟩ := Option.map_eq_some_iff.1 hcompile
  rw [toOption_eq_some_iff] at hnode hcompiled
  obtain ⟨p, rfl⟩ := Option.isSome_iff_exists.1 hsome
  obtain ⟨hbuild, halike⟩ := build_reindexed {} noteShapes (noteShapes 0)
    (List.nil_prefix) mentions_partsPairs hpermutes partsPairs_renamed noteTypes 0
  obtain ⟨node', hnode'⟩ := hbuild.1 ⟨node, hnode⟩
  obtain ⟨hcompiles, hadmits⟩ := halike node node' hnode hnode'
  obtain ⟨compiled', hcompiled'⟩ := hcompiles.1 ⟨some p, hcompiled⟩
  obtain ⟨hnone, hsame⟩ := hadmits (some p) compiled' hcompiled hcompiled'
  obtain ⟨p', rfl⟩ : ∃ p', compiled' = some p' := by
    cases compiled' with
    | none => cases hnone.2 rfl
    | some p' => exact ⟨p', rfl⟩
  refine ⟨mentions_partsPairs, hpermutes, partsPairs_renamed, node, node', p, p', hnode, hnode',
    hcompiled, hcompiled', fun r => ?_⟩
  simpa using hsame r

end Binder

end BracketFilter
