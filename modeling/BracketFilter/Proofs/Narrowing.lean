import BracketFilter.Proofs.BindingMonotone
import BracketFilter.Proofs.CompileMeaning

/-!
# A further constraint never widens the result

* `exists_counterpart` — an entry of a tree within another has its counterpart there.
* `AsksLess`, `EntryAsksLess` — a tree, or an entry, contributes no more than another, is satisfied
  wherever the other is, and compiles wherever the other does; `asksLess_of_within` — so does each
  tree within the other.

Principal result: `insertRaw_never_widens` — if a query with a key that is new is bound and
compiles, so does the query without it, and it accepts every record that is accepted with the key.
-/

set_option autoImplicit false

namespace BracketFilter

variable {ι κ : Type} {C : κ → Type}

/-! ## Counterparts -/

/-- An entry of a tree within another has its counterpart there, on the same field. -/
theorem exists_counterpart {entries entries' : List (String × Entry ι)}
    (h : EntriesWithin entries entries') {e : String × Entry ι} (he : e ∈ entries) :
    ∃ e' ∈ entries', e'.1 = e.1 ∧ EntryWithin e.2 e'.2 := by
  induction entries' generalizing entries with
  | nil =>
    cases h
    cases he
  | cons e' rest' ih =>
    cases h with
    | missing rest =>
      obtain ⟨e', he', hcounterpart⟩ := ih rest he
      exact ⟨e', List.mem_cons_of_mem _ he', hcounterpart⟩
    | kept within rest =>
      rcases List.mem_cons.1 he with rfl | he
      · exact ⟨_, List.mem_cons_self, rfl, within⟩
      · obtain ⟨e', he', hcounterpart⟩ := ih rest he
        exact ⟨e', List.mem_cons_of_mem _ he', hcounterpart⟩

theorem exists_item_counterpart {items items' : List (Node ι)} (h : ItemsWithin items items')
    {item : Node ι} (hitem : item ∈ items) : ∃ item' ∈ items', item.Within item' := by
  induction items generalizing items' with
  | nil => cases hitem
  | cons first rest ih =>
    cases h with
    | cons within hrest =>
      rcases List.mem_cons.1 hitem with rfl | hitem
      · exact ⟨_, List.mem_cons_self, within⟩
      · obtain ⟨item', hitem', hwithin⟩ := ih hrest hitem
        exact ⟨item', List.mem_cons_of_mem _ hitem', hwithin⟩

/-! ## Smaller trees ask for less -/

/-- A tree asks for no more than another: it contributes nothing that the other does not, is
satisfied wherever the other is, and compiles wherever the other does. -/
structure AsksLess (types : RecordTypes κ C) (node node' : Node ι) : Prop where
  contributes : ∀ k, Contributes types k node → Contributes types k node'
  satisfied : ∀ k r, Satisfies types k r node' → Satisfies types k r node
  compiles : ∀ k compiled', compile types k node' = .ok compiled' →
    ∃ compiled, compile types k node = .ok compiled

/-- An entry asks for no more than another, whatever its field is called. -/
structure EntryAsksLess (types : RecordTypes κ C) (entry entry' : Entry ι) : Prop where
  contributes : ∀ k name, EntryContributes types k name entry → EntryContributes types k name entry'
  holds : ∀ k r name, EntryHolds types k r name entry' → EntryHolds types k r name entry
  compiles : ∀ k name parts', EntryCompiled types (CompilesTo types) k name entry' parts' →
    ∃ parts, EntryCompiled types (CompilesTo types) k name entry parts

section Entries

variable {types : RecordTypes κ C}

theorem EntryAsksLess.refl (types : RecordTypes κ C) (entry : Entry ι) :
    EntryAsksLess types entry entry where
  contributes := fun _ _ h => h
  holds := fun _ _ _ h => h
  compiles := fun _ _ parts h => ⟨parts, h⟩

theorem entryAsksLess_leaf {type : LeafType} {operations operations' : List Applied}
    (fewer : operations.Sublist operations') :
    EntryAsksLess types (.leaf ⟨type, operations⟩ : Entry ι) (.leaf ⟨type, operations'⟩) where
  contributes := by
    intro k name h
    cases h with
    | leaf has asked => exact .leaf has (fewer.subset asked)
  holds := by
    intro k r name h
    cases h with
    | lacking lacks => exact .lacking lacks
    | leaf has holds =>
      refine .leaf has ?_
      generalize (RecordField.access _ : Access κ C (C k)) = access at holds ⊢
      cases holds with
      | value each => exact .value fun applied hmem => each applied (fewer.subset hmem)
      | values each => exact .values fun applied hmem => each applied (fewer.subset hmem)
      | composite each => exact .composite fun applied hmem => each applied (fewer.subset hmem)
  compiles := by
    intro k name parts' h
    cases h with
    | lacking lacks => exact ⟨[], .lacking lacks⟩
    | leaf has compiled =>
      generalize haccess : (RecordField.access _ : Access κ C (C k)) = access at compiled
      cases compiled with
      | value primitive fits each =>
        obtain ⟨parts, -, hparts⟩ := exists_sublist_forall₂ fewer each
        exact ⟨parts, .leaf has (haccess ▸ .value primitive fits hparts)⟩
      | values primitive fits each =>
        obtain ⟨parts, -, hparts⟩ := exists_sublist_forall₂ fewer each
        exact ⟨parts, .leaf has (haccess ▸ .values primitive fits hparts)⟩
      | composite each =>
        obtain ⟨parts, -, hparts⟩ := exists_sublist_forall₂ fewer each
        exact ⟨parts, .leaf has (haccess ▸ .composite hparts)⟩

theorem entryAsksLess_nested {child child' : Node ι} (less : AsksLess types child child') :
    EntryAsksLess types (.nested child) (.nested child') where
  contributes := by
    intro k name h
    cases h with
    | nested has reads inner => exact .nested has reads (less.contributes _ inner)
  holds := by
    intro k r name h
    cases h with
    | lacking lacks => exact .lacking lacks
    | silent has reads silent =>
      exact .silent has reads fun hcontributes => silent (less.contributes _ hcontributes)
    | nested has reads present inner => exact .nested has reads present (less.satisfied _ _ inner)
  compiles := by
    intro k name parts' h
    cases h with
    | lacking lacks => exact ⟨[], .lacking lacks⟩
    | nested has reads compiled =>
      obtain ⟨p, hp⟩ := less.compiles _ _ compiled
      exact ⟨_, .nested has reads hp⟩

/-- The filters of a list ask for no more if each of them asks for no more than one of the other
list. -/
theorem entryAsksLess_list {items items' : List (Node ι)}
    (each : ∀ item ∈ items, ∃ item' ∈ items', AsksLess types item item') :
    EntryAsksLess types (.list items) (.list items') where
  contributes := by
    intro k name h
    cases h with
    | list has reads mem inner =>
      obtain ⟨item', hitem', hless⟩ := each _ mem
      exact .list has reads hitem' (hless.contributes _ inner)
  holds := by
    intro k r name h
    cases h with
    | lacking lacks => exact .lacking lacks
    | list has reads hholds =>
      refine .list has reads fun item hitem => ?_
      obtain ⟨item', hitem', hless⟩ := each item hitem
      cases hholds item' hitem' with
      | silent silent => exact .silent fun hcontributes => silent (hless.contributes _ hcontributes)
      | some mem inner => exact .some mem (hless.satisfied _ _ inner)
  compiles := by
    intro k name parts' h
    cases h with
    | lacking lacks => exact ⟨[], .lacking lacks⟩
    | @list _ field target read ps' has reads compiled =>
      have hcompile : ∀ item ∈ items, ∃ p, CompilesTo types target item p := by
        intro item hitem
        obtain ⟨item', hitem', hless⟩ := each item hitem
        obtain ⟨p', -, hp'⟩ := exists_of_mem_forall₂ compiled hitem'
        exact hless.compiles _ _ hp'
      obtain ⟨ps, hps⟩ := exists_forall₂_of_forall_mem hcompile
      exact ⟨_, .list has reads hps⟩

/-- A tree asks for no more if each of its entries asks for no more than one of the other tree, on
the same field. -/
theorem asksLess_of_entries {node node' : Node ι}
    (each : ∀ e ∈ node.entries, ∃ e' ∈ node'.entries, e'.1 = e.1 ∧ EntryAsksLess types e.2 e'.2) :
    AsksLess types node node' where
  contributes := by
    rintro k ⟨mem, entry⟩
    obtain ⟨e', he', hname, hless⟩ := each _ mem
    exact .mk he' (hname ▸ hless.contributes _ _ entry)
  satisfied := by
    rintro k r ⟨holds⟩
    refine .mk fun e he => ?_
    obtain ⟨e', he', hname, hless⟩ := each e he
    exact hless.holds _ _ _ (hname ▸ holds e' he')
  compiles := by
    intro k compiled' hcompiled'
    obtain ⟨pss', hpss', -⟩ := compile_ok_iff.1 hcompiled'
    have hcompile : ∀ e ∈ node.entries, ∃ parts,
        EntryCompiled types (CompilesTo types) k e.1 e.2 parts := by
      intro e he
      obtain ⟨e', he', hname, hless⟩ := each e he
      obtain ⟨parts', -, hparts'⟩ := exists_of_mem_forall₂ hpss' he'
      exact hless.compiles _ _ _ (hname ▸ hparts')
    obtain ⟨pss, hpss⟩ := exists_forall₂_of_forall_mem hcompile
    exact ⟨_, compile_ok_iff.2 ⟨pss, hpss, rfl⟩⟩

theorem entryAsksLess_of_within {entry entry' : Entry ι} (within : EntryWithin entry entry')
    (children : ∀ child' ∈ entry'.children, ∀ child : Node ι, child.Within child' →
      AsksLess types child child') : EntryAsksLess types entry entry' := by
  cases within with
  | scalar => exact .refl types _
  | leaf fewer => exact entryAsksLess_leaf fewer
  | nested within => exact entryAsksLess_nested (children _ (List.mem_singleton.2 rfl) _ within)
  | list within =>
    refine entryAsksLess_list fun item hitem => ?_
    obtain ⟨item', hitem', hwithin⟩ := exists_item_counterpart within hitem
    exact ⟨item', hitem', children item' hitem' item hwithin⟩

end Entries

/-- **A tree within another asks for no more.** -/
theorem asksLess_of_within (types : RecordTypes κ C) {node node' : Node ι}
    (h : node.Within node') : AsksLess types node node' := by
  induction node' using Node.induct generalizing node with
  | step node' ih =>
    obtain ⟨entries⟩ := h
    refine asksLess_of_entries fun e he => ?_
    obtain ⟨e', he', hname, hwithin⟩ := exists_counterpart entries he
    exact ⟨e', he', hname, entryAsksLess_of_within hwithin fun child' hchild' child =>
      ih e' he' child' hchild'⟩

/-! ## Keys that are added -/

/-- **A further constraint never widens the result.** If a query with a key that is new is bound and
compiles, so does the query without it, and it accepts each record that is accepted with the key. -/
theorem insertRaw_never_widens {types : RecordTypes κ C} {k : κ} {b : Binder}
    {shapes : ι → Shape ι} {shape : Shape ι} {q : Query} {path : Path} {raw value : String}
    {key : Key} {node' : Node ι} {compiled' : Option (PurePredicate (C k))}
    (parsed : Key.parse? raw = some key) (fresh : key ∉ q.keys)
    (built : b.build shapes shape (q.insertRaw (raw, value)) path = .ok node')
    (compiles : compile types k node' = .ok compiled') :
    ∃ node compiled, b.build shapes shape q path = .ok node ∧
      compile types k node = .ok compiled ∧ ∀ r, Admits compiled' r → Admits compiled r := by
  obtain ⟨node, hnode, hwithin⟩ :=
    exists_build_within (Query.extends_insertRaw parsed fresh) built
  have hless := asksLess_of_within types hwithin
  obtain ⟨compiled, hcompiled⟩ := hless.compiles k compiled' compiles
  refine ⟨node, compiled, hnode, hcompiled, fun r hr => ?_⟩
  rw [(means_of_compile compiles).admits] at hr
  rw [(means_of_compile hcompiled).admits]
  exact hless.satisfied k r hr

/-- The filter on the second part is behind a gap. -/
def noteQuery : Query := Query.ofPairs [("tags[nin]", "old"), ("parts[1][title]", "two")]

theorem insertRaw_never_widens_notes :
    ∃ key node' compiled' node compiled, Key.parse? "parts[0][title]" = some key ∧
      key ∉ noteQuery.keys ∧
      Binder.build {} noteShapes (noteShapes 0) (noteQuery.insertRaw ("parts[0][title]", "one"))
        [] = .ok node' ∧
      compile noteTypes 0 node' = .ok compiled' ∧
      Binder.build {} noteShapes (noteShapes 0) noteQuery [] = .ok node ∧
      compile noteTypes 0 node = .ok compiled ∧
      ∀ r, Admits compiled' r → Admits compiled r := by
  have hparse : Key.parse? "parts[0][title]" =
      some ⟨[.field "parts", .index 0, .field "title"], none⟩ := by decide +kernel
  have hfresh : (⟨[.field "parts", .index 0, .field "title"], none⟩ : Key) ∉ noteQuery.keys := by
    decide +kernel
  have hrun : ((Binder.build {} noteShapes (noteShapes 0)
      (noteQuery.insertRaw ("parts[0][title]", "one")) []).toOption.bind fun node' =>
        (compile noteTypes 0 node').toOption.map Option.isSome) = some true := by decide +kernel
  obtain ⟨node', hnode', hcompile⟩ := Option.bind_eq_some_iff.1 hrun
  obtain ⟨compiled', hcompiled', -⟩ := Option.map_eq_some_iff.1 hcompile
  rw [toOption_eq_some_iff] at hnode' hcompiled'
  obtain ⟨node, compiled, hnode, hcompiled, hnarrower⟩ :=
    insertRaw_never_widens hparse hfresh hnode' hcompiled'
  exact ⟨_, node', compiled', node, compiled, hparse, hfresh, hnode', hcompiled', hnode, hcompiled,
    hnarrower⟩

end BracketFilter
