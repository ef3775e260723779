import BracketFilter.Proofs.BindingReads
import BracketFilter.Proofs.Coverage
import BracketFilter.Proofs.Narrowing

/-!
# A query is the conjunction of its keys

* `Query.SplitInto` — a query has the keys of some others together, each with its value.
* `ReachesList` — a key reaches a list when its segments are resolved from a shape.
* `FiltersTo` — what a query is bound and compiled to.

Principal results: `coveredBy_of_build` — the tree of a query that reaches no list is made up of the
trees of the queries that it is split into; `admits_iff_each_key` — a record is accepted exactly if
it is accepted for every key alone, and for every way to split the query.
-/

set_option autoImplicit false

namespace BracketFilter

variable {ι κ : Type} {C : κ → Type}

/-! ## Splitting a query -/

namespace Query

variable {q part : Query} {parts : List Query}

/-- The query has the keys of the parts together, each with its value. -/
def SplitInto (q : Query) (parts : List Query) : Prop :=
  ∀ entry, entry ∈ q.entries ↔ ∃ part ∈ parts, entry ∈ part.entries

/-- The query with one key. -/
def single (entry : Key × String) : Query := empty.insert entry.1 entry.2

theorem splitInto_singles (q : Query) : q.SplitInto (q.entries.map single) := by
  intro entry
  simp only [List.mem_map, exists_exists_and_eq_and]
  constructor
  · intro hentry
    exact ⟨entry, hentry, List.mem_singleton_self _⟩
  · rintro ⟨entry', hentry', hmem⟩
    cases List.mem_singleton.1 hmem
    exact hentry'

/-- A query with some of the keys of a query is extended by it. A bare key that has been read from a
text does not stand for an operation, so that it hides no key that does. -/
theorem extends_of_subset (settled : q.Settled)
    (subset : ∀ entry ∈ part.entries, entry ∈ q.entries) : part.Extends q where
  get? := by
    intro path op raw h
    rw [get?_eq_some_iff] at h ⊢
    rcases h with hentry | ⟨-, rfl, key, has, hentry⟩
    · exact .inl (subset _ hentry)
    · refine .inr ⟨fun hbare => ?_, rfl, key, has, subset _ hentry⟩
      rw [(settled _ hbare).bare rfl] at has
      cases has
  reaches := by
    intro path h
    rw [reaches_iff] at h ⊢
    obtain ⟨key, hkey, hbelow⟩ := h
    obtain ⟨entry, hentry, rfl⟩ := List.mem_map.1 hkey
    exact ⟨entry.1, List.mem_map_of_mem (subset entry hentry), hbelow⟩

theorem SplitInto.extends (split : q.SplitInto parts) (settled : q.Settled) (hpart : part ∈ parts) :
    part.Extends q :=
  extends_of_subset settled fun entry hentry => (split entry).2 ⟨part, hpart, hentry⟩

theorem SplitInto.exists_get? (split : q.SplitInto parts) {path : Path} {op : Option Operation}
    {raw : String} (h : q.get? path op = some raw) :
    ∃ part ∈ parts, part.get? path op = some raw := by
  simp only [get?_eq_some_iff] at h ⊢
  rcases h with hentry | ⟨hmissing, rfl, key, has, hentry⟩
  · obtain ⟨part, hpart, hentry⟩ := (split _).1 hentry
    exact ⟨part, hpart, .inl hentry⟩
  · obtain ⟨part, hpart, hentry⟩ := (split _).1 hentry
    refine ⟨part, hpart, .inr ⟨fun hbare => hmissing ?_, rfl, key, has, hentry⟩⟩
    obtain ⟨entry, hmem, hkey⟩ := List.mem_map.1 hbare
    exact hkey ▸ List.mem_map_of_mem ((split entry).2 ⟨part, hpart, hmem⟩)

end Query

/-- A key reaches a list when its segments are resolved from a shape at a path. -/
inductive ReachesList (shapes : ι → Shape ι) (segments : Path) : Shape ι → Path → Prop
  | here {shape : Shape ι} {path : Path} {field : FieldShape ι} {target : ι}
      (mem : field ∈ shape.fields) (list : field.role = .list target)
      (below : path ++ [.named field.name] <+: segments) :
      ReachesList shapes segments shape path
  | nested {shape : Shape ι} {path : Path} {field : FieldShape ι} {target : ι}
      (mem : field ∈ shape.fields) (nested : field.role = .nested target)
      (inner : ReachesList shapes segments (shapes target) (path ++ [.named field.name])) :
      ReachesList shapes segments shape path

/-! ## Binding the parts -/

section Binding

variable {b : Binder} {shapes : ι → Shape ι} {q : Query} {parts : List Query}

/-- The trees that the parts that reach a path are bound to there. -/
def BoundParts (b : Binder) (shapes : ι → Shape ι) (parts : List Query) (shape : Shape ι)
    (path : Path) (depth : Nat) (member : Node ι) : Prop :=
  ∃ part ∈ parts, part.reaches path = true ∧ Binder.Builds b shapes part shape path depth member

theorem entriesOf_boundParts (settled : q.Settled) (split : q.SplitInto parts) {shape : Shape ι}
    {path : Path} {depth : Nat} {node : Node ι}
    (h : b.buildNode shapes q shape path depth = .ok node) {part : Query} (hpart : part ∈ parts)
    (reached : part.reaches path = true)
    {field : FieldShape ι} (hfield : field ∈ shape.fields) {entry : Entry ι}
    (gives : b.bindField shapes part (path ++ [.named field.name]) depth field.role =
      .ok (some entry)) :
    entriesOf (BoundParts b shapes parts shape path depth) field.name entry := by
  obtain ⟨member, hmember, -⟩ := exists_build_within (split.extends settled hpart) h
  exact ⟨member, ⟨part, hpart, reached, hmember⟩,
    (Binder.mem_entries_iff hmember).2 ⟨field, hfield, rfl, gives⟩⟩

/-- Every operation on a leaf is on the leaf of a part that reaches the record of the leaf. -/
theorem exists_part_of_bindLeaf (settled : q.Settled) (split : q.SplitInto parts) {path : Path}
    {name : String} {type : LeafType} {leaf : Leaf}
    (h : b.bindLeaf q (path ++ [.named name]) type = .ok (some (.leaf leaf) : Option (Entry ι)))
    {applied : Applied} (happlied : applied ∈ leaf.operations) :
    ∃ part ∈ parts, part.reaches path = true ∧ ∃ leaf', applied ∈ leaf'.operations ∧
      b.bindLeaf part (path ++ [.named name]) type =
        .ok (some (.leaf leaf') : Option (Entry ι)) := by
  obtain ⟨⟨member, op, raw⟩, hrequest, hanswer⟩ :=
    (Binder.mem_operations_iff h).1 ⟨leaf, rfl, happlied⟩
  obtain ⟨p, lookup, hoperand, hlookup, hop, hfound⟩ := Binder.mem_leafRequests_iff.1 hrequest
  obtain ⟨part, hpart, hfound⟩ := split.exists_get? hfound
  have hreached := Query.reaches_of_get? hfound (Binder.isPrefix_of_mem_operands hoperand)
  obtain ⟨entry, hentry, -⟩ := exists_bindLeaf_within (split.extends settled hpart) h
  have hrequest := Binder.mem_leafRequests_iff.2 ⟨p, lookup, hoperand, hlookup, hop, hfound⟩
  obtain ⟨leaf', rfl, happlied'⟩ := (Binder.mem_operations_iff hentry).2 ⟨_, hrequest, hanswer⟩
  exact ⟨part, hpart, hreached, leaf', happlied', hentry⟩

/-- **The tree of a query that reaches no list is made up of the trees of its parts.** -/
theorem coveredBy_of_build (settled : q.Settled) (split : q.SplitInto parts) {shape : Shape ι}
    {path : Path} {depth : Nat} {node : Node ι}
    (noList : ∀ key ∈ q.keys, ¬ ReachesList shapes key.segments shape path)
    (h : b.buildNode shapes q shape path depth = .ok node) :
    node.CoveredBy (BoundParts b shapes parts shape path depth) := by
  induction shape, path, depth using Binder.position_induct (q := q) generalizing node with
  | step shape path depth ih =>
    refine .mk ?_
    rintro ⟨_, entry⟩ he
    obtain ⟨⟨name, role⟩, hfield, rfl, hgives⟩ := (Binder.mem_entries_iff h).1 he
    cases role with
    | scalar type =>
      rcases Binder.bindScalar_ok_iff.1 hgives with ⟨-, hnone⟩ | ⟨_, _, -, -, hsome⟩
      · cases hnone
      · cases hsome
        exact .scalar
    | leaf type =>
      obtain ⟨leaf, rfl⟩ := Binder.exists_leaf_of_bindLeaf hgives
      refine .leaf fun applied happlied => ?_
      obtain ⟨part, hpart, hreached, leaf', happlied', hleaf'⟩ :=
        exists_part_of_bindLeaf settled split hgives happlied
      exact ⟨leaf', entriesOf_boundParts settled split h hpart hreached hfield hleaf', happlied'⟩
    | nested target =>
      obtain ⟨hreached, hwithin, child, hchild, hne, rfl⟩ :=
        Binder.bindField_nested_eq_some_iff.1 hgives
      refine .nested ((ih name _ _ hreached (List.prefix_refl _) ?_ hchild).imp ?_)
      · exact fun key hkey hinner => noList key hkey (.nested hfield rfl hinner)
      · -- The tree of a part for the embedded filter is an entry of its tree, unless it is empty.
        rintro member ⟨part, hpart, hreached', hmember⟩ hne'
        refine entriesOf_boundParts settled split h hpart ?_ hfield ?_
        · have hmentioned := Query.reaches_iff_mentions.1 hreached'
          exact Query.reaches_iff_mentions.2 (hmentioned.of_isPrefix (List.prefix_append _ _))
        · exact Binder.bindField_nested_eq_some_iff.2
            ⟨hreached', hwithin, member, hmember, hne', rfl⟩
    | list target =>
      have hunreached : q.reaches (path ++ [.named name]) = false := by
        rw [Bool.eq_false_iff]
        intro hreached
        obtain ⟨key, hkey, hbelow⟩ := Query.reaches_iff.1 hreached
        exact noList key hkey (.here hfield rfl hbelow)
      simp [Binder.bindField, hunreached] at hgives

end Binding

/-! ## Filtering by the parts -/

/-- A query is bound for a shape at a path, and its tree compiles for the records of a type. -/
def FiltersTo (types : RecordTypes κ C) (k : κ) (b : Binder) (shapes : ι → Shape ι)
    (shape : Shape ι) (path : Path) (q : Query) (compiled : Option (PurePredicate (C k))) : Prop :=
  ∃ node, b.build shapes shape q path = .ok node ∧ compile types k node = .ok compiled

section Filtering

variable {types : RecordTypes κ C} {k : κ} {b : Binder} {shapes : ι → Shape ι} {shape : Shape ι}
  {path : Path} {q : Query} {parts : List Query} {compiled : Option (PurePredicate (C k))}

theorem FiltersTo.unique {compiled' : Option (PurePredicate (C k))}
    (h : FiltersTo types k b shapes shape path q compiled)
    (h' : FiltersTo types k b shapes shape path q compiled') : compiled = compiled' := by
  obtain ⟨node, hnode, hcompiled⟩ := h
  obtain ⟨node', hnode', hcompiled'⟩ := h'
  cases hnode.symm.trans hnode'
  exact Except.ok.inj (hcompiled.symm.trans hcompiled')

/-- A query that another extends filters as well, and keeps what the other keeps. -/
theorem exists_filtersTo_of_extends {part : Query} (more : part.Extends q)
    (filters : FiltersTo types k b shapes shape path q compiled) :
    ∃ compiled', FiltersTo types k b shapes shape path part compiled' ∧
      ∀ r, Admits compiled r → Admits compiled' r := by
  obtain ⟨node, hnode, hcompiled⟩ := filters
  obtain ⟨node', hnode', hwithin⟩ := exists_build_within more hnode
  have hless := asksLess_of_within types hwithin
  obtain ⟨compiled', hcompiled'⟩ := hless.compiles k compiled hcompiled
  refine ⟨compiled', ⟨node', hnode', hcompiled'⟩, fun r hr => ?_⟩
  rw [(means_of_compile hcompiled).admits] at hr
  rw [(means_of_compile hcompiled').admits]
  exact hless.satisfied k r hr

/-- A record is accepted exactly if it is accepted for every part of the query. -/
theorem admits_iff_each_part (settled : q.Settled) (split : q.SplitInto parts)
    (noList : ∀ key ∈ q.keys, ¬ ReachesList shapes key.segments shape path)
    (filters : FiltersTo types k b shapes shape path q compiled) :
    (∀ part ∈ parts, ∃ compiled', FiltersTo types k b shapes shape path part compiled') ∧
      ∀ r, Admits compiled r ↔ ∀ part ∈ parts, ∀ compiled',
        FiltersTo types k b shapes shape path part compiled' → Admits compiled' r := by
  have each {part : Query} (hpart : part ∈ parts) :=
    exists_filtersTo_of_extends (split.extends settled hpart) filters
  refine ⟨fun part hpart => ?_, fun r => ⟨fun hr part hpart compiled' hfilters => ?_, fun hr => ?_⟩⟩
  · obtain ⟨compiled', hfilters, -⟩ := each hpart
    exact ⟨compiled', hfilters⟩
  · obtain ⟨_, hfilters', hless⟩ := each hpart
    cases hfilters.unique hfilters'
    exact hless r hr
  · obtain ⟨node, hnode, hcompiled⟩ := filters
    rw [(means_of_compile hcompiled).admits]
    refine satisfies_of_covered (coveredBy_of_build settled split noList hnode) hcompiled ?_
    rintro member ⟨part, hpart, -, hmember⟩
    obtain ⟨compiled', ⟨_, hnode', hcompiled'⟩, -⟩ := each hpart
    cases hnode'.symm.trans hmember
    refine ⟨⟨_, hcompiled'⟩, ?_⟩
    rw [← (means_of_compile hcompiled').admits]
    exact hr part hpart compiled' ⟨_, hnode', hcompiled'⟩

/-- **A query that reaches no list is the conjunction of its keys.** If it is bound and compiles, so
does the query of every key alone, and a record is accepted exactly if every one of these accepts
it; likewise for every way to put the keys, each with its value, into groups in any order. -/
theorem admits_iff_each_key {pairs : List (String × String)}
    (noList : ∀ key ∈ (Query.ofPairs pairs).keys, ¬ ReachesList shapes key.segments shape path)
    (filters : FiltersTo types k b shapes shape path (Query.ofPairs pairs) compiled) :
    ((∀ entry ∈ (Query.ofPairs pairs).entries, ∃ alone,
        FiltersTo types k b shapes shape path (Query.single entry) alone) ∧
      ∀ r, Admits compiled r ↔ ∀ entry ∈ (Query.ofPairs pairs).entries, ∀ alone,
        FiltersTo types k b shapes shape path (Query.single entry) alone → Admits alone r) ∧
    ∀ parts, (Query.ofPairs pairs).SplitInto parts →
      (∀ part ∈ parts, ∃ compiled', FiltersTo types k b shapes shape path part compiled') ∧
        ∀ r, Admits compiled r ↔ ∀ part ∈ parts, ∀ compiled',
          FiltersTo types k b shapes shape path part compiled' → Admits compiled' r := by
  have settled := Query.settled_ofPairs pairs
  refine ⟨?_, fun parts split => admits_iff_each_part settled split noList filters⟩
  simpa only [List.forall_mem_map] using
    admits_iff_each_part settled (Query.splitInto_singles _) noList filters

end Filtering

theorem not_reachesList_notes {segments : Path} (h : Segment.named "parts" ∉ segments)
    (path : Path) : ¬ ReachesList noteShapes segments (noteShapes 0) path := by
  intro hreaches
  generalize hshape : noteShapes 0 = shape at hreaches
  induction hreaches with
  | @here _ _ field _ mem list below =>
    subst hshape
    have hname : field.name = "parts" := by
      simp only [noteShapes, List.mem_cons, List.not_mem_nil, or_false] at mem
      rcases mem with rfl | rfl | rfl | rfl | rfl | rfl <;> cases list
      rfl
    rw [hname] at below
    exact h (below.subset (by simp))
  | nested mem nested inner ih => exact ih rfl

/-- One membership lists nothing, and two keys ask for the note that is answered. -/
def answerPairs : List (String × String) :=
  [("answers[title][sw]", "On"), ("tags[in]", " ,"), ("author[name]", "Ada"),
    ("Answers[Tags]", "new")]

theorem admits_iff_each_key_notes :
    (∀ key ∈ (Query.ofPairs answerPairs).keys,
      ¬ ReachesList noteShapes key.segments (noteShapes 0) []) ∧
    ∃ compiled, FiltersTo noteTypes 0 {} noteShapes (noteShapes 0) [] (Query.ofPairs answerPairs)
        compiled ∧
      Admits compiled { note with answers := some note } ∧ ¬ Admits compiled note ∧
      (∀ entry ∈ (Query.ofPairs answerPairs).entries, ∃ alone,
        FiltersTo noteTypes 0 {} noteShapes (noteShapes 0) [] (Query.single entry) alone) ∧
      ∀ r, Admits compiled r ↔ ∀ entry ∈ (Query.ofPairs answerPairs).entries, ∀ alone,
        FiltersTo noteTypes 0 {} noteShapes (noteShapes 0) [] (Query.single entry) alone →
          Admits alone r := by
  have hnoList : ∀ key ∈ (Query.ofPairs answerPairs).keys,
      ¬ ReachesList noteShapes key.segments (noteShapes 0) [] := by
    have hsegments : ∀ key ∈ (Query.ofPairs answerPairs).keys,
        Segment.named "parts" ∉ key.segments := by decide +kernel
    exact fun key hkey => not_reachesList_notes (hsegments key hkey) []
  have hrun : ((Binder.build {} noteShapes (noteShapes 0) (Query.ofPairs answerPairs)
      []).toOption.bind fun node => (compile noteTypes 0 node).toOption.bind fun compiled =>
        compiled.map fun p => (p.accepts { note with answers := some note }, p.accepts note)) =
      some (true, false) := by decide +kernel
  obtain ⟨node, hnode, hcompile⟩ := Option.bind_eq_some_iff.1 hrun
  obtain ⟨_, hcompiled, hsome⟩ := Option.bind_eq_some_iff.1 hcompile
  obtain ⟨p, rfl, haccepts⟩ := Option.map_eq_some_iff.1 hsome
  rw [toOption_eq_some_iff] at hnode hcompiled
  simp only [Prod.mk.injEq] at haccepts
  have hfilters : FiltersTo noteTypes 0 {} noteShapes (noteShapes 0) []
      (Query.ofPairs answerPairs) (some p) := ⟨node, hnode, hcompiled⟩
  refine ⟨hnoList, some p, hfilters, admits_some.2 haccepts.1, ?_,
    (admits_iff_each_key hnoList hfilters).1⟩
  rw [admits_some, haccepts.2]
  simp

end BracketFilter
