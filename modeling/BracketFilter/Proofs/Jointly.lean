import BracketFilter.Proofs.BindingFailure
import BracketFilter.Proofs.Readings

/-!
# One key in place of several

Two operations at one path, of which the first is given a list of values and the second any one of
them: a membership and the comparison with its members.

* `Jointly` — a result is there exactly if each of a family of results is, and is related to them.
* `CarriesTo`, `EntryCarriesTo` — a tree, or an entry, carries over to another, which contributes
  and compiles wherever it does.
* `CompileAlike`, `EntryCompileAlike` — two trees, or two entries, carry over to each other.
* `Operation.ListsFor` — an operation takes a list of what another takes one by one.

Principal results: `mapM_jointly` — traversals are related so if their steps are;
`buildNode_jointly` — the tree of a membership is bound exactly if the trees of the comparisons with
its members are, and compiles as they do.
-/

set_option autoImplicit false

namespace BracketFilter

open BracketFilter.Text

/-! ## Results in place of several -/

section Jointly

variable {α β γ δ ε σ τ : Type}

/-- A result is there exactly if each of a family of results is, and then is related to each. -/
structure Jointly (R : α → β → Prop) (ts : List τ) (x : Except ε α) (ys : τ → Except ε β) :
    Prop where
  ok_iff : (∃ a, x = .ok a) ↔ ∀ t ∈ ts, ∃ b, ys t = .ok b
  related : ∀ a, x = .ok a → ∀ t ∈ ts, ∀ b, ys t = .ok b → R a b

variable {R : α → β → Prop} {ts : List τ}

theorem Jointly.ok {a : α} {b : β} (related : R a b) :
    Jointly R ts (.ok a : Except ε α) fun _ => .ok b where
  ok_iff := ⟨fun _ _ _ => ⟨b, rfl⟩, fun _ => ⟨a, rfl⟩⟩
  related := by
    intro a' ha' t _ b' hb'
    cases ha'
    cases hb'
    exact related

theorem Jointly.of_errors (nonempty : ts ≠ []) {x : Except ε α} {ys : τ → Except ε β}
    (fails : ∀ a, x ≠ .ok a) (each : ∀ t b, ys t ≠ .ok b) : Jointly R ts x ys where
  ok_iff := by
    constructor
    · rintro ⟨a, ha⟩
      exact absurd ha (fails a)
    · intro hall
      obtain ⟨t, ht⟩ := List.exists_mem_of_ne_nil ts nonempty
      obtain ⟨b, hb⟩ := hall t ht
      exact absurd hb (each t b)
  related := fun a ha => absurd ha (fails a)

theorem Jointly.map {S : γ → δ → Prop} {x : Except ε α} {ys : τ → Except ε β}
    (h : Jointly R ts x ys) {f : α → γ} {g : β → δ} (imp : ∀ a b, R a b → S (f a) (g b)) :
    Jointly S ts (x.map f) fun t => (ys t).map g where
  ok_iff := by
    simp only [map_ok_iff]
    constructor
    · rintro ⟨_, a, ha, -⟩ t ht
      obtain ⟨b, hb⟩ := h.ok_iff.1 ⟨a, ha⟩ t ht
      exact ⟨g b, b, hb, rfl⟩
    · intro hall
      have hys : ∀ t ∈ ts, ∃ b, ys t = .ok b := by
        intro t ht
        obtain ⟨_, b, hb, -⟩ := hall t ht
        exact ⟨b, hb⟩
      obtain ⟨a, ha⟩ := h.ok_iff.2 hys
      exact ⟨f a, a, ha, rfl⟩
  related := by
    intro c hc t ht d hd
    obtain ⟨a, ha, rfl⟩ := map_ok_iff.1 hc
    obtain ⟨b, hb, rfl⟩ := map_ok_iff.1 hd
    exact imp a b (h.related a ha t ht b hb)

theorem forall₂_of_forall₂ {P : σ → α → Prop} {Q : σ → β → Prop} {xs : List σ} {as : List α}
    {bs : List β} (h : List.Forall₂ P xs as) (h' : List.Forall₂ Q xs bs)
    (imp : ∀ x ∈ xs, ∀ a b, P x a → Q x b → R a b) : List.Forall₂ R as bs := by
  induction h generalizing bs with
  | nil =>
    cases h'
    exact .nil
  | cons hx _ ih =>
    cases h' with
    | cons hx' hrest =>
      rw [List.forall_mem_cons] at imp
      exact .cons (imp.1 _ _ hx hx') (ih hrest imp.2)

theorem forall₂_filterMap_id {as : List (Option α)} {bs : List (Option β)}
    (h : List.Forall₂ (Option.Rel R) as bs) :
    List.Forall₂ R (as.filterMap id) (bs.filterMap id) := by
  induction h with
  | nil => exact .nil
  | cons first _ ih =>
    cases first with
    | none => exact ih
    | some related => exact .cons related ih

/-- **A traversal stands in place of several if each of its steps does.** -/
theorem mapM_jointly {f : σ → Except ε α} {g : τ → σ → Except ε β} {xs : List σ}
    (h : ∀ x ∈ xs, Jointly R ts (f x) fun t => g t x) :
    Jointly (List.Forall₂ R) ts (xs.mapM f) fun t => xs.mapM (g t) where
  ok_iff := by
    simp only [exists_mapM_ok_iff]
    constructor
    · intro hall t ht x hx
      exact (h x hx).ok_iff.1 (hall x hx) t ht
    · intro hall x hx
      exact (h x hx).ok_iff.2 fun t ht => hall t ht x hx
  related := by
    intro as has t ht bs hbs
    exact forall₂_of_forall₂ (mapM_ok_iff.1 has) (mapM_ok_iff.1 hbs) fun x hx a b ha hb =>
      (h x hx).related a ha t ht b hb

end Jointly

/-! ## Trees that carry over -/

variable {ι κ : Type} {C : κ → Type}

/-- A tree carries over to another, which contributes and compiles wherever it does. -/
structure CarriesTo (types : RecordTypes κ C) (node node' : Node ι) : Prop where
  contributes : ∀ k, Contributes types k node → Contributes types k node'
  compiles : ∀ k p, CompilesTo types k node p → ∃ p', CompilesTo types k node' p'

/-- An entry carries over to another, whatever their field is called. -/
structure EntryCarriesTo (types : RecordTypes κ C) (entry entry' : Entry ι) : Prop where
  contributes : ∀ k name,
    EntryContributes types k name entry → EntryContributes types k name entry'
  compiles : ∀ k name parts, EntryCompiled types (CompilesTo types) k name entry parts →
    ∃ parts', EntryCompiled types (CompilesTo types) k name entry' parts'

/-- Two operations are on one member, are for operands of the same kinds, and make a test. -/
structure Applied.CompilesAlike (applied applied' : Applied) : Prop where
  member : applied.member = applied'.member
  conflict : ∀ type, kindConflict? applied type = none ↔ kindConflict? applied' type = none
  test : ∃ test, Test.ofApplied? applied = some test
  test' : ∃ test, Test.ofApplied? applied' = some test

theorem Applied.CompilesAlike.symm {applied applied' : Applied}
    (h : applied.CompilesAlike applied') : applied'.CompilesAlike applied :=
  ⟨h.member.symm, fun type => (h.conflict type).symm, h.test', h.test⟩

theorem exists_predicates {R : Type} {operations : List Applied}
    (tests : ∀ applied ∈ operations, ∃ test, Test.ofApplied? applied = some test)
    (make : Applied → (Value → Bool) → PurePredicate R) :
    ∃ parts, List.Forall₂ (fun applied p => ∃ test, Test.ofApplied? applied = some test ∧
      make applied test = p) operations parts := by
  refine exists_forall₂_of_forall_mem fun applied happlied => ?_
  obtain ⟨test, htest⟩ := tests applied happlied
  exact ⟨_, test, htest, rfl⟩

/-- If a leaf compiles, so does one with operations that compile alike. -/
theorem AccessCompiled.of_alike {R : Type} {type : LeafType} {operations operations' : List Applied}
    (alike : List.Forall₂ Applied.CompilesAlike operations operations') {access : Access κ C R}
    {parts : List (PurePredicate R)} (h : AccessCompiled ⟨type, operations⟩ access parts) :
    ∃ parts', AccessCompiled ⟨type, operations'⟩ access parts' := by
  have htests : ∀ applied' ∈ operations', ∃ test, Test.ofApplied? applied' = some test := by
    intro applied' happlied'
    obtain ⟨applied, -, halike⟩ := exists_of_mem_forall₂ alike.flip happlied'
    exact halike.test'
  cases h with
  | @value found declared read parts primitive fits each =>
    obtain ⟨parts', hparts'⟩ :=
      exists_predicates htests fun _ test => .ofTest fun r => test (read r)
    exact ⟨parts', .value primitive fits hparts'⟩
  | @values found declared read parts primitive fits each =>
    obtain ⟨parts', hparts'⟩ := exists_predicates htests fun applied test =>
      .ofTest fun r => Test.onElements applied.operation test (read r)
    exact ⟨parts', .values primitive fits hparts'⟩
  | @composite name members parts each =>
    have hmembers : ∀ applied' ∈ operations', ∃ p : PurePredicate R, ∃ member found,
        applied'.member = some member ∧ memberAccess? members member = some found ∧
        kindConflict? applied' found.type = none ∧
        ∃ test, Test.ofApplied? applied' = some test ∧
          .ofTest (fun r => test (found.read r)) = p := by
      intro applied' happlied'
      obtain ⟨applied, happlied, halike⟩ := exists_of_mem_forall₂ alike.flip happlied'
      obtain ⟨-, -, member, found, hmember, hfound, hfree, -⟩ := exists_of_mem_forall₂ each happlied
      obtain ⟨test, htest⟩ := htests applied' happlied'
      exact ⟨_, member, found, halike.member.symm.trans hmember, hfound,
        (halike.conflict _).1 hfree, test, htest, rfl⟩
    obtain ⟨parts', hparts'⟩ := exists_forall₂_of_forall_mem hmembers
    exact ⟨parts', .composite hparts'⟩

section Carries

variable {types : RecordTypes κ C}

/-- A leaf carries over to one with operations that compile alike. -/
theorem entryCarriesTo_leaf {type : LeafType} {operations operations' : List Applied}
    (alike : List.Forall₂ Applied.CompilesAlike operations operations') :
    EntryCarriesTo types (.leaf ⟨type, operations⟩ : Entry ι) (.leaf ⟨type, operations'⟩) where
  contributes := by
    intro k name h
    cases h with
    | leaf has asked =>
      obtain ⟨applied', happlied', -⟩ := exists_of_mem_forall₂ alike asked
      exact .leaf has happlied'
  compiles := by
    intro k name parts h
    cases h with
    | lacking lacks => exact ⟨[], .lacking lacks⟩
    | leaf has compiled =>
      obtain ⟨parts', hparts'⟩ := compiled.of_alike alike
      exact ⟨parts', .leaf has hparts'⟩

theorem entryCarriesTo_nested {child child' : Node ι} (carries : CarriesTo types child child') :
    EntryCarriesTo types (.nested child) (.nested child') where
  contributes := by
    intro k name h
    cases h with
    | nested has reads inner => exact .nested has reads (carries.contributes _ inner)
  compiles := by
    intro k name parts h
    cases h with
    | lacking lacks => exact ⟨[], .lacking lacks⟩
    | nested has reads compiled =>
      obtain ⟨p, hp⟩ := carries.compiles _ _ compiled
      exact ⟨_, .nested has reads hp⟩

theorem entryCarriesTo_list {items items' : List (Node ι)}
    (carries : List.Forall₂ (CarriesTo types) items items') :
    EntryCarriesTo types (.list items) (.list items') where
  contributes := by
    intro k name h
    cases h with
    | list has reads mem inner =>
      obtain ⟨item', hitem', hcarries⟩ := exists_of_mem_forall₂ carries mem
      exact .list has reads hitem' (hcarries.contributes _ inner)
  compiles := by
    intro k name parts h
    cases h with
    | lacking lacks => exact ⟨[], .lacking lacks⟩
    | @list _ field target read ps has reads compiled =>
      have hcompile : ∀ item' ∈ items', ∃ p', CompilesTo types target item' p' := by
        intro item' hitem'
        obtain ⟨item, hitem, hcarries⟩ := exists_of_mem_forall₂ carries.flip hitem'
        obtain ⟨p, -, hp⟩ := exists_of_mem_forall₂ compiled hitem
        exact hcarries.compiles _ _ hp
      obtain ⟨ps', hps'⟩ := exists_forall₂_of_forall_mem hcompile
      exact ⟨_, .list has reads hps'⟩

/-- A tree carries over to one with entries to which its own carry over, field by field. -/
theorem carriesTo_of_entries {node node' : Node ι}
    (carries : List.Forall₂ (fun e e' => e'.1 = e.1 ∧ EntryCarriesTo types e.2 e'.2) node.entries
      node'.entries) : CarriesTo types node node' where
  contributes := by
    rintro k ⟨mem, entry⟩
    obtain ⟨e', he', hname, hcarries⟩ := exists_of_mem_forall₂ carries mem
    exact .mk he' (hname ▸ hcarries.contributes _ _ entry)
  compiles := by
    intro k p h
    obtain ⟨pss, hpss, -⟩ := compile_ok_iff.1 h
    have hcompile : ∀ e' ∈ node'.entries, ∃ parts,
        EntryCompiled types (CompilesTo types) k e'.1 e'.2 parts := by
      intro e' he'
      obtain ⟨e, he, hname, hcarries⟩ := exists_of_mem_forall₂ carries.flip he'
      obtain ⟨parts, -, hparts⟩ := exists_of_mem_forall₂ hpss he
      exact hname ▸ hcarries.compiles _ _ _ hparts
    obtain ⟨pss', hpss'⟩ := exists_forall₂_of_forall_mem hcompile
    exact ⟨_, compile_ok_iff.2 ⟨pss', hpss', rfl⟩⟩

end Carries

/-! ## Trees that compile alike -/

/-- Two trees carry over to each other, and both are empty or neither. -/
structure CompileAlike (types : RecordTypes κ C) (node node' : Node ι) : Prop where
  isEmpty : node.isEmpty = node'.isEmpty
  there : CarriesTo types node node'
  back : CarriesTo types node' node

/-- Two entries carry over to each other. -/
structure EntryCompileAlike (types : RecordTypes κ C) (entry entry' : Entry ι) : Prop where
  there : EntryCarriesTo types entry entry'
  back : EntryCarriesTo types entry' entry

section Alike

variable {types : RecordTypes κ C}

theorem compileAlike_leafEntry {type : LeafType} {answers answers' : List (Option Applied)}
    (alike : List.Forall₂ (Option.Rel Applied.CompilesAlike) answers answers') :
    Option.Rel (EntryCompileAlike types)
      (Binder.leafEntry type (answers.filterMap id) : Option (Entry ι))
      (Binder.leafEntry type (answers'.filterMap id)) := by
  have hoperations := forall₂_filterMap_id alike
  generalize answers.filterMap id = operations, answers'.filterMap id = operations' at hoperations
  unfold Binder.leafEntry
  cases hoperations with
  | nil => exact .none
  | cons first rest =>
    have hall := List.Forall₂.cons first rest
    rw [if_neg (List.cons_ne_nil _ _), if_neg (List.cons_ne_nil _ _)]
    exact .some ⟨entryCarriesTo_leaf hall, entryCarriesTo_leaf (hall.flip.imp fun _ _ h => h.symm)⟩

theorem compileAlike_nestedEntry {child child' : Node ι}
    (alike : CompileAlike types child child') :
    Option.Rel (EntryCompileAlike types) (Binder.nestedEntry child)
      (Binder.nestedEntry child') := by
  unfold Binder.nestedEntry
  rw [← alike.isEmpty]
  split
  · exact .none
  · exact .some ⟨entryCarriesTo_nested alike.there, entryCarriesTo_nested alike.back⟩

theorem compileAlike_listEntry {items items' : List (Node ι)}
    (alike : List.Forall₂ (CompileAlike types) items items') :
    Option.Rel (EntryCompileAlike types) (Binder.listEntry items) (Binder.listEntry items') := by
  unfold Binder.listEntry
  cases alike with
  | nil => exact .none
  | cons first rest =>
    have hall := List.Forall₂.cons first rest
    refine .some ⟨entryCarriesTo_list ?_, entryCarriesTo_list ?_⟩
    · exact hall.imp fun _ _ h => h.there
    · exact hall.flip.imp fun _ _ h => h.back

theorem compileAlike_assemble (shape : Shape ι) {given given' : List (Option (String × Entry ι))}
    (alike : List.Forall₂ (Option.Rel fun e e' => e'.1 = e.1 ∧ EntryCompileAlike types e.2 e'.2)
      given given') :
    CompileAlike types (Binder.assemble shape given) (Binder.assemble shape given') := by
  have hentries : List.Forall₂ (fun e e' => e'.1 = e.1 ∧ EntryCompileAlike types e.2 e'.2)
      (Binder.assemble shape given).entries (Binder.assemble shape given').entries :=
    forall₂_filterMap_id alike
  refine ⟨?_, carriesTo_of_entries ?_, carriesTo_of_entries ?_⟩
  · unfold Node.isEmpty
    generalize (Binder.assemble shape given).entries = es,
      (Binder.assemble shape given').entries = es' at hentries
    cases hentries <;> rfl
  · exact hentries.imp fun _ _ h => ⟨h.1, h.2.there⟩
  · exact hentries.flip.imp fun _ _ h => ⟨h.1.symm, h.2.back⟩

end Alike

/-! ## A membership in place of comparisons -/

/-- An operation takes the tokens of its value as a list, of which another takes one at a time. -/
structure Operation.ListsFor (list one : Operation) (raw : String) (ts : List String)
    (limit : Nat) : Prop where
  membership : list.family = .membership
  comparison : one.family = .comparison
  tokens : Leaf.tokens raw = ts
  nonempty : ts ≠ []
  few : ts.length ≤ limit

section Binding

variable {list one : Operation} {raw : String} {ts : List String}

/-- What a membership and a comparison with one of its members ask for compiles alike. -/
theorem Answers.compilesAlike {coercer : Coercer} (strict : coercer.Strict)
    (membership : list.family = .membership) (comparison : one.family = .comparison)
    {member : Option String} {kind : Kind} {t : String} {applied applied' : Applied}
    (h : Answers coercer (.operation member kind list) raw (.operation applied))
    (h' : Answers coercer (.operation member kind one) t (.operation applied')) :
    applied.CompilesAlike applied' where
  member := h.member_eq.trans h'.member_eq.symm
  conflict := by
    intro type
    rw [h.kindConflict?_eq_none_iff strict (by simp [membership]),
      h'.kindConflict?_eq_none_iff strict (by simp [comparison])]
  test := h.exists_test
  test' := h'.exists_test

/-- **A membership is answered exactly if each comparison with a member is.** -/
theorem answer_jointly {site : Site} (strict : site.coercer.Strict)
    (lists : list.ListsFor one raw ts site.maxInValues) (type : LeafType)
    (member : Option String) :
    Jointly (Option.Rel Applied.CompilesAlike) ts (Leaf.answer site type (member, list, raw))
      fun t => Leaf.answer site type (member, one, t) := by
  unfold Leaf.answer
  simp only
  cases Leaf.operandType? type member with
  | none => exact .ok .none
  | some operand =>
    have hfew : ¬ site.maxInValues < (Leaf.tokens raw).length := by
      have := lists.few
      rw [lists.tokens]
      omega
    constructor
    · simp only [Leaf.read_membership lists.membership hfew, lists.tokens,
        Leaf.read_comparison lists.comparison, map_ok_iff]
      constructor
      · rintro ⟨_, values, hvalues, -⟩ t ht
        obtain ⟨value, hvalue⟩ := exists_mapM_ok_iff.1 ⟨values, hvalues⟩ t ht
        exact ⟨_, value, hvalue, rfl⟩
      · intro hall
        have heach : ∀ t ∈ ts, ∃ value, site.coerce member operand.kind t = .ok value := by
          intro t ht
          obtain ⟨_, value, hvalue, -⟩ := hall t ht
          exact ⟨value, hvalue⟩
        obtain ⟨values, hvalues⟩ := exists_mapM_ok_iff.2 heach
        exact ⟨_, values, hvalues, rfl⟩
    · intro answer hanswer t ht answer' hanswer'
      rcases Leaf.read_ok_cases hanswer with ⟨applied, rfl, hasks⟩ | ⟨-, -, hnil⟩
      · rcases Leaf.read_ok_cases hanswer' with ⟨applied', rfl, hasks'⟩ | ⟨-, hfamily, -⟩
        · exact .some (hasks.compilesAlike strict lists.membership lists.comparison hasks')
        · rw [lists.comparison] at hfamily
          cases hfamily
      · exact absurd (lists.tokens.symm.trans hnil) lists.nonempty

variable {b : Binder} {types : RecordTypes κ C} {shapes : ι → Shape ι} {shape : Shape ι}
  {here path : Path} {depth : Nat}

/-- The trees of a membership and of the comparisons with its members, at a position. -/
def BuildsJointly (types : RecordTypes κ C) (b : Binder) (shapes : ι → Shape ι) (path : Path)
    (list one : Operation) (raw : String) (ts : List String) (shape : Shape ι) (here : Path)
    (depth : Nat) : Prop :=
  Jointly (CompileAlike types) ts
    (b.buildNode shapes (Query.asking path list raw) shape here depth)
    fun t => b.buildNode shapes (Query.asking path one t) shape here depth

theorem closeList_jointly (nonempty : ts ≠ []) {length : Nat}
    {items : Except BindError (List (Node ι))} {each : String → Except BindError (List (Node ι))}
    (h : length ≤ b.limits.maxListItems →
      Jointly (List.Forall₂ (CompileAlike types)) ts items each) :
    Jointly (Option.Rel (EntryCompileAlike types)) ts (b.closeList here length items)
      fun t => b.closeList here length (each t) := by
  by_cases hshort : length ≤ b.limits.maxListItems
  · simp only [Binder.closeList_of_le hshort]
    exact (h hshort).map fun _ _ => compileAlike_listEntry
  · refine .of_errors nonempty ?_ ?_
    · intro entry hentry
      exact hshort (Binder.closeList_ok_iff.1 hentry).1
    · intro t entry hentry
      exact hshort (Binder.closeList_ok_iff.1 hentry).1

/-- A field is bound for a membership in place of the comparisons, if the nodes of its embedded
filters are. -/
theorem bindField_jointly (strict : b.coercer.Strict)
    (lists : list.ListsFor one raw ts b.limits.maxInValues)
    (apart : shape.KeepsApart shapes here path list)
    (apart' : shape.KeepsApart shapes here path one) {field : FieldShape ι}
    (mem : field ∈ shape.fields)
    (children : ∀ inner p,
      (Query.asking path list raw).reaches (here ++ [.named field.name]) = true →
      here ++ [.named field.name] <+: p → (shapes inner).KeepsApart shapes p path list →
      (shapes inner).KeepsApart shapes p path one →
      BuildsJointly types b shapes path list one raw ts (shapes inner) p (depth + 1)) :
    Jointly (Option.Rel (EntryCompileAlike types)) ts
      (b.bindField shapes (Query.asking path list raw) (here ++ [.named field.name]) depth
        field.role)
      fun t => b.bindField shapes (Query.asking path one t) (here ++ [.named field.name]) depth
        field.role := by
  have hreaches (t : String) (p : Path) : (Query.asking path one t).reaches p =
      (Query.asking path list raw).reaches p := Query.reaches_asking list raw p
  have hlength (t : String) (p : Path) : (Query.asking path one t).listLength p =
      (Query.asking path list raw).listLength p := Query.listLength_asking list raw p
  cases hrole : field.role with
  | scalar type =>
    simp only [Binder.bindField, Binder.bindScalar_of_none (get?_scalar_asking apart mem hrole _),
      Binder.bindScalar_of_none (get?_scalar_asking apart' mem hrole _)]
    exact .ok .none
  | leaf type =>
    simp only [Binder.bindField, Binder.bindLeaf_eq, leafRequests_asking apart mem hrole,
      leafRequests_asking apart' mem hrole, List.mapM_map]
    refine Jointly.map ?_ fun _ _ => compileAlike_leafEntry
    exact mapM_jointly fun member _ => answer_jointly strict lists type member
  | nested inner =>
    simp only [Binder.bindField, hreaches]
    split
    · rename_i hreached
      split
      · refine Jointly.map ?_ fun _ _ => compileAlike_nestedEntry
        exact children inner _ hreached (List.prefix_refl _) (apart.nested mem hrole)
          (apart'.nested mem hrole)
      · exact .of_errors lists.nonempty (by simp) (by simp)
    · exact .ok .none
  | list inner =>
    simp only [Binder.bindField, hreaches, hlength]
    split
    · rename_i hreached
      split
      · refine closeList_jointly lists.nonempty fun _ => mapM_jointly fun i _ => ?_
        exact children inner _ hreached (List.prefix_append _ _) (apart.list mem hrole i)
          (apart'.list mem hrole i)
      · exact .of_errors lists.nonempty (by simp) (by simp)
    · exact .ok .none

/-- **The tree of a membership is bound exactly if the trees of all comparisons with its members
are**, and compiles as they do. -/
theorem buildNode_jointly (types : RecordTypes κ C) (strict : b.coercer.Strict)
    (lists : list.ListsFor one raw ts b.limits.maxInValues)
    (apart : shape.KeepsApart shapes here path list)
    (apart' : shape.KeepsApart shapes here path one) :
    BuildsJointly types b shapes path list one raw ts shape here depth := by
  induction shape, here, depth using Binder.position_induct (q := Query.asking path list raw) with
  | step shape here depth ih =>
    unfold BuildsJointly
    simp only [Binder.buildNode_eq]
    refine Jointly.map ?_ fun _ _ => compileAlike_assemble shape
    refine mapM_jointly fun field hfield => ?_
    have hfield := bindField_jointly strict lists apart apart' hfield
      fun inner p hreached hbelow => ih field.name (shapes inner) p hreached hbelow
    refine hfield.map fun entry entry' halike => ?_
    cases halike with
    | none => exact .none
    | some related => exact .some ⟨rfl, related⟩

end Binding

end BracketFilter
