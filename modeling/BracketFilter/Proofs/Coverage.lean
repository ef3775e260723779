import BracketFilter.Proofs.CompileMeaning

/-!
# A tree that others make up

* `Node.CoveredBy` — a tree without lists, in which every operation comes from a tree of a family,
  where it stands on the same field.

Principal results: `exists_contributes_of_covered` — some tree of the family contributes if the tree
does; `satisfies_of_covered` — a record that satisfies every tree of the family satisfies the tree.
-/

set_option autoImplicit false

namespace BracketFilter

variable {ι κ : Type} {C : κ → Type}

/-- The entries of a field in the trees of a family. -/
def entriesOf (family : Node ι → Prop) (name : String) (entry : Entry ι) : Prop :=
  ∃ member, family member ∧ (name, entry) ∈ member.entries

mutual

/-- What a tree asks for comes from the trees of a family. -/
inductive Node.CoveredBy : (Node ι → Prop) → Node ι → Prop
  | mk {family : Node ι → Prop} {node : Node ι}
      (each : ∀ e ∈ node.entries, EntryCoveredBy (entriesOf family e.1) e.2) :
      Node.CoveredBy family node

/-- What an entry asks of records comes from the entries of a family. -/
inductive EntryCoveredBy : (Entry ι → Prop) → Entry ι → Prop
  | scalar {family : Entry ι → Prop} {value : Value} : EntryCoveredBy family (.scalar value)
  | leaf {family : Entry ι → Prop} {leaf : Leaf}
      (each : ∀ applied ∈ leaf.operations, ∃ part, family (.leaf part) ∧
        applied ∈ part.operations) :
      EntryCoveredBy family (.leaf leaf)
  | nested {family : Entry ι → Prop} {child : Node ι}
      (inner : Node.CoveredBy (fun part => family (.nested part)) child) :
      EntryCoveredBy family (.nested child)

end

/-- A tree is covered by every family that has all trees of the first except empty ones. -/
theorem Node.CoveredBy.imp {family family' : Node ι → Prop} {node : Node ι}
    (h : node.CoveredBy family)
    (more : ∀ member, family member → member.isEmpty = false → family' member) :
    node.CoveredBy family' := by
  induction node using Node.induct generalizing family family' with
  | step node ih =>
    obtain ⟨each⟩ := h
    refine .mk fun e he => ?_
    have hentries (entry : Entry ι) (hentry : entriesOf family e.1 entry) :
        entriesOf family' e.1 entry := by
      obtain ⟨member, hmember, hmem⟩ := hentry
      refine ⟨member, more member hmember ?_, hmem⟩
      unfold Node.isEmpty
      rw [List.isEmpty_eq_false_iff]
      exact List.ne_nil_of_mem hmem
    obtain ⟨name, entry⟩ := e
    cases each _ he with
    | scalar => exact .scalar
    | leaf each =>
      refine .leaf fun applied happlied => ?_
      obtain ⟨part, hpart, hmem⟩ := each applied happlied
      exact ⟨part, hentries _ hpart, hmem⟩
    | nested inner =>
      refine .nested (ih _ he _ (List.mem_singleton.2 rfl) inner fun part hpart _ => ?_)
      exact hentries _ hpart

/-! ## What the trees of a family ask for together -/

section Meaning

variable {types : RecordTypes κ C} {k : κ}

theorem exists_contributes_of_covered {family : Node ι → Prop} {node : Node ι}
    (covered : node.CoveredBy family) (h : Contributes types k node) :
    ∃ member, family member ∧ Contributes types k member := by
  induction node using Node.induct generalizing family k with
  | step node ih =>
    obtain ⟨each⟩ := covered
    obtain ⟨⟨name, entry⟩, he, hentry⟩ := contributes_iff.1 h
    cases each _ he with
    | scalar => cases hentry
    | leaf each =>
      cases hentry with
      | leaf has asked =>
        obtain ⟨part, ⟨member, hmember, hmem⟩, happlied⟩ := each _ asked
        exact ⟨member, hmember, .mk hmem (.leaf has happlied)⟩
    | nested inner =>
      cases hentry with
      | nested has reads contributes =>
        obtain ⟨part, ⟨member, hmember, hmem⟩, hpart⟩ :=
          ih _ he _ (List.mem_singleton.2 rfl) inner contributes
        exact ⟨member, hmember, .mk hmem (.nested has reads hpart)⟩

/-- Every record satisfies a tree that compiles and contributes nothing. -/
theorem satisfies_of_silent {node : Node ι} {compiled : Option (PurePredicate (C k))}
    (h : compile types k node = .ok compiled) (silent : ¬ Contributes types k node) (r : C k) :
    Satisfies types k r node := by
  have hmeans := means_of_compile h
  rw [← hmeans.admits, hmeans.empty.2 silent]
  simp [Admits]

theorem leafHolds_of_each {R : Type} {r : R} {leaf : Leaf} {access : Access κ C R}
    {predicates : List (PurePredicate R)} (compiled : AccessCompiled leaf access predicates)
    (each : ∀ applied ∈ leaf.operations, ∃ part : Leaf, applied ∈ part.operations ∧
      LeafHolds r part access) : LeafHolds r leaf access := by
  cases compiled with
  | value =>
    refine .value fun applied happlied => ?_
    obtain ⟨part, hmem, ⟨holds⟩⟩ := each applied happlied
    exact holds applied hmem
  | values =>
    refine .values fun applied happlied => ?_
    obtain ⟨part, hmem, ⟨⟩ | ⟨holds⟩⟩ := each applied happlied
    exact holds applied hmem
  | composite =>
    refine .composite fun applied happlied => ?_
    obtain ⟨part, hmem, ⟨⟩ | ⟨⟩ | ⟨holds⟩⟩ := each applied happlied
    exact holds applied hmem

theorem satisfies_embedded {node child : Node ι} {r : C k} {name : String}
    {compiled : Option (PurePredicate (C k))} (compiles : compile types k node = .ok compiled)
    (h : Satisfies types k r node) (mem : (name, .nested child) ∈ node.entries)
    {field : RecordField κ C (C k)} {target : κ} {read : C k → Option (C target)} {s : C target}
    (has : (types k).field? name = some field) (reads : field.access = .nested target read)
    (present : read r = some s) :
    (∃ compiled, compile types target child = .ok compiled) ∧ Satisfies types target s child := by
  obtain ⟨pss, hpss, -⟩ := compile_ok_iff.1 compiles
  obtain ⟨ps, -, hentry⟩ := exists_of_mem_forall₂ hpss mem
  have hholds := (entryHolds_nested_iff has reads).1 (satisfies_iff.1 h _ mem)
  cases hentry with
  | lacking lacks => exact nomatch lacks.symm.trans has
  | nested has' reads' compiled =>
    cases has.symm.trans has'
    cases reads.symm.trans reads'
    refine ⟨⟨_, compiled⟩, ?_⟩
    by_cases contributes : Contributes types target child
    · obtain ⟨s', hs', hsatisfies⟩ := hholds contributes
      cases present.symm.trans hs'
      exact hsatisfies
    · exact satisfies_of_silent compiled contributes s

/-- **A record that satisfies every tree of a family satisfies each tree that they cover.** -/
theorem satisfies_of_covered {family : Node ι → Prop} {node : Node ι} {r : C k}
    (covered : node.CoveredBy family) {compiled : Option (PurePredicate (C k))}
    (compiles : compile types k node = .ok compiled)
    (members : ∀ member, family member →
      (∃ compiled, compile types k member = .ok compiled) ∧ Satisfies types k r member) :
    Satisfies types k r node := by
  induction node using Node.induct generalizing family k with
  | step node ih =>
    obtain ⟨each⟩ := covered
    obtain ⟨pss, hpss, -⟩ := compile_ok_iff.1 compiles
    refine .mk ?_
    rintro ⟨name, entry⟩ he
    obtain ⟨ps, -, hentry⟩ := exists_of_mem_forall₂ hpss he
    have hcovered := each _ he
    cases hentry with
    | scalar => exact .scalar
    | lacking lacks => exact .lacking lacks
    | leaf has compiled =>
      cases hcovered with
      | leaf each =>
        refine .leaf has (leafHolds_of_each compiled fun applied happlied => ?_)
        obtain ⟨part, ⟨member, hmember, hmem⟩, hpart⟩ := each applied happlied
        have hholds := satisfies_iff.1 (members member hmember).2 _ hmem
        exact ⟨part, hpart, (entryHolds_leaf_iff has).1 hholds⟩
    | @nested child field target read p has reads compiled =>
      cases hcovered with
      | nested inner =>
        refine (entryHolds_nested_iff has reads).2 fun contributes => ?_
        -- A part that contributes makes sure that the embedded record is there.
        obtain ⟨part, ⟨member, hmember, hmem⟩, hpart⟩ :=
          exists_contributes_of_covered inner contributes
        have hholds := satisfies_iff.1 (members member hmember).2 _ hmem
        obtain ⟨s, hs, -⟩ := (entryHolds_nested_iff has reads).1 hholds hpart
        refine ⟨s, hs, ih _ he _ (List.mem_singleton.2 rfl) inner compiled ?_⟩
        rintro part ⟨member, hmember, hmem⟩
        obtain ⟨⟨_, hcompiled⟩, hsatisfies⟩ := members member hmember
        exact satisfies_embedded hcompiled hsatisfies hmem has reads hs
    | list has reads compiled => cases hcovered

end Meaning

end BracketFilter
