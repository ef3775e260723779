import BracketFilter.Proofs.CompileSteps
import BracketFilter.Proofs.Meaning

/-!
# Compilation preserves the meaning of a tree

* `PartsMean` — the conjunction of a list of predicates means a property of records, and the list is
  empty exactly if nothing is asked for.
* `Admits` — a record is accepted by a predicate, if there is one.
* `Means` — a compiled predicate means what a node asks for.

The lemmas on `PartsMean` put the predicates of operations together to those of entries and nodes.

Principal result: `compile_meaning` — a node compiles to no predicate exactly if it contributes
nothing on the records of a type, and otherwise to a predicate that accepts exactly the records that
satisfy it.
-/

set_option autoImplicit false

namespace BracketFilter

variable {ι κ α R : Type} {C : κ → Type}

/-! ## Conjunctions of predicates -/

/-- Together, the predicates accept what has a property; there are none exactly if nothing is asked
for. -/
structure PartsMean (parts : List (PurePredicate R)) (asked : Prop) (holds : R → Prop) : Prop where
  empty : parts = [] ↔ ¬ asked
  accepts : ∀ r, (∀ p ∈ parts, p.accepts r = true) ↔ holds r

namespace PartsMean

theorem congr {parts : List (PurePredicate R)} {asked asked' : Prop} {holds holds' : R → Prop}
    (h : PartsMean parts asked holds) (hasked : asked ↔ asked')
    (hholds : ∀ r, holds r ↔ holds' r) : PartsMean parts asked' holds' where
  empty := h.empty.trans (not_congr hasked)
  accepts := fun r => (h.accepts r).trans (hholds r)

theorem nil {asked : Prop} {holds : R → Prop} (nothing : ¬ asked) (always : ∀ r, holds r) :
    PartsMean [] asked holds where
  empty := by simp [nothing]
  accepts := fun r => by simp [always r]

theorem single {p : PurePredicate R} {asked : Prop} {holds : R → Prop} (something : asked)
    (h : ∀ r, p.accepts r = true ↔ holds r) : PartsMean [p] asked holds where
  empty := by simp [something]
  accepts := fun r => by simp [h r]

theorem flatten {asked : α → Prop} {holds : α → R → Prop} {xs : List α}
    {pss : List (List (PurePredicate R))}
    (each : List.Forall₂ (fun x ps => PartsMean ps (asked x) (holds x)) xs pss) :
    PartsMean pss.flatten (∃ x ∈ xs, asked x) (fun r => ∀ x ∈ xs, holds x r) := by
  induction each with
  | nil => exact nil (by simp) (by simp)
  | @cons x ps xs pss hx _ ih =>
    constructor
    · rw [List.flatten_cons, List.append_eq_nil_iff, hx.empty, ih.empty]
      simp
    · intro r
      simp only [List.flatten_cons, List.mem_append, List.forall_mem_cons, or_imp, forall_and,
        hx.accepts r, ih.accepts r]

theorem ofEach {holds : α → R → Prop} {xs : List α} {parts : List (PurePredicate R)}
    (each : List.Forall₂ (fun x p => ∀ r, p.accepts r = true ↔ holds x r) xs parts) :
    PartsMean parts (∃ x, x ∈ xs) (fun r => ∀ x ∈ xs, holds x r) := by
  have singles : List.Forall₂ (fun x ps => PartsMean ps True (holds x)) xs
      (parts.map fun p => [p]) := by
    rw [List.forall₂_map_right_iff]
    exact each.imp fun x p h => single trivial h
  have h := flatten singles
  have hflatten : (parts.map fun p => [p]).flatten = parts := by
    rw [← List.flatMap_def, List.flatMap_singleton']
  rw [hflatten] at h
  exact h.congr (by simp) fun r => Iff.rfl

end PartsMean

/-- A record is accepted; without a predicate every record is. -/
def Admits (compiled : Option (PurePredicate R)) (r : R) : Prop :=
  ∀ p, compiled = some p → p.accepts r = true

@[simp] theorem admits_some {p : PurePredicate R} {r : R} :
    Admits (some p) r ↔ p.accepts r = true := by
  simp [Admits]

/-- A compiled predicate means what a node asks for on the records of a type. -/
structure Means (types : RecordTypes κ C) (k : κ) (node : Node ι)
    (compiled : Option (PurePredicate (C k))) : Prop where
  empty : compiled = none ↔ ¬ Contributes types k node
  admits : ∀ r, Admits compiled r ↔ Satisfies types k r node

theorem PartsMean.all {types : RecordTypes κ C} {k : κ} {node : Node ι}
    {parts : List (PurePredicate (C k))}
    (h : PartsMean parts (Contributes types k node) (fun r => Satisfies types k r node)) :
    Means types k node (Predicate.all parts) := by
  cases parts with
  | nil =>
    exact ⟨by simpa [Predicate.all] using h.empty, fun r => by
      simpa [Predicate.all, Admits] using h.accepts r⟩
  | cons p ps =>
    refine ⟨by simpa [Predicate.all] using h.empty, fun r => ?_⟩
    rw [← h.accepts r]
    simp only [Predicate.all, admits_some, PurePredicate.accepts_foldl_and, Bool.and_eq_true,
      List.all_eq_true, List.forall_mem_cons]

/-! ## Leaves -/

/-- The predicates of a leaf mean that each of its operations holds. -/
theorem AccessCompiled.partsMean {leaf : Leaf} {access : Access κ C R}
    {parts : List (PurePredicate R)} (h : AccessCompiled leaf access parts) :
    PartsMean parts (∃ applied, applied ∈ leaf.operations) (fun r => LeafHolds r leaf access) := by
  cases h with
  | @value type declared read parts primitive fits each =>
    have hparts : PartsMean parts (∃ applied, applied ∈ leaf.operations) (fun r =>
        ∀ applied ∈ leaf.operations, applied.Holds (read r)) := by
      refine PartsMean.ofEach (each.imp ?_)
      rintro applied _ ⟨test, htest, rfl⟩ r
      exact holds_of_ofApplied? htest (read r)
    exact hparts.congr Iff.rfl fun r => ⟨.value, fun | .value each => each⟩
  | @values type declared read parts primitive fits each =>
    have hparts : PartsMean parts (∃ applied, applied ∈ leaf.operations) (fun r =>
        ∀ applied ∈ leaf.operations, applied.HoldsAmong (read r)) := by
      refine PartsMean.ofEach (each.imp ?_)
      rintro applied _ ⟨test, htest, rfl⟩ r
      exact holdsAmong_of_ofApplied? htest (read r)
    exact hparts.congr Iff.rfl fun r => ⟨.values, fun | .values each => each⟩
  | @composite name members parts each =>
    have hparts : PartsMean parts (∃ applied, applied ∈ leaf.operations) (fun r =>
        ∀ applied ∈ leaf.operations, ∃ member found, applied.member = some member ∧
          memberAccess? members member = some found ∧ applied.Holds (found.read r)) := by
      refine PartsMean.ofEach (each.imp ?_)
      rintro applied _ ⟨member, found, hmember, hfound, -, test, htest, rfl⟩ r
      rw [PurePredicate.accepts_ofTest, holds_of_ofApplied? htest]
      constructor
      · intro holds
        exact ⟨member, found, hmember, hfound, holds⟩
      · rintro ⟨member', found', hmember', hfound', holds⟩
        cases hmember.symm.trans hmember'
        cases hfound.symm.trans hfound'
        exact holds
    exact hparts.congr Iff.rfl fun r => ⟨.composite, fun | .composite each => each⟩

/-! ## Embedded records -/

section Embedded

variable {types : RecordTypes κ C} {k target : κ} {name : String} {field : RecordField κ C (C k)}

/-- The predicate of an embedded filter means that the record is there and has what the filter asks
for, unless the filter contributes nothing. -/
theorem Means.onNested {child : Node ι} {read : C k → Option (C target)}
    {p : Option (PurePredicate (C target))} (h : Means types target child p)
    (has : (types k).field? name = some field) (reads : field.access = .nested target read) :
    PartsMean (p.map (BracketFilter.onNested read)).toList
      (EntryContributes types k name (.nested child))
      (fun r => EntryHolds types k r name (.nested child)) := by
  cases p with
  | none =>
    have hsilent := h.empty.1 rfl
    refine PartsMean.nil ?_ fun r => ?_
    · rwa [entryContributes_nested_iff has reads]
    · exact .silent has reads hsilent
  | some p =>
    have hcontributes : Contributes types target child := by
      by_contra hsilent
      cases h.empty.2 hsilent
    refine PartsMean.single ?_ fun r => ?_
    · rwa [entryContributes_nested_iff has reads]
    · rw [entryHolds_nested_iff has reads]
      have haccepts (s : C target) : p.accepts s = true ↔ Satisfies types target s child := by
        rw [← h.admits s, admits_some]
      simp only [BracketFilter.onNested, PurePredicate.accepts_ofTest, Option.any_eq_true,
        haccepts, hcontributes, true_imp_iff, Option.eq_some_iff_get_eq]

theorem Means.onList {item : Node ι} {p : Option (PurePredicate (C target))}
    (h : Means types target item p) (read : C k → List (C target)) :
    PartsMean (p.map (BracketFilter.onList read)).toList (Contributes types target item)
      (fun r => Contributes types target item →
        ∃ s ∈ read r, Satisfies types target s item) := by
  cases p with
  | none =>
    have hsilent := h.empty.1 rfl
    exact PartsMean.nil hsilent fun r hcontributes => absurd hcontributes hsilent
  | some p =>
    have hcontributes : Contributes types target item := by
      by_contra hsilent
      cases h.empty.2 hsilent
    refine PartsMean.single hcontributes fun r => ?_
    have haccepts (s : C target) : p.accepts s = true ↔ Satisfies types target s item := by
      rw [← h.admits s, admits_some]
    simp only [BracketFilter.onList, PurePredicate.accepts_ofTest, List.any_eq_true, haccepts,
      hcontributes, true_imp_iff]

theorem EntryCompiled.partsMean {entry : Entry ι} {parts : List (PurePredicate (C k))}
    (h : EntryCompiled types (Means types) k name entry parts) :
    PartsMean parts (EntryContributes types k name entry)
      (fun r => EntryHolds types k r name entry) := by
  cases h with
  | scalar => exact PartsMean.nil (by rintro ⟨⟩) fun r => .scalar
  | lacking lacks =>
    exact PartsMean.nil (not_entryContributes_of_lacking lacks) fun r => .lacking lacks
  | leaf has compiled =>
    exact compiled.partsMean.congr (entryContributes_leaf_iff has).symm fun r =>
      (entryHolds_leaf_iff has).symm
  | nested has reads compiled => exact compiled.onNested has reads
  | @list items field target read ps has reads compiled =>
    rw [List.flatMap_def]
    refine (PartsMean.flatten (List.forall₂_map_right_iff.2 (compiled.imp fun item p h =>
      h.onList read))).congr ?_ fun r => ?_
    · exact (entryContributes_list_iff has reads).symm
    · exact (entryHolds_list_iff has reads).symm

end Embedded

/-- **Compilation preserves the meaning of a node.** -/
theorem means_of_compile {types : RecordTypes κ C} {node : Node ι} {k : κ}
    {compiled : Option (PurePredicate (C k))} (h : compile types k node = .ok compiled) :
    Means types k node compiled := by
  induction node using Node.induct generalizing k with
  | step node ih =>
    obtain ⟨pss, hpss, rfl⟩ := compile_ok_iff.1 h
    refine PartsMean.all ((PartsMean.flatten ((forall₂_and_mem hpss).imp ?_)).congr
      contributes_iff.symm fun r => satisfies_iff.symm)
    rintro e ps ⟨hmem, hcompiled⟩
    exact (hcompiled.imp fun target child hchild p hp => ih e hmem child hchild hp).partsMean

/-- **A compiled predicate accepts exactly the records that satisfy the node**, and there is none
exactly if the node contributes nothing. -/
theorem compile_meaning {types : RecordTypes κ C} {k : κ} {node : Node ι}
    {compiled : Option (PurePredicate (C k))} (h : compile types k node = .ok compiled) :
    (compiled = none ↔ ¬ Contributes types k node) ∧
      ∀ p, compiled = some p → ∀ r, p.accepts r = true ↔ Satisfies types k r node := by
  have hmeans := means_of_compile h
  refine ⟨hmeans.empty, ?_⟩
  rintro p rfl r
  rw [← hmeans.admits r, admits_some]

/-- A note, which may answer another and be made of parts. -/
structure Note where
  title : String
  tags : List String
  author : String
  answers : Option Note
  parts : List Note

/-- The fields of notes; filters on notes may also ask for a colour. -/
def noteTypes : RecordTypes (Fin 1) (fun _ => Note) := fun _ =>
  { name := "Note"
    fields :=
      [⟨"title", .value ⟨.string, false⟩ fun note => .string note.title⟩,
        ⟨"tags", .values ⟨.string, false⟩ fun note => note.tags.map .string⟩,
        ⟨"author", .composite "Person"
          [⟨"name", ⟨.string, false⟩, fun note => .string note.author⟩]⟩,
        ⟨"answers", .nested 0 Note.answers⟩,
        ⟨"parts", .list 0 Note.parts⟩] }

/-- The person of a note, of whom the name is known. -/
def notePerson : Composite := { name := "Person", members := [⟨"name", ⟨.string, false⟩⟩] }

/-- Filters on notes. -/
def noteShapes : Fin 1 → Shape (Fin 1) := fun _ =>
  { name := "NoteFilter"
    fields :=
      [⟨"title", .leaf (.primitive ⟨.string, false⟩)⟩,
        ⟨"tags", .leaf (.primitive ⟨.string, false⟩)⟩,
        ⟨"author", .leaf (.composite notePerson)⟩,
        ⟨"colour", .leaf (.primitive ⟨.string, false⟩)⟩,
        ⟨"answers", .nested 0⟩,
        ⟨"parts", .list 0⟩] }

/-- A leaf on a text with one operation. -/
def noteLeaf (op : Operation) (text : String) : Entry (Fin 1) :=
  .leaf ⟨.primitive ⟨.string, false⟩, [⟨op, [.string text], false, none⟩]⟩

/-- The filter on the note that is answered contributes nothing, and so does one of the three on
parts. -/
def noteFilter : Node (Fin 1) :=
  .mk (noteShapes 0)
    [("title", noteLeaf .like "LEAN"),
      ("tags", .leaf ⟨.primitive ⟨.string, false⟩,
        [⟨.inside, [.string "x", .string "y"], true, none⟩,
          ⟨.notInside, [.string "old"], true, none⟩]⟩),
      ("author", .leaf ⟨.composite notePerson,
        [⟨.startsWith, [.string "a"], false, some "NAME"⟩]⟩),
      ("answers", .nested (.mk (noteShapes 0) [("colour", noteLeaf .eq "red")])),
      ("parts", .list
        [.mk (noteShapes 0) [("title", noteLeaf .eq "one")],
          .mk (noteShapes 0) [("colour", noteLeaf .eq "red")],
          .mk (noteShapes 0)
            [("answers", .nested (.mk (noteShapes 0) [("title", noteLeaf .ne "one")]))]])]

/-- A note that satisfies the filter; without its parts it does not. -/
def note : Note :=
  { title := "On Lean", tags := ["y", "new"], author := "Ada", answers := none
    parts :=
      [⟨"one", [], "", none, []⟩, ⟨"two", [], "", some ⟨"question", [], "", none, []⟩, []⟩] }

theorem compile_meaning_notes :
    ∃ p, compile noteTypes 0 noteFilter = .ok (some p) ∧
      p.accepts note = true ∧ p.accepts { note with parts := [] } = false ∧
      Contributes noteTypes 0 noteFilter ∧
      ∀ r, p.accepts r = true ↔ Satisfies noteTypes 0 r noteFilter := by
  have hrun : (compile noteTypes 0 noteFilter).map (Option.map fun p =>
      (p.accepts note, p.accepts { note with parts := [] })) = .ok (some (true, false)) := by
    decide +kernel
  obtain ⟨compiled, hcompiled, hsome⟩ := map_ok_iff.1 hrun
  obtain ⟨p, rfl, haccepts⟩ := Option.map_eq_some_iff.1 hsome
  simp only [Prod.mk.injEq] at haccepts
  obtain ⟨hempty, hmeaning⟩ := compile_meaning hcompiled
  refine ⟨p, hcompiled, haccepts.1, haccepts.2, ?_, hmeaning p rfl⟩
  by_contra hsilent
  cases hempty.2 hsilent

end BracketFilter
