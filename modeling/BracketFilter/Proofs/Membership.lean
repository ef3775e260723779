import BracketFilter.Proofs.Jointly
import BracketFilter.Proofs.TokenLists

/-!
# Membership is a disjunction of equalities

* `Leaf.IsToken` — a text that may stand in a list as it is.
* `EqualTo`, `EqualToOne` — a value is equal to what a text, or one of several, is read as.
* `Filters`, `Accepts` — a query is bound and compiles, and accepts a record.

Principal results: `tokens_intercalate` — a list of tokens that is joined with commas is read as
these tokens; `exists_reading_of_filters` — a membership and the comparisons with its members test
the same reading; `inside_iff_eq` — a membership is bound and compiles exactly if all equalities
with its members do, and accepts what one of them accepts, and likewise for the negated operations
apart from lists; `inside_differs_from_eq` — not so where the key is the bare key of a field as
well.
-/

set_option autoImplicit false

namespace BracketFilter

open BracketFilter.Text

variable {ι κ : Type} {C : κ → Type}

/-! ## Lists of tokens -/

/-- A text that may stand in a list as it is: not empty, without commas, and without spaces at its
ends. -/
structure Leaf.IsToken (t : String) : Prop where
  nonempty : t ≠ ""
  noComma : ',' ∉ t.toList
  noLeading : t.toList.head? ≠ some ' '
  noTrailing : t.toList.getLast? ≠ some ' '

instance (t : String) : Decidable (Leaf.IsToken t) :=
  decidable_of_iff
    (t ≠ "" ∧ ',' ∉ t.toList ∧ t.toList.head? ≠ some ' ' ∧ t.toList.getLast? ≠ some ' ')
    ⟨fun h => ⟨h.1, h.2.1, h.2.2.1, h.2.2.2⟩, fun h => ⟨h.1, h.2, h.3, h.4⟩⟩

/-- **A list of tokens that is joined with commas is read as these tokens.** -/
theorem Leaf.tokens_intercalate {ts : List String} (each : ∀ t ∈ ts, IsToken t)
    (nonempty : ts ≠ []) : tokens (",".intercalate ts) = ts := by
  have hpieces : (",".intercalate ts).toList.splitOn ',' = ts.map String.toList := by
    rw [String.toList_intercalate]
    refine List.splitOn_intercalate ',' ?_ (by simpa using nonempty)
    intro piece hpiece
    obtain ⟨t, ht, rfl⟩ := List.mem_map.1 hpiece
    exact (each t ht).noComma
  have htrim : ∀ t ∈ ts, trimBoth (· == ' ') t.toList = t.toList := by
    intro t ht
    refine trimBoth_eq_self (fun c hc => ?_) (fun c hc => ?_)
    · rw [beq_eq_false_iff_ne]
      rintro rfl
      exact (each t ht).noLeading hc
    · rw [beq_eq_false_iff_ne]
      rintro rfl
      exact (each t ht).noTrailing hc
  have hkeep : ∀ piece ∈ ts.map String.toList, decide (piece ≠ []) = true := by
    intro piece hpiece
    obtain ⟨t, ht, rfl⟩ := List.mem_map.1 hpiece
    refine decide_eq_true fun hnil => (each t ht).nonempty ?_
    exact String.toList_eq_nil_iff.1 hnil
  have htrimmed : (ts.map String.toList).map (trimBoth (· == ' ')) = ts.map String.toList := by
    rw [List.map_map]
    exact List.map_congr_left htrim
  unfold tokens
  rw [hpieces, htrimmed, List.filter_eq_self.2 hkeep, List.map_map]
  simp

/-! ## Operations that compare for equality -/

/-- A value is equal to what a text is read as for a kind. -/
def EqualTo (coercer : Coercer) (t : String) (kind : Kind) (value : Value) : Prop :=
  ∃ operand, coercer t kind = .ok operand ∧ value.compare? operand = some .eq

/-- A value is equal to one of the operands exactly if it is to one of the texts that they were read
from. -/
theorem exists_operand_iff {coercer : Coercer} {kind : Kind} {ts : List String}
    {values : List Value} (read : List.Forall₂ (fun t v => coercer t kind = .ok v) ts values)
    (value : Value) : (∃ operand ∈ values, value.compare? operand = some .eq) ↔
      ∃ t ∈ ts, EqualTo coercer t kind value := by
  constructor
  · rintro ⟨operand, hoperand, hequal⟩
    obtain ⟨t, ht, hread⟩ := exists_of_mem_forall₂ read.flip hoperand
    exact ⟨t, ht, operand, hread, hequal⟩
  · rintro ⟨t, ht, operand, hread, hequal⟩
    obtain ⟨operand', hoperand', hread'⟩ := exists_of_mem_forall₂ read ht
    cases hread.symm.trans hread'
    exact ⟨operand, hoperand', hequal⟩

theorem Answers.operands_read {coercer : Coercer} {member : Option String} {kind : Kind}
    {op : Operation} {raw : String} {applied : Applied}
    (h : Answers coercer (.operation member kind op) raw (.operation applied)) {ts : List String}
    (operands : op.family = .membership ∧ Leaf.tokens raw = ts ∨
      op.family = .comparison ∧ ts = [raw]) :
    List.Forall₂ (fun t v => coercer t kind = .ok v) ts applied.values := by
  cases h with
  | comparison family read =>
    rcases operands with ⟨hfamily, -⟩ | ⟨-, rfl⟩
    · cases family.symm.trans hfamily
    · exact .cons read .nil
  | text family =>
    rcases operands with ⟨hfamily, -⟩ | ⟨hfamily, -⟩
    · cases family.symm.trans hfamily
    · cases family.symm.trans hfamily
  | membership family _ read =>
    rcases operands with ⟨-, rfl⟩ | ⟨hfamily, -⟩
    · exact read
    · cases family.symm.trans hfamily

/-- A value is equal to what one of some texts is read as, or, if that is negated, to none. -/
def EqualToOne (coercer : Coercer) (negated : Bool) (ts : List String) (kind : Kind)
    (value : Value) : Prop :=
  if negated then ∀ t ∈ ts, ¬ EqualTo coercer t kind value
  else ∃ t ∈ ts, EqualTo coercer t kind value

/-- An operation that compares for equality, or is the negation of one, decides whether a value is
equal to one of its texts. -/
theorem decides_equalToOne (coercer : Coercer) (op : Operation) {raw : String} {ts : List String}
    (equality : op.Meets = fun operand value => value.compare? operand = some .eq)
    (operands : op.family = .membership ∧ Leaf.tokens raw = ts ∨
      op.family = .comparison ∧ ts = [raw]) :
    Decides coercer op raw (EqualToOne coercer op.isNegated ts) := by
  intro member kind applied h value
  have hequal := exists_operand_iff (h.operands_read operands) value
  unfold Applied.Holds EqualToOne
  rw [h.operation_eq, equality, hequal]
  simp only [not_exists, not_and]

/-! ## A membership and the comparisons with its members -/

/-- A query is bound and compiles for the records of a type. -/
def Filters (types : RecordTypes κ C) (k : κ) (b : Binder) (shapes : ι → Shape ι) (shape : Shape ι)
    (base : Path) (q : Query) : Prop := ∃ compiled, FiltersTo types k b shapes shape base q compiled

/-- A query is bound and compiles for the records of a type, and accepts a record. -/
def Accepts (types : RecordTypes κ C) (k : κ) (b : Binder) (shapes : ι → Shape ι) (shape : Shape ι)
    (base : Path) (q : Query) (r : C k) : Prop :=
  ∃ compiled, FiltersTo types k b shapes shape base q compiled ∧ Admits compiled r

section Membership

variable {types : RecordTypes κ C} {k : κ} {b : Binder} {shapes : ι → Shape ι} {shape : Shape ι}
  {base path : Path} {q : Query} {list one : Operation} {raw : String} {ts : List String}

theorem filters_iff_isSome : Filters types k b shapes shape base q ↔
    ((b.build shapes shape q base).toOption.bind fun node =>
      (compile types k node).toOption).isSome = true := by
  simp only [Filters, FiltersTo, Option.isSome_iff_exists, Option.bind_eq_some_iff,
    toOption_eq_some_iff]

theorem accepts_iff_any {r : C k} : Accepts types k b shapes shape base q r ↔
    ((b.build shapes shape q base).toOption.bind fun node => (compile types k node).toOption).any
      (fun compiled => compiled.all fun p => p.accepts r) = true := by
  simp only [Option.any_eq_true, Option.bind_eq_some_iff, toOption_eq_some_iff, Option.all_eq_true]
  rfl

instance : Decidable (Filters types k b shapes shape base q) :=
  decidable_of_iff' _ filters_iff_isSome

instance (r : C k) : Decidable (Accepts types k b shapes shape base q r) :=
  decidable_of_iff' _ accepts_iff_any

theorem accepts_iff_satisfies {node : Node ι} {compiled : Option (PurePredicate (C k))}
    (built : b.build shapes shape q base = .ok node)
    (compiles : compile types k node = .ok compiled) (r : C k) :
    Accepts types k b shapes shape base q r ↔ Satisfies types k r node := by
  have filters : FiltersTo types k b shapes shape base q compiled := ⟨node, built, compiles⟩
  rw [← (means_of_compile compiles).admits]
  constructor
  · rintro ⟨compiled', filters', hr⟩
    rwa [filters.unique filters']
  · exact fun hr => ⟨compiled, filters, hr⟩

section Joint

variable (strict : b.coercer.Strict) (lists : list.ListsFor one raw ts b.limits.maxInValues)
  (apart : shape.KeepsApart shapes base path list) (apart' : shape.KeepsApart shapes base path one)

include strict lists apart apart'

/-- **A membership is bound and compiles exactly if each comparison with a member does.** -/
theorem filters_list_iff :
    Filters types k b shapes shape base (.asking path list raw) ↔
      ∀ t ∈ ts, Filters types k b shapes shape base (.asking path one t) := by
  have jointly : BuildsJointly types b shapes path list one raw ts shape base 0 :=
    buildNode_jointly types strict lists apart apart'
  constructor
  · rintro ⟨compiled, node, hnode, hcompiled⟩ t ht
    obtain ⟨node', hnode'⟩ := jointly.ok_iff.1 ⟨node, hnode⟩ t ht
    have alike := jointly.related node hnode t ht node' hnode'
    obtain ⟨compiled', hcompiled'⟩ := alike.there.compiles k compiled hcompiled
    exact ⟨compiled', node', hnode', hcompiled'⟩
  · intro each
    have hbound : ∀ t ∈ ts, ∃ node',
        b.build shapes shape (.asking path one t) base = .ok node' := by
      intro t ht
      obtain ⟨_, node', hnode', -⟩ := each t ht
      exact ⟨node', hnode'⟩
    obtain ⟨node, hnode⟩ := jointly.ok_iff.2 hbound
    obtain ⟨t, ht⟩ := List.exists_mem_of_ne_nil ts lists.nonempty
    obtain ⟨compiled', node', hnode', hcompiled'⟩ := each t ht
    have alike := jointly.related node hnode t ht node' hnode'
    obtain ⟨compiled, hcompiled⟩ := alike.back.compiles k compiled' hcompiled'
    exact ⟨compiled, node, hnode, hcompiled⟩

/-- **A membership and the comparisons with its members ask for nothing, or test one reading**,
which reaches one collection at most apart from lists. -/
theorem exists_reading_of_filters {test : Kind → Value → Prop}
    {testOne : String → Kind → Value → Prop} (decides : Decides b.coercer list raw test)
    (decidesOne : ∀ t, Decides b.coercer one t (testOne t))
    (filters : Filters types k b shapes shape base (.asking path list raw)) :
    (∀ r, Accepts types k b shapes shape base (.asking path list raw) r ∧
        ∀ t ∈ ts, Accepts types k b shapes shape base (.asking path one t) r) ∨
      ∃ reading : Reading (C k), ∀ r,
        (Accepts types k b shapes shape base (.asking path list raw) r ↔
          reading.Meets list.isNegated (test reading.kind) r) ∧
        (∀ t ∈ ts, Accepts types k b shapes shape base (.asking path one t) r ↔
          reading.Meets one.isNegated (testOne t reading.kind) r) ∧
        (¬ ReachesList shapes path shape base → (reading.groups r).length ≤ 1) := by
  have jointly : BuildsJointly types b shapes path list one raw ts shape base 0 :=
    buildNode_jointly types strict lists apart apart'
  have each := (filters_list_iff strict lists apart apart').1 filters
  have noText : list.family ≠ .text := by simp [lists.membership]
  have noText' : one.family ≠ .text := by simp [lists.comparison]
  obtain ⟨compiled, node, hnode, hcompiled⟩ := filters
  by_cases contributes : Contributes types k node
  · right
    obtain ⟨rest, reading, hpath, hreading, hholds, hindex⟩ :=
      asksAlong_of_build strict noText decides apart hnode hcompiled contributes
    refine ⟨reading, fun r => ⟨?_, fun t ht => ?_, fun noList => ?_⟩⟩
    · rw [accepts_iff_satisfies hnode hcompiled]
      exact hholds r
    · obtain ⟨compiled', node', hnode', hcompiled'⟩ := each t ht
      have alike := jointly.related node hnode t ht node' hnode'
      obtain ⟨rest', reading', hpath', hreading', hholds', -⟩ :=
        asksAlong_of_build strict noText' (decidesOne t) apart' hnode' hcompiled'
          (alike.there.contributes k contributes)
      -- Both are readings of what is left of the path.
      cases List.append_cancel_left (hpath'.symm.trans hpath)
      cases hreading.symm.trans hreading'
      rw [accepts_iff_satisfies hnode' hcompiled']
      exact hholds' r
    · exact length_groups_le_one hreading (hindex noList) r
  · left
    refine fun r => ⟨?_, fun t ht => ?_⟩
    · rw [accepts_iff_satisfies hnode hcompiled]
      exact satisfies_of_silent hcompiled contributes r
    · obtain ⟨compiled', node', hnode', hcompiled'⟩ := each t ht
      have alike := jointly.related node hnode t ht node' hnode'
      rw [accepts_iff_satisfies hnode' hcompiled']
      exact satisfies_of_silent hcompiled'
        (fun contributes' => contributes (alike.back.contributes k contributes')) r

/-- A membership accepts what one of the comparisons with its members accepts, if neither is
negated. -/
theorem accepts_list_iff_exists (plain : list.isNegated = false)
    (plain' : one.isNegated = false) {test : String → Kind → Value → Prop}
    (decides : Decides b.coercer list raw fun kind value => ∃ t ∈ ts, test t kind value)
    (decidesOne : ∀ t, Decides b.coercer one t (test t))
    (filters : Filters types k b shapes shape base (.asking path list raw)) (r : C k) :
    Accepts types k b shapes shape base (.asking path list raw) r ↔
      ∃ t ∈ ts, Accepts types k b shapes shape base (.asking path one t) r := by
  rcases exists_reading_of_filters strict lists apart apart' decides decidesOne filters with
    hall | ⟨reading, hreading⟩
  · obtain ⟨hlist, hone⟩ := hall r
    obtain ⟨t, ht⟩ := List.exists_mem_of_ne_nil ts lists.nonempty
    exact iff_of_true hlist ⟨t, ht, hone t ht⟩
  · obtain ⟨hlist, hone, -⟩ := hreading r
    rw [hlist, plain, Reading.meets_exists]
    refine exists_congr fun t => and_congr_right fun ht => ?_
    rw [hone t ht, plain']

/-- A negated membership accepts what all comparisons with its members accept, if these are negated
as well and no list is reached. -/
theorem accepts_list_iff_forall (negated : list.isNegated = true) (negated' : one.isNegated = true)
    (noList : ¬ ReachesList shapes path shape base) {test : String → Kind → Value → Prop}
    (decides : Decides b.coercer list raw fun kind value => ∀ t ∈ ts, test t kind value)
    (decidesOne : ∀ t, Decides b.coercer one t (test t))
    (filters : Filters types k b shapes shape base (.asking path list raw)) (r : C k) :
    Accepts types k b shapes shape base (.asking path list raw) r ↔
      ∀ t ∈ ts, Accepts types k b shapes shape base (.asking path one t) r := by
  rcases exists_reading_of_filters strict lists apart apart' decides decidesOne filters with
    hall | ⟨reading, hreading⟩
  · exact iff_of_true (hall r).1 (hall r).2
  · obtain ⟨hlist, hone, hsingle⟩ := hreading r
    rw [hlist, negated, Reading.meets_forall (hsingle noList) lists.nonempty]
    refine forall_congr' fun t => imp_congr_right fun ht => ?_
    rw [hone t ht, negated']

end Joint

variable (types k shapes shape base path) in
/-- **Membership is a disjunction of equalities.** If the coercer gives values of the kinds that are
asked for, as the standard one does, a membership of tokens is bound and compiles exactly if the
equalities with all of them do, and then accepts what one of these accepts; and where no list is
reached, the negated membership accepts what all negated equalities accept. Their keys are not to be
bare keys of the shape as well, which they are not at what is declared with distinct names. -/
theorem inside_iff_eq (strict : b.coercer.Strict) (each : ∀ t ∈ ts, Leaf.IsToken t)
    (nonempty : ts ≠ []) (few : ts.length ≤ b.limits.maxInValues) :
    Coercer.standard.Strict ∧
    (∀ rest, path = base ++ rest → (∀ i, (shapes i).DistinctNames) → shape.DistinctNames →
      shape.Declares shapes rest → ∀ op, shape.KeepsApart shapes base path op) ∧
    (shape.KeepsApart shapes base path .inside → shape.KeepsApart shapes base path .eq →
      (Filters types k b shapes shape base (.asking path .inside (",".intercalate ts)) ↔
        ∀ t ∈ ts, Filters types k b shapes shape base (.asking path .eq t)) ∧
      (Filters types k b shapes shape base (.asking path .inside (",".intercalate ts)) → ∀ r,
        Accepts types k b shapes shape base (.asking path .inside (",".intercalate ts)) r ↔
          ∃ t ∈ ts, Accepts types k b shapes shape base (.asking path .eq t) r)) ∧
    (shape.KeepsApart shapes base path .notInside → shape.KeepsApart shapes base path .ne →
      (Filters types k b shapes shape base (.asking path .notInside (",".intercalate ts)) ↔
        ∀ t ∈ ts, Filters types k b shapes shape base (.asking path .ne t)) ∧
      (Filters types k b shapes shape base (.asking path .notInside (",".intercalate ts)) →
        ¬ ReachesList shapes path shape base → ∀ r,
        Accepts types k b shapes shape base (.asking path .notInside (",".intercalate ts)) r ↔
          ∀ t ∈ ts, Accepts types k b shapes shape base (.asking path .ne t) r)) := by
  have tokens := Leaf.tokens_intercalate each nonempty
  refine ⟨Coercer.strict_standard, ?_, ?_, ?_⟩
  · rintro rest rfl family distinct declares op
    exact keepsApart_of_distinct family distinct declares base op
  · intro apart apart'
    have lists : Operation.ListsFor .inside .eq (",".intercalate ts) ts b.limits.maxInValues :=
      ⟨rfl, rfl, tokens, nonempty, few⟩
    have decides := decides_equalToOne b.coercer .inside rfl (.inl ⟨rfl, tokens⟩)
    have decidesOne (t : String) : Decides b.coercer .eq t (EqualTo b.coercer t) := by
      refine (decides_equalToOne b.coercer _ rfl (.inr ⟨rfl, rfl⟩)).congr ?_
      simp [EqualToOne, Operation.isNegated]
    refine ⟨filters_list_iff strict lists apart apart', fun filters => ?_⟩
    exact accepts_list_iff_exists strict lists apart apart' rfl rfl decides decidesOne filters
  · intro apart apart'
    have lists : Operation.ListsFor .notInside .ne (",".intercalate ts) ts b.limits.maxInValues :=
      ⟨rfl, rfl, tokens, nonempty, few⟩
    have decides := decides_equalToOne b.coercer .notInside rfl (.inl ⟨rfl, tokens⟩)
    have decidesOne (t : String) :
        Decides b.coercer .ne t fun kind value => ¬ EqualTo b.coercer t kind value := by
      refine (decides_equalToOne b.coercer _ rfl (.inr ⟨rfl, rfl⟩)).congr ?_
      simp [EqualToOne, Operation.isNegated]
    refine ⟨filters_list_iff strict lists apart apart', fun filters noList => ?_⟩
    exact accepts_list_iff_forall strict lists apart apart' rfl rfl noList decides decidesOne
      filters

end Membership

theorem distinctNames_noteShapes (i : Fin 1) : (noteShapes i).DistinctNames where
  fields := by
    cases Subsingleton.elim i 0
    decide +kernel
  members := by
    intro field hfield type htype
    simp only [noteShapes, List.mem_cons, List.not_mem_nil, or_false] at hfield
    rcases hfield with rfl | rfl | rfl | rfl | rfl | rfl <;> cases htype
    decide +kernel

/-- The tags of the first part of a note. -/
def partTags : Path := [.named "parts", .index 0, .named "tags"]

/-- The name of the author of the note that is answered. -/
def answeredAuthor : Path := [.named "answers", .named "author", .named "name"]

theorem declares_partTags : (noteShapes 0).Declares noteShapes partTags := by
  have hparts : (⟨"parts", .list 0⟩ : FieldShape (Fin 1)) ∈ (noteShapes 0).fields := by
    simp [noteShapes]
  have htags : (⟨"tags", .leaf (.primitive ⟨.string, false⟩)⟩ : FieldShape (Fin 1)) ∈
      (noteShapes 0).fields := by simp [noteShapes]
  exact ⟨_, hparts, [.index 0, .named "tags"], rfl, .list htags .leaf⟩

theorem declares_answeredAuthor : (noteShapes 0).Declares noteShapes answeredAuthor := by
  have hanswers : (⟨"answers", .nested 0⟩ : FieldShape (Fin 1)) ∈ (noteShapes 0).fields := by
    simp [noteShapes]
  have hauthor : (⟨"author", .leaf (.composite notePerson)⟩ : FieldShape (Fin 1)) ∈
      (noteShapes 0).fields := by simp [noteShapes]
  have hname : (⟨"name", ⟨.string, false⟩⟩ : Member) ∈ notePerson.members := by simp [notePerson]
  exact ⟨_, hanswers, [.named "author", .named "name"], rfl, .nested hauthor (.member hname)⟩

theorem inside_iff_eq_notes :
    (Binder.coercer {}).Strict ∧ (∀ t ∈ ["old", "new"], Leaf.IsToken t) ∧
    ["old", "new"].length ≤ (Binder.limits {}).maxInValues ∧
    Query.ofPairs [("Parts[0][tags][in]", "old,new")] = .asking partTags .inside "old,new" ∧
    (∀ op, (noteShapes 0).KeepsApart noteShapes [] partTags op) ∧
    (∀ op, (noteShapes 0).KeepsApart noteShapes [] answeredAuthor op) ∧
    ¬ ReachesList noteShapes answeredAuthor (noteShapes 0) [] ∧
    (∀ r, Accepts noteTypes 0 {} noteShapes (noteShapes 0) []
        (.asking partTags .inside "old,new") r ↔ ∃ t ∈ ["old", "new"],
          Accepts noteTypes 0 {} noteShapes (noteShapes 0) [] (.asking partTags .eq t) r) ∧
    Accepts noteTypes 0 {} noteShapes (noteShapes 0) [] (.asking partTags .inside "old,new")
      { note with parts := [{ note with tags := ["x", "new"] }] } ∧
    ¬ Accepts noteTypes 0 {} noteShapes (noteShapes 0) []
      (.asking partTags .inside "old,new") note ∧
    (∀ r, Accepts noteTypes 0 {} noteShapes (noteShapes 0) []
        (.asking answeredAuthor .notInside "old,new") r ↔ ∀ t ∈ ["old", "new"],
          Accepts noteTypes 0 {} noteShapes (noteShapes 0) [] (.asking answeredAuthor .ne t) r) ∧
    Accepts noteTypes 0 {} noteShapes (noteShapes 0) []
      (.asking answeredAuthor .notInside "old,new") { note with answers := some note } ∧
    ¬ Accepts noteTypes 0 {} noteShapes (noteShapes 0) []
      (.asking answeredAuthor .notInside "old,new") note := by
  have hstrict : (Binder.coercer {}).Strict := Coercer.strict_standard
  have heach : ∀ t ∈ ["old", "new"], Leaf.IsToken t := by decide +kernel
  have hfew : ["old", "new"].length ≤ (Binder.limits {}).maxInValues := by decide
  have hjoined : ",".intercalate ["old", "new"] = "old,new" := by decide +kernel
  have hnoList : ¬ ReachesList noteShapes answeredAuthor (noteShapes 0) [] :=
    not_reachesList_notes (by decide +kernel) []
  have hpart := inside_iff_eq noteTypes 0 noteShapes (noteShapes 0) [] partTags hstrict heach
    (by decide) hfew
  have hauthor := inside_iff_eq noteTypes 0 noteShapes (noteShapes 0) [] answeredAuthor hstrict
    heach (by decide) hfew
  rw [hjoined] at hpart hauthor
  obtain ⟨-, hpartApart, hpartInside, -⟩ := hpart
  obtain ⟨-, hauthorApart, -, hauthorNot⟩ := hauthor
  have hpartApart := hpartApart partTags rfl distinctNames_noteShapes (distinctNames_noteShapes 0)
    declares_partTags
  have hauthorApart := hauthorApart answeredAuthor rfl distinctNames_noteShapes
    (distinctNames_noteShapes 0) declares_answeredAuthor
  obtain ⟨-, hinside⟩ := hpartInside (hpartApart _) (hpartApart _)
  obtain ⟨-, hnot⟩ := hauthorNot (hauthorApart _) (hauthorApart _)
  have hread : Key.parse? "Parts[0][tags][in]" = some ⟨partTags, some .inside⟩ := by decide +kernel
  exact ⟨hstrict, heach, hfew, Query.ofPairs_singleton hread _, hpartApart, hauthorApart, hnoList,
    hinside (by decide +kernel), by decide +kernel, by decide +kernel,
    hnot (by decide +kernel) hnoList, by decide +kernel, by decide +kernel⟩

/-! ## Keys that are bare keys as well -/

/-- Filters with two fields of one name: the key of a membership on the first is the bare key of a
member of the second. -/
def markedShapes : Fin 1 → Shape (Fin 1) := fun _ =>
  { name := "MarkedFilter"
    fields :=
      [⟨"title", .leaf (.primitive ⟨.string, false⟩)⟩,
        ⟨"Title", .leaf (.composite { name := "Marks", members := [⟨"in", ⟨.i64, false⟩⟩] })⟩] }

/-- **Where the key of a membership is a bare key as well**, the equalities with the tokens may be
bound and compile though the membership is not bound. -/
theorem inside_differs_from_eq :
    (Binder.coercer {}).Strict ∧ (∀ t ∈ ["a", "b"], Leaf.IsToken t) ∧
    ["a", "b"].length ≤ (Binder.limits {}).maxInValues ∧
    Query.ofPairs [("title[in]", "a,b")] = .asking [.named "title"] .inside "a,b" ∧
    (∀ t ∈ ["a", "b"], Filters noteTypes 0 {} markedShapes (markedShapes 0) []
      (.asking [.named "title"] .eq t)) ∧
    ¬ Filters noteTypes 0 {} markedShapes (markedShapes 0) []
      (.asking [.named "title"] .inside (",".intercalate ["a", "b"])) := by
  have hread : Key.parse? "title[in]" = some ⟨[.named "title"], some .inside⟩ := by decide +kernel
  exact ⟨Coercer.strict_standard, by decide +kernel, by decide, Query.ofPairs_singleton hread _,
    by decide +kernel, by decide +kernel⟩

end BracketFilter
