import BracketFilter.Proofs.BindingExact
import BracketFilter.Proofs.Faults

/-!
# When a bound tree is empty

* `KeyApplies` — a key of a query gives a parameter its value, or asks for an operation on a leaf.
* `EntryAsked` — a key of a query asks for the first entry of a list.
* `Nowhere` — what fields of a visited position may have, none of them has.

Principal result: `isEmpty_iff_of_build` — a bound tree holds no value and no operation exactly if
no key is applied at a position that the query asks for; it counts as empty exactly if, besides, the
query asks for no entry of a list, since a list keeps its entries even if they hold nothing.
-/

set_option autoImplicit false

namespace BracketFilter

open BracketFilter.Text

variable {ι : Type}

/-! ## What a key does to a field -/

/-- A key of a query gives the parameter at a path its value, or asks for an operation on the leaf
there or on one of its members. A membership operation that lists nothing is none. -/
inductive KeyApplies (q : Query) (here : Path) : Role ι → Prop
  | parameter {type : ValueType} {raw : String} (found : q.get? here none = some raw) :
      KeyApplies q here (.scalar type)
  | operation {type : LeafType} {member : Option String} {path : Path} {lookup : Option Operation}
      {kind : Kind} {raw : String} (about : (member, path) ∈ operands here type)
      (typed : type.operandKind? member = some kind) (asked : lookup ∈ lookups)
      (found : q.get? path lookup = some raw)
      (lists : ¬ (Target.operation member kind (lookup.getD .eq)).ListsNothing raw) :
      KeyApplies q here (.leaf type)

/-- A key of a query asks for the first entry of the list at a path. -/
inductive EntryAsked (q : Query) (here : Path) : Role ι → Prop
  | mk {target : ι} (mentioned : q.Mentions (here ++ [.index 0])) : EntryAsked q here (.list target)

/-- A request on an operand of a leaf that is answered adds nothing exactly if it lists nothing. -/
theorem Leaf.answer_eq_none_iff {site : Site} {type : LeafType} {member : Option String}
    {op : Operation} {raw : String} {answer : Option Applied}
    (h : Leaf.answer site type (member, op, raw) = .ok answer) :
    answer = none ↔ ∀ kind, type.operandKind? member = some kind →
      (Target.operation member kind op).ListsNothing raw := by
  cases hkind : type.operandKind? member with
  | none =>
    have hoperand : operandType? type member = none := by
      simpa [LeafType.operandKind?] using hkind
    simp only [Leaf.answer, hoperand, Except.ok.injEq] at h
    simp [← h]
  | some kind =>
    rw [answer_eq_read hkind] at h
    constructor
    · rintro rfl _ ⟨⟩
      rcases answered_of_read h with ⟨item, hitem⟩ | hnothing
      · obtain ⟨_, hsome, -⟩ := (answers_iff_of_read h).1 hitem
        cases hsome
      · exact hnothing
    · intro hnothing
      rcases read_ok_cases h with ⟨applied, rfl, hasks⟩ | ⟨hnone, -⟩
      · obtain ⟨hfamily, hblank⟩ := hnothing kind rfl
        cases hasks with
        | comparison family => cases hfamily.symm.trans family
        | text family => cases hfamily.symm.trans family
        | membership _ listed read =>
          rw [tokens_eq_nil_iff.2 hblank, List.forall₂_nil_left_iff] at read
          exact absurd read listed
      · exact hnone

namespace Binder

variable {b : Binder} {shapes : ι → Shape ι} {shape : Shape ι} {q : Query} {here : Path}

theorem bindLeaf_eq_none_iff {type : LeafType} {entry : Option (Entry ι)}
    (h : b.bindLeaf q here type = .ok entry) :
    entry = none ↔ ¬ KeyApplies q here (.leaf type : Role ι) := by
  obtain ⟨answers, hanswers, rfl⟩ := bindLeaf_ok_iff.1 h
  have hnone : (leafEntry type (answers.filterMap id) : Option (Entry ι)) = none ↔
      ∀ answer ∈ answers, answer = none := by
    unfold leafEntry
    split <;> rename_i hlist <;> simpa [List.filterMap_eq_nil_iff] using hlist
  rw [hnone]
  constructor
  · rintro hall (_ | ⟨about, typed, asked, found, lists⟩)
    obtain ⟨answer, hmem, hanswer⟩ := exists_of_mem_forall₂ hanswers
      (mem_leafRequests_iff.2 ⟨_, _, about, asked, rfl, found⟩)
    exact lists ((Leaf.answer_eq_none_iff hanswer).1 (hall answer hmem) _ typed)
  · intro hnot answer hmem
    obtain ⟨⟨member, op, raw⟩, hrequest, hanswer⟩ := exists_of_mem_forall₂ hanswers.flip hmem
    obtain ⟨path, lookup, about, asked, rfl, found⟩ := mem_leafRequests_iff.1 hrequest
    refine (Leaf.answer_eq_none_iff hanswer).2 fun kind typed => ?_
    by_contra lists
    exact hnot (.operation about typed asked found lists)

theorem bindScalar_eq_none_iff {type : ValueType} {entry : Option (Entry ι)}
    (h : b.bindScalar q here type = .ok entry) :
    entry = none ↔ ¬ KeyApplies q here (.scalar type : Role ι) := by
  rcases bindScalar_ok_iff.1 h with ⟨hnone, rfl⟩ | ⟨raw, value, hsome, -, rfl⟩
  · refine ⟨fun _ happlies => ?_, fun _ => rfl⟩
    cases happlies with
    | parameter found => cases hnone.symm.trans found
  · constructor
    · intro hentry
      cases hentry
    · intro hnot
      exact absurd (.parameter hsome) hnot

end Binder

/-! ## What is nowhere the case -/

section Nowhere

variable {limits : Limits} {shapes : ι → Shape ι} {q : Query} {P Q : Path → Role ι → Prop}
  {root : Position ι} {here : Path} {depth : Nat} {target : ι}

/-- No field of a position that is visited from a root on has a property. -/
def Nowhere (limits : Limits) (shapes : ι → Shape ι) (q : Query) (P : Path → Role ι → Prop)
    (root : Position ι) : Prop :=
  ∀ place pos, Visited limits shapes q root place pos →
    ∀ field ∈ pos.shape.fields, ¬ P (pos.fieldPath field) field.role

/-- Neither the field at a path nor one of a position that it opens, or below it, has a property. -/
def NowhereFrom (limits : Limits) (shapes : ι → Shape ι) (q : Query) (P : Path → Role ι → Prop)
    (here : Path) (depth : Nat) (role : Role ι) : Prop :=
  ¬ P here role ∧ ∀ move pos, Opens limits shapes q here depth role move pos →
    Nowhere limits shapes q P pos

/-- What is nowhere the case is so from no field of the root on. -/
theorem nowhere_iff : Nowhere limits shapes q P root ↔
    ∀ field ∈ root.shape.fields,
      NowhereFrom limits shapes q P (root.fieldPath field) root.depth field.role := by
  constructor
  · intro h field hfield
    refine ⟨h _ _ .root field hfield, fun move pos hopens place pos' hvisited => ?_⟩
    obtain ⟨n, hn⟩ := List.mem_iff_getElem?.1 hfield
    exact h _ _ (.below_root ⟨n, field, move, hn, rfl, hopens⟩ hvisited)
  · intro h place pos hvisited field hfield
    rcases visited_iff.1 hvisited with ⟨-, rfl⟩ |
      ⟨_, pos', rest, ⟨n, opener, move, hn, -, hopens⟩, hrest, -⟩
    · exact (h field hfield).1
    · exact (h opener (List.mem_of_getElem? hn)).2 move pos' hopens rest pos hrest field hfield

theorem nowhere_or_iff : Nowhere limits shapes q (fun here role => P here role ∨ Q here role) root ↔
    Nowhere limits shapes q P root ∧ Nowhere limits shapes q Q root := by
  simp only [Nowhere, not_or]
  constructor
  · intro h
    exact ⟨fun place pos hvisited field hfield => (h place pos hvisited field hfield).1,
      fun place pos hvisited field hfield => (h place pos hvisited field hfield).2⟩
  · rintro ⟨hP, hQ⟩ place pos hvisited field hfield
    exact ⟨hP place pos hvisited field hfield, hQ place pos hvisited field hfield⟩

theorem nowhereFrom_of_closed {role : Role ι}
    (closed : ∀ move pos, ¬ Opens limits shapes q here depth role move pos) :
    NowhereFrom limits shapes q P here depth role ↔ ¬ P here role :=
  ⟨And.left, fun h => ⟨h, fun move pos hopens => (closed move pos hopens).elim⟩⟩

theorem nowhereFrom_nested_iff (reached : q.reaches here = true)
    (within : depth < limits.maxDepth) :
    NowhereFrom limits shapes q P here depth (.nested target) ↔
      ¬ P here (.nested target) ∧ Nowhere limits shapes q P ⟨shapes target, here, depth + 1⟩ := by
  refine and_congr_right fun _ => ⟨fun h => ?_, fun h move pos hopens => ?_⟩
  · exact h _ _ (.nested within (Query.reaches_iff_mentions.1 reached))
  · cases hopens
    exact h

theorem nowhereFrom_list_iff (within : depth < limits.maxDepth)
    (short : q.listLength here ≤ limits.maxListItems) :
    NowhereFrom limits shapes q P here depth (.list target) ↔
      ¬ P here (.list target) ∧ ∀ i < q.listLength here,
        Nowhere limits shapes q P ⟨shapes target, here ++ [.index i], depth + 1⟩ := by
  have hmentioned (i : Nat) : i < q.listLength here ↔
      ∀ j ≤ i, q.Mentions (here ++ [.index j]) := by
    simp only [Query.lt_listLength_iff, Query.reaches_iff_mentions]
  refine and_congr_right fun _ => ⟨fun h i hi => ?_, fun h move pos hopens => ?_⟩
  · exact h _ _ (.list within ((hmentioned i).1 hi) (by omega))
  · cases hopens with
    | list _ mentioned _ => exact h _ ((hmentioned _).2 mentioned)

theorem not_opens_of_unreached {role : Role ι} (unreached : q.reaches here = false)
    (move : List Nat) (pos : Position ι) : ¬ Opens limits shapes q here depth role move pos := by
  have hnone : ¬ q.Mentions here := by
    rw [← Query.reaches_iff_mentions, unreached]
    exact Bool.false_ne_true
  rintro (⟨-, mentioned⟩ | ⟨-, mentioned, -⟩)
  · exact hnone mentioned
  · exact hnone ((mentioned 0 (Nat.zero_le _)).of_isPrefix (List.prefix_append _ _))

end Nowhere

namespace Binder

variable {b : Binder} {shapes : ι → Shape ι} {shape : Shape ι} {q : Query}

/-! ## Fields -/

theorem nodeListItems_eq_nil_iff {here : Path} {nodes : List (Node ι)} :
    nodeListItems here 0 nodes = [] ↔
      ∀ i (h : i < nodes.length), nodes[i].items (here ++ [.index i]) = [] := by
  rw [nodeListItems_eq_flatten, List.flatten_eq_nil_iff, List.forall_mem_map]
  constructor
  · intro h i hi
    exact h (nodes[i], i) (List.mem_zipIdx_iff_getElem?.2 (List.getElem?_eq_getElem hi))
  · rintro h ⟨node, i⟩ hmem
    obtain ⟨hi, hnode⟩ := List.getElem?_eq_some_iff.1 (List.mem_zipIdx_iff_getElem?.1 hmem)
    simpa only [hnode] using h i hi

/-- The entry of a field holds nothing exactly if no key is applied to the field or below it. -/
theorem optionItems_eq_nil_iff {here : Path} {depth : Nat} {role : Role ι}
    {entry : Option (Entry ι)}
    (h : FieldBound b shapes q (fun shape path depth node =>
      node.items path = [] ↔ Nowhere b.limits shapes q (KeyApplies q) ⟨shape, path, depth⟩) here
      depth role entry) :
    optionItems here entry = [] ↔
      NowhereFrom b.limits shapes q (KeyApplies q) here depth role := by
  cases h with
  | scalar bound =>
    rw [nowhereFrom_of_closed (by rintro _ _ ⟨⟩), ← bindScalar_eq_none_iff bound]
    rcases bindScalar_ok_iff.1 bound with ⟨-, rfl⟩ | ⟨raw, value, -, -, rfl⟩
    · simp
    · simp [optionItems, Entry.items]
  | leaf bound =>
    rw [nowhereFrom_of_closed (by rintro _ _ ⟨⟩), ← bindLeaf_eq_none_iff bound]
    obtain ⟨answers, -, rfl⟩ := bindLeaf_ok_iff.1 bound
    rw [optionItems_leafEntry, List.map_eq_nil_iff, leafEntry]
    simp
  | nested reached within bound =>
    rw [optionItems_nestedEntry, nowhereFrom_nested_iff reached within, bound]
    exact ⟨fun h => ⟨by rintro ⟨⟩, h⟩, And.right⟩
  | noNested unreached =>
    rw [nowhereFrom_of_closed (not_opens_of_unreached unreached)]
    exact ⟨fun _ => by rintro ⟨⟩, fun _ => rfl⟩
  | list reached within short length bound =>
    rw [optionItems_listEntry, nowhereFrom_list_iff within short, nodeListItems_eq_nil_iff,
      ← length]
    constructor
    · intro h
      exact ⟨by rintro ⟨⟩, fun i hi => (bound i hi).1 (h i hi)⟩
    · rintro ⟨-, h⟩ i hi
      exact (bound i hi).2 (h i hi)
  | noList unreached =>
    rw [nowhereFrom_of_closed (not_opens_of_unreached unreached)]
    exact ⟨fun _ => by rintro ⟨⟩, fun _ => rfl⟩

/-- A key is applied to a field, or asks for the first entry of a list. -/
def Asks (q : Query) (here : Path) (role : Role ι) : Prop :=
  KeyApplies q here role ∨ EntryAsked q here role

/-- A field has no entry exactly if no key is applied to the field or below it, and none asks for an
entry of a list. -/
theorem eq_none_iff_of_fieldBound {here : Path} {depth : Nat} {role : Role ι}
    {entry : Option (Entry ι)}
    (h : FieldBound b shapes q (fun shape path depth node =>
      node.isEmpty = true ↔ Nowhere b.limits shapes q (Asks q) ⟨shape, path, depth⟩) here depth role
      entry) :
    entry = none ↔ NowhereFrom b.limits shapes q (Asks q) here depth role := by
  cases h with
  | scalar bound =>
    rw [nowhereFrom_of_closed (by rintro _ _ ⟨⟩), bindScalar_eq_none_iff bound, Asks, not_or]
    exact ⟨fun h => ⟨h, by rintro ⟨⟩⟩, And.left⟩
  | leaf bound =>
    rw [nowhereFrom_of_closed (by rintro _ _ ⟨⟩), bindLeaf_eq_none_iff bound, Asks, not_or]
    exact ⟨fun h => ⟨h, by rintro ⟨⟩⟩, And.left⟩
  | @nested target child reached within bound =>
    rw [nowhereFrom_nested_iff reached within, ← bound, Asks, not_or]
    have hentry : nestedEntry child = none ↔ child.isEmpty = true := by
      unfold nestedEntry
      cases child.isEmpty <;> simp
    rw [hentry]
    exact ⟨fun h => ⟨⟨by rintro ⟨⟩, by rintro ⟨⟩⟩, h⟩, And.right⟩
  | noNested unreached =>
    rw [nowhereFrom_of_closed (not_opens_of_unreached unreached), Asks, not_or]
    exact ⟨fun _ => ⟨by rintro ⟨⟩, by rintro ⟨⟩⟩, fun _ => rfl⟩
  | @list target items reached within short length bound =>
    rw [nowhereFrom_list_iff within short, Asks, not_or]
    have hentry : listEntry items = none ↔ q.listLength here = 0 := by
      rw [← length, List.length_eq_zero_iff, listEntry]
      simp
    rw [hentry]
    -- A list has entries exactly if its first index is mentioned.
    constructor
    · intro hnone
      refine ⟨⟨by rintro ⟨⟩, ?_⟩, fun i hi => absurd hi (by omega)⟩
      rintro ⟨mentioned⟩
      have hfirst : 0 < q.listLength here := Query.lt_listLength_iff.2 fun j hj => by
        obtain rfl := Nat.le_zero.1 hj
        exact Query.reaches_iff_mentions.2 mentioned
      omega
    · rintro ⟨⟨-, hnot⟩, -⟩
      by_contra hlength
      have hfirst := Query.lt_listLength_iff.1 (Nat.pos_of_ne_zero hlength) 0 (Nat.le_refl 0)
      exact hnot ⟨Query.reaches_iff_mentions.1 hfirst⟩
  | noList unreached =>
    rw [nowhereFrom_of_closed (not_opens_of_unreached unreached), Asks, not_or]
    refine ⟨fun _ => ⟨by rintro ⟨⟩, ?_⟩, fun _ => rfl⟩
    rintro ⟨mentioned⟩
    have hmentioned := mentioned.of_isPrefix (List.prefix_append _ _)
    rw [← Query.reaches_iff_mentions, unreached] at hmentioned
    cases hmentioned

/-! ## Nodes -/

theorem items_eq_nil_iff {path : Path} {depth : Nat} {node : Node ι}
    (h : b.buildNode shapes q shape path depth = .ok node) :
    node.items path = [] ↔ Nowhere b.limits shapes q (KeyApplies q) ⟨shape, path, depth⟩ := by
  refine buildNode_induct (motive := fun shape path depth node =>
    node.items path = [] ↔ Nowhere b.limits shapes q (KeyApplies q) ⟨shape, path, depth⟩) ?_ h
  intro shape path depth given hgiven
  rw [nowhere_iff, items_assemble, List.flatten_eq_nil_iff, List.forall_mem_map]
  constructor
  · intro hnone field hfield
    obtain ⟨x, hx, entry, hentry, rfl⟩ := exists_of_mem_forall₂ hgiven hfield
    have hitems := hnone _ hx
    rw [givenItems_labelled] at hitems
    exact (optionItems_eq_nil_iff hentry).1 hitems
  · intro hnone x hx
    obtain ⟨field, hfield, entry, hentry, rfl⟩ := exists_of_mem_forall₂ hgiven.flip hx
    rw [givenItems_labelled]
    exact (optionItems_eq_nil_iff hentry).2 (hnone field hfield)

/-- A node has no entry exactly if no key is applied at its position or below, and none asks for an
entry of a list. -/
theorem isEmpty_iff_nowhere {path : Path} {depth : Nat} {node : Node ι}
    (h : b.buildNode shapes q shape path depth = .ok node) :
    node.isEmpty = true ↔ Nowhere b.limits shapes q (Asks q) ⟨shape, path, depth⟩ := by
  refine buildNode_induct (motive := fun shape path depth node =>
    node.isEmpty = true ↔ Nowhere b.limits shapes q (Asks q) ⟨shape, path, depth⟩) ?_ h
  intro shape path depth given hgiven
  have hempty : (assemble shape given).isEmpty = true ↔ ∀ x ∈ given, x = none := by
    simp [Node.isEmpty, Node.entries, assemble, List.filterMap_eq_nil_iff]
  rw [nowhere_iff, hempty]
  constructor
  · intro hnone field hfield
    obtain ⟨x, hx, entry, hentry, rfl⟩ := exists_of_mem_forall₂ hgiven hfield
    exact (eq_none_iff_of_fieldBound hentry).1 (by simpa [labelled] using hnone _ hx)
  · intro hnone x hx
    obtain ⟨field, hfield, entry, hentry, rfl⟩ := exists_of_mem_forall₂ hgiven.flip hx
    rw [(eq_none_iff_of_fieldBound hentry).2 (hnone field hfield)]
    rfl

/-- **When a bound tree is empty.** It holds no value and no operation exactly if no key of the
query is applied at a position that the query asks for. It counts as empty exactly if, besides, no
key asks for the first entry of a list at such a position. -/
theorem isEmpty_iff_of_build {path : Path} {node : Node ι}
    (h : b.build shapes shape q path = .ok node) :
    (node.items path = [] ↔ Nowhere b.limits shapes q (KeyApplies q) ⟨shape, path, 0⟩) ∧
      (node.isEmpty = true ↔
        node.items path = [] ∧ Nowhere b.limits shapes q (EntryAsked q) ⟨shape, path, 0⟩) := by
  have hitems := items_eq_nil_iff h
  refine ⟨hitems, ?_⟩
  rw [hitems, isEmpty_iff_nowhere h]
  exact nowhere_or_iff

/-- The only membership lists nothing, and the other names are not known. -/
def idleQuery : Query :=
  Query.ofPairs [("parent[title][in]", " ,"), ("parent[pages]", "7"), ("title[starts]", "a")]

/-- Keys that are nowhere applied give an empty tree. -/
theorem isEmpty_iff_of_build_documents :
    ∃ node, build {} documentShapes (documentShapes ()) idleQuery [] = .ok node ∧
      node.isEmpty = true ∧
      Nowhere Limits.standard documentShapes idleQuery (KeyApplies idleQuery)
        ⟨documentShapes (), [], 0⟩ ∧
      Nowhere Limits.standard documentShapes idleQuery (EntryAsked idleQuery)
        ⟨documentShapes (), [], 0⟩ := by
  have hrun : (build {} documentShapes (documentShapes ()) idleQuery []).map Node.isEmpty =
      .ok true := by
    decide +kernel
  obtain ⟨node, hnode, hempty⟩ := map_ok_iff.1 hrun
  obtain ⟨hitems, hisEmpty⟩ := isEmpty_iff_of_build hnode
  obtain ⟨hnone, hlists⟩ := hisEmpty.1 hempty
  exact ⟨node, hnode, hempty, hitems.1 hnone, hlists⟩

/-- A name that is not known under the index of a list gives a tree that holds nothing and does not
count as empty. -/
theorem not_isEmpty_of_unknown_part :
    ∃ node, bind {} documentShapes () (Query.ofPairs [("parts[0][bogus]", "x")]) = .ok node ∧
      node.items [] = [] ∧ ¬ (node.isEmpty = true ↔ node.items [] = []) := by
  have hrun : (bind {} documentShapes () (Query.ofPairs [("parts[0][bogus]", "x")])).map
      (fun node => (node.items [], node.isEmpty)) = .ok ([], false) := by
    decide +kernel
  obtain ⟨node, hnode, hfound⟩ := map_ok_iff.1 hrun
  obtain ⟨hitems, hempty⟩ := Prod.mk.inj hfound
  refine ⟨node, hnode, hitems, ?_⟩
  rw [hitems, hempty]
  simp

end Binder

end BracketFilter
