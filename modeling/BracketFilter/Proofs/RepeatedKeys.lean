import BracketFilter.Proofs.BindingExact
import BracketFilter.Proofs.RespacedValues
import BracketFilter.Proofs.TreeShape

/-!
# Repeated keys of one membership operation

* `Key.onLeaf` — the key that asks for an operation on a leaf, or on a member of it.
* `Node.operationsAt` — what a tree holds of an operation on a leaf or a member.
* `Query.Respaced` — sequences of pairs that differ in the spaces and the blank pieces of the values
  of one key.

Principal results: `exists_operationsAt` — the operation is in a bound tree exactly if something is
listed, and then once, with what is listed; `exists_answer_of_mem_items` — each operation in a bound
tree answers a request; `repeated_memberships_concatenate` — the values of a key that comes several
times are listed one after the other, however they are spaced.
-/

set_option autoImplicit false

namespace BracketFilter

open BracketFilter.Text

variable {ι : Type}

/-! ## The key of an operation on a leaf -/

/-- The key that asks for an operation on the leaf at a place, or on a member of it. -/
def Key.onLeaf (place : Path) (member : Option String) (op : Operation) : Key :=
  ⟨place ++ member.toList.map Segment.named, some op⟩

section Leads

variable {shapes : ι → Shape ι} {shape : Shape ι} {q : Query} {role : Role ι}
  {here path full place : Path} {member : Option String} {kind : Kind} {op : Operation}

/-- Only the key of an operation leads to it, unless it may be left out of the key. -/
theorem Leads.full_eq (h : Leads shapes q role here full place (.operation member kind op))
    (tagged : op ≠ .eq) : full = (Key.onLeaf place member op).full := by
  generalize hgoal : Target.operation member kind op = goal at h
  induction h with
  | parameter => cases hgoal
  | equality =>
    cases hgoal
    exact absurd rfl tagged
  | operation =>
    cases hgoal
    simp [Key.onLeaf]
  | memberEquality =>
    cases hgoal
    exact absurd rfl tagged
  | memberOperation =>
    cases hgoal
    simp [Key.onLeaf]
  | nested _ _ ih => exact ih hgoal
  | list _ _ _ ih => exact ih hgoal

theorem Leads.place_ne_nil {goal : Target} (h : Leads shapes q role here full place goal)
    (nonempty : here ≠ []) : place ≠ [] := by
  induction h with
  | nested _ _ ih => exact ih (by simp)
  | list _ _ _ ih => exact ih (by simp)
  | _ => exact nonempty

theorem Leads.exists_declares
    (h : Leads shapes q role here full place (.operation member kind op)) :
    ∃ rest, (Key.onLeaf place member op).segments = here ++ rest ∧ role.Declares shapes rest := by
  generalize hgoal : Target.operation member kind op = goal at h
  induction h with
  | parameter => cases hgoal
  | equality =>
    cases hgoal
    exact ⟨[], by simp [Key.onLeaf], .leaf⟩
  | operation =>
    cases hgoal
    exact ⟨[], by simp [Key.onLeaf], .leaf⟩
  | memberEquality mem =>
    cases hgoal
    exact ⟨_, by simp [Key.onLeaf], .member mem⟩
  | memberOperation mem =>
    cases hgoal
    exact ⟨_, by simp [Key.onLeaf], .member mem⟩
  | nested mem _ ih =>
    obtain ⟨rest, hrest, hdeclares⟩ := ih hgoal
    exact ⟨_, by rw [hrest, List.append_assoc]; rfl, .nested mem hdeclares⟩
  | list _ mem _ ih =>
    obtain ⟨rest, hrest, hdeclares⟩ := ih hgoal
    exact ⟨_, by rw [hrest, List.append_assoc, List.append_assoc]; rfl, .list mem hdeclares⟩

/-- The key of an operation is kept apart from the bare keys of all else, if names are distinct. -/
theorem Resolves.keepsApart (family : ∀ i, (shapes i).DistinctNames)
    (distinct : shape.DistinctNames)
    (h : Resolves shapes q shape path full place (.operation member kind op)) :
    shape.KeepsApart shapes path (Key.onLeaf place member op).segments op := by
  obtain ⟨field, mem, hleads⟩ := h
  obtain ⟨rest, hrest, hdeclares⟩ := hleads.exists_declares
  rw [hrest, List.append_assoc]
  exact keepsApart_of_distinct family distinct ⟨field, mem, rest, rfl, hdeclares⟩ path op

end Leads

/-! ## Operations in a tree -/

/-- The operation that an item is, if it is this one, at a place and on a member. -/
def Item.asked? (place : Path) (member : Option String) (op : Operation) :
    Path × Item → Option Applied
  | (_, .parameter _) => none
  | (here, .operation applied) =>
    if here = place ∧ applied.operation = op ∧ applied.member = member then some applied else none

theorem Item.asked?_eq_some_iff {place : Path} {member : Option String} {op : Operation}
    {item : Path × Item} {applied : Applied} :
    asked? place member op item = some applied ↔ item = (place, .operation applied) ∧
      applied.operation = op ∧ applied.member = member := by
  obtain ⟨here, value | found⟩ := item
  · simp [asked?]
  · simp only [asked?]
    split
    · rename_i h
      obtain ⟨rfl, rfl, rfl⟩ := h
      simp only [Option.some.injEq, Prod.mk.injEq, Item.operation.injEq, true_and]
      exact ⟨fun heq => by simp [heq], fun heq => heq.1⟩
    · rename_i h
      simp only [reduceCtorEq, Prod.mk.injEq, Item.operation.injEq, false_iff]
      rintro ⟨⟨rfl, rfl⟩, hop, hmember⟩
      exact h ⟨rfl, hop, hmember⟩

/-- What a tree at a path holds of an operation on the leaf at a place, or on a member of it. -/
def Node.operationsAt (node : Node ι) (path place : Path) (member : Option String)
    (op : Operation) : List Applied :=
  (node.items path).filterMap (Item.asked? place member op)

theorem filterMap_eq_singleton {α β : Type} {f : α → Option β} {xs : List α} {x : α} {y : β}
    (nodup : xs.Nodup) (mem : x ∈ xs) (value : f x = some y)
    (only : ∀ x' ∈ xs, ∀ y', f x' = some y' → x' = x) : xs.filterMap f = [y] := by
  obtain ⟨before, after, rfl⟩ := List.append_of_mem mem
  obtain ⟨-, hrest, hapart⟩ := List.nodup_append.1 nodup
  have hothers : ∀ x' ∈ before ++ x :: after, x' ≠ x → f x' = none := by
    intro x' hx' hne
    rw [Option.eq_none_iff_forall_ne_some]
    exact fun y' hy' => hne (only x' hx' y' hy')
  have hbefore : before.filterMap f = [] := List.filterMap_eq_nil_iff.2 fun x' hx' =>
    hothers x' (by simp [hx']) (hapart x' hx' x List.mem_cons_self)
  have hafter : after.filterMap f = [] := List.filterMap_eq_nil_iff.2 fun x' hx' =>
    hothers x' (by simp [hx']) fun hsame => (List.nodup_cons.1 hrest).1 (hsame ▸ hx')
  rw [List.filterMap_append, List.filterMap_cons_some value, hbefore, hafter]
  rfl

section Exact

variable {coercer : Coercer} {shapes : ι → Shape ι} {shape : Shape ι} {q : Query}
  {path place : Path} {member : Option String} {kind : Kind} {op : Operation}

/-- What is asked for by a membership operation is what its value lists, and something is. -/
theorem Answers.of_membership {raw : String} {item : Item} (membership : op.family = .membership)
    (h : Answers coercer (.operation member kind op) raw item) :
    ∃ values, item = .operation ⟨op, values, true, member⟩ ∧ values ≠ [] ∧
      List.Forall₂ (fun token value => coercer token kind = .ok value) (Leaf.tokens raw)
        values := by
  cases h with
  | comparison family => cases membership.symm.trans family
  | text family => cases membership.symm.trans family
  | membership family listed read => exact ⟨_, rfl, listed, read⟩

/-- An operation that a source asks for at a place is asked for by the key of the operation. -/
theorem key_of_asks (settled : q.Settled) (nonempty : place ≠ []) (tagged : op ≠ .eq)
    {entry : Key × String} {applied : Applied} (mem : entry ∈ q.entries) {goal : Target}
    (leads : Resolves shapes q shape path entry.1.full place goal)
    (asks : Answers coercer goal entry.2 (.operation applied)) (hop : applied.operation = op)
    (hmember : applied.member = member) :
    entry.1 = Key.onLeaf place member op ∧ ∃ kind', goal = .operation member kind' op := by
  have hgoal : ∃ kind', goal = .operation member kind' op := by
    subst hop hmember
    cases asks <;> exact ⟨_, rfl⟩
  obtain ⟨kind', rfl⟩ := hgoal
  obtain ⟨field, -, hleads⟩ := leads
  refine ⟨(settled _ (Query.mem_keys_of_mem mem)).ext ⟨?_, by simp [Key.onLeaf]⟩
    (hleads.full_eq tagged), kind', rfl⟩
  simp [Key.onLeaf, nonempty]

/-- A source that asks for a membership operation at a place is the entry of the key of the
operation, and its value lists something. -/
theorem entry_of_asked (settled : q.Settled) (nonempty : place ≠ [])
    (membership : op.family = .membership) {entry : Key × String} {item : Path × Item}
    {applied : Applied} (mem : entry ∈ q.entries) {goal : Target}
    (leads : Resolves shapes q shape path entry.1.full item.1 goal)
    (asks : Answers coercer goal entry.2 item.2)
    (asked : Item.asked? place member op item = some applied) :
    entry.1 = Key.onLeaf place member op ∧ Leaf.tokens entry.2 ≠ [] := by
  have tagged : op ≠ .eq := by
    rintro rfl
    cases membership
  obtain ⟨rfl, hop, hmember⟩ := Item.asked?_eq_some_iff.1 asked
  obtain ⟨hkey, kind', rfl⟩ := key_of_asks settled nonempty tagged mem leads asks hop hmember
  obtain ⟨values, -, hlisted, hread⟩ := asks.of_membership membership
  refine ⟨hkey, fun hnil => hlisted ?_⟩
  rw [hnil] at hread
  exact List.forall₂_nil_left_iff.1 hread

theorem exactNode_of_buildNode {b : Binder} (settled : q.Settled)
    (family : ∀ i, (shapes i).DistinctNames) (distinct : shape.DistinctNames) {depth : Nat}
    {node : Node ι} (built : b.buildNode shapes q shape path depth = .ok node) :
    ExactNode b.coercer shapes q shape path node := by
  refine Binder.buildNode_induct (motive := fun shape path _ node => shape.DistinctNames →
    ExactNode b.coercer shapes q shape path node) ?_ built distinct
  intro shape path depth given hgiven hdistinct
  have hexact : List.Forall₂ (Binder.FieldGives b shapes q
      (fun shape path _ node => ExactNode b.coercer shapes q shape path node) path depth)
      shape.fields given := by
    refine hgiven.imp ?_
    rintro field _ ⟨entry, hentry, rfl⟩
    exact ⟨entry, hentry.imp fun target _ _ _ _ hnode => hnode (family target), rfl⟩
  exact exact_of_fields settled hdistinct hexact

/-- **A tree that holds exactly what is asked for holds a membership operation on a leaf if its key
lists something**, once, with what the key lists. -/
theorem exists_operationsAt {node : Node ι} (settled : q.Settled)
    (membership : op.family = .membership)
    (exact : Exact coercer q (Resolves shapes q shape path) (node.items path))
    (leads : Resolves shapes q shape path (Key.onLeaf place member op).full place
      (.operation member kind op)) :
    ∃ values, List.Forall₂ (fun token value => coercer token kind = .ok value)
        ((q.find? (Key.onLeaf place member op)).toList.flatMap Leaf.tokens) values ∧
      node.operationsAt path place member op =
        if values = [] then [] else [⟨op, values, true, member⟩] := by
  have nonempty : place ≠ [] := by
    obtain ⟨field, -, hleads⟩ := leads
    exact hleads.place_ne_nil (by simp)
  obtain ⟨⟨sources, hitems, hnodup, hsources⟩, hanswered⟩ := exact
  -- No entry but that of the key asks for the operation, so that the leaf has it once at most.
  have hsource : ∀ s ∈ sources, ∀ applied, Item.asked? place member op s.2 = some applied →
      s.1 ∈ q.entries ∧ s.1.1 = Key.onLeaf place member op ∧ Leaf.tokens s.1.2 ≠ [] := by
    intro s hs applied happlied
    obtain ⟨hmem, goal, hleads, hasks⟩ := (hsources _ _).1 hs
    exact ⟨hmem, entry_of_asked settled nonempty membership hmem hleads hasks happlied⟩
  have hat : node.operationsAt path place member op =
      sources.filterMap fun s => Item.asked? place member op s.2 := by
    rw [Node.operationsAt, ← hitems, List.filterMap_map]
    rfl
  rw [hat]
  cases hfind : q.find? (Key.onLeaf place member op) with
  | none =>
    refine ⟨[], .nil, ?_⟩
    rw [if_pos rfl, List.filterMap_eq_nil_iff]
    intro s hs
    rw [Option.eq_none_iff_forall_ne_some]
    intro applied happlied
    obtain ⟨hmem, hkey, -⟩ := hsource s hs applied happlied
    exact Query.find?_eq_none_iff.1 hfind (hkey ▸ Query.mem_keys_of_mem hmem)
  | some raw =>
    have hentry := Query.find?_eq_some_iff.1 hfind
    have honly : ∀ entry ∈ q.entries, entry.1 = Key.onLeaf place member op → entry.2 = raw := by
      rintro ⟨key, value⟩ hmem rfl
      exact Option.some.inj ((Query.find?_eq_some_iff.2 hmem).symm.trans hfind)
    simp only [Option.toList_some, List.flatMap_singleton]
    rcases hanswered _ hentry place _ leads with ⟨item, hasks⟩ | ⟨-, hblank⟩
    · obtain ⟨values, rfl, hlisted, hread⟩ := hasks.of_membership membership
      refine ⟨values, hread, ?_⟩
      rw [if_neg hlisted]
      have hmem := (hsources (_, raw) (place, _)).2 ⟨hentry, _, leads, hasks⟩
      refine filterMap_eq_singleton (List.Nodup.of_map _ hnodup) hmem
        (Item.asked?_eq_some_iff.2 ⟨rfl, rfl, rfl⟩) fun s hs applied happlied => ?_
      obtain ⟨hin, hkey, -⟩ := hsource s hs applied happlied
      exact List.inj_on_of_nodup_map hnodup hs hmem (Prod.ext hkey (honly _ hin hkey))
    · have hnil := Leaf.tokens_eq_nil_iff.2 hblank
      refine ⟨[], by rw [hnil]; exact .nil, ?_⟩
      rw [if_pos rfl, List.filterMap_eq_nil_iff]
      intro s hs
      rw [Option.eq_none_iff_forall_ne_some]
      intro applied happlied
      obtain ⟨hin, hkey, hsome⟩ := hsource s hs applied happlied
      exact hsome (honly _ hin hkey ▸ hnil)

end Exact

/-! ## Operations and the requests that they answer -/

section Bound

variable {b : Binder} {shapes : ι → Shape ι} {shape : Shape ι} {q : Query} {path : Path}

/-- Each operation of a node at a path answers a request on the leaf at its place. -/
def Node.AnswersRequests (b : Binder) (path : Path) (node : Node ι) : Prop :=
  ∀ place applied, (place, .operation applied) ∈ node.items path →
    ∃ type request, Leaf.answer (b.site place) type request = .ok (some applied)

theorem exists_answer_of_entryBound {here : Path} {depth : Nat} {role : Role ι} {entry : Entry ι}
    (h : Binder.EntryBound b shapes q (fun _ path _ node => node.AnswersRequests b path) here depth
      role entry) {place : Path} {applied : Applied}
    (mem : (place, Item.operation applied) ∈ entry.items here) :
    ∃ type request, Leaf.answer (b.site place) type request = .ok (some applied) := by
  cases h with
  | scalar found read => simp [Entry.items] at mem
  | leaf answered asks =>
    obtain ⟨found, hfound, hsame⟩ := List.mem_map.1 mem
    cases hsame
    obtain ⟨answer, hanswer, rfl⟩ := List.mem_filterMap.1 hfound
    obtain ⟨request, -, hrequest⟩ := exists_of_mem_forall₂ answered.flip hanswer
    exact ⟨_, request, hrequest⟩
  | nested reached within bound asks => exact bound _ _ mem
  | list reached within short length bound asks =>
    rw [Entry.items, nodeListItems_eq_flatten] at mem
    obtain ⟨items, hitems, hin⟩ := List.mem_flatten.1 mem
    obtain ⟨⟨node, i⟩, hnode, rfl⟩ := List.mem_map.1 hitems
    obtain ⟨hi, hget⟩ := List.mem_zipIdx' hnode
    rw [hget] at hin
    exact bound i hi _ _ hin

/-- **Each operation in a bound tree answers a request.** -/
theorem exists_answer_of_mem_items {depth : Nat} {node : Node ι}
    (built : b.buildNode shapes q shape path depth = .ok node) :
    node.AnswersRequests b path := by
  refine Binder.buildNode_induct (motive := fun _ path _ node => node.AnswersRequests b path) ?_
    built
  intro shape path depth given hgiven place applied hmem
  rw [items_assemble] at hmem
  obtain ⟨_, hitems, hin⟩ := List.mem_flatten.1 hmem
  obtain ⟨x, hx, rfl⟩ := List.mem_map.1 hitems
  obtain ⟨field, -, entry, hbound, rfl⟩ := exists_of_mem_forall₂ hgiven.flip hx
  rw [givenItems_labelled] at hin
  cases entry with
  | none => cases hin
  | some entry => exact exists_answer_of_entryBound hbound.entryBound hin

theorem length_values_le_of_mem_operationsAt {place : Path} {member : Option String}
    {op : Operation} {depth : Nat} {node : Node ι} {applied : Applied}
    (built : b.buildNode shapes q shape path depth = .ok node)
    (membership : op.family = .membership)
    (mem : applied ∈ node.operationsAt path place member op) :
    applied.values.length ≤ b.limits.maxInValues := by
  obtain ⟨item, hitem, hasked⟩ := List.mem_filterMap.1 mem
  obtain ⟨rfl, rfl, -⟩ := Item.asked?_eq_some_iff.1 hasked
  obtain ⟨type, request, hanswer⟩ := exists_answer_of_mem_items built _ _ hitem
  exact (Leaf.length_values_of_answer hanswer membership).2

end Bound

/-! ## Sequences of pairs -/

namespace Query

/-- What the values of a key list, one value after the other. -/
def tokensFor (pairs : List (String × String)) (key : Key) : List String :=
  (valuesFor pairs key).flatMap Leaf.tokens

theorem tokens_find?_ofPairs (pairs : List (String × String)) (key : Key) :
    ((ofPairs pairs).find? key).toList.flatMap Leaf.tokens = tokensFor pairs key := by
  rw [find?_ofPairs, joined, tokensFor]
  split
  · rename_i hnone
    rw [hnone]
    rfl
  · simp only [Option.toList_some, List.flatMap_singleton, Leaf.tokens_joined]

theorem tokensFor_ne_nil_iff {pairs : List (String × String)} {key : Key} :
    tokensFor pairs key ≠ [] ↔ ∃ value ∈ valuesFor pairs key, Leaf.tokens value ≠ [] := by
  rw [tokensFor, ne_eq, List.flatMap_eq_nil_iff]
  push Not
  rfl

/-- A pair of the key with another value, which lists the same texts in other spaces and among other
blank pieces, or the same pair. -/
inductive Respaced (key : Key) : String × String → String × String → Prop
  | same {pair : String × String} : Respaced key pair pair
  | value {text raw raw' : String} (read : Key.parse? text = some key)
      (respaced : Leaf.RespacedFrom raw raw') : Respaced key (text, raw) (text, raw')

variable {key : Key} {pairs pairs' : List (String × String)}

theorem valuesFor_cons (pair : String × String) (rest : List (String × String)) (key : Key) :
    valuesFor (pair :: rest) key =
      if Key.parse? pair.1 = some key then pair.2 :: valuesFor rest key
      else valuesFor rest key := by
  simp only [valuesFor, List.filter_cons, decide_eq_true_eq]
  split <;> rfl

theorem valuesFor_respaced (h : List.Forall₂ (Respaced key) pairs pairs') {other : Key}
    (hne : other ≠ key) : valuesFor pairs other = valuesFor pairs' other := by
  induction h with
  | nil => rfl
  | cons first _ ih =>
    rw [valuesFor_cons, valuesFor_cons, ih]
    cases first with
    | same => rfl
    | value read _ =>
      simp only [read, Option.some.injEq, if_neg hne.symm]

/-- Respaced pairs give values for the key that list the same, each of them. -/
theorem tokens_valuesFor_respaced (h : List.Forall₂ (Respaced key) pairs pairs') :
    (valuesFor pairs key).map Leaf.tokens = (valuesFor pairs' key).map Leaf.tokens := by
  induction h with
  | nil => rfl
  | cons first _ ih =>
    rw [valuesFor_cons, valuesFor_cons]
    cases first with
    | same => split <;> simp [ih]
    | value read respaced =>
      rw [if_pos read, if_pos read, List.map_cons, List.map_cons, ih,
        Leaf.tokens_respaced respaced]

/-- The queries of respaced pairs store the same, apart from the value of the key, which lists the
same. -/
theorem alikeBut_of_respaced (h : List.Forall₂ (Respaced key) pairs pairs') :
    (ofPairs pairs).AlikeBut (ofPairs pairs') key where
  others := fun other hne => by
    rw [find?_ofPairs, find?_ofPairs, valuesFor_respaced h hne]
  tokens := by
    have hsame := tokens_valuesFor_respaced h
    rw [find?_ofPairs, find?_ofPairs]
    unfold joined
    by_cases hnone : valuesFor pairs key = []
    · rw [hnone, List.map_nil, eq_comm, List.map_eq_nil_iff] at hsame
      rw [hnone, hsame]
    · have hnone' : valuesFor pairs' key ≠ [] := by
        rintro hnil
        rw [hnil, List.map_nil, List.map_eq_nil_iff] at hsame
        exact hnone hsame
      rw [if_neg hnone, if_neg hnone', Option.map_some, Option.map_some, Leaf.tokens_joined,
        Leaf.tokens_joined, List.flatMap_def, List.flatMap_def, hsame]

end Query

/-- A bound tree holds a membership operation on a leaf if the values of its key list something,
once, with what they list one after the other. -/
theorem exists_values_of_build {b : Binder} {shapes : ι → Shape ι} {shape : Shape ι}
    {pairs : List (String × String)} {path place : Path} {member : Option String} {kind : Kind}
    {op : Operation} (family : ∀ i, (shapes i).DistinctNames) (distinct : shape.DistinctNames)
    (membership : op.family = .membership)
    (leads : Resolves shapes (Query.ofPairs pairs) shape path (Key.onLeaf place member op).full
      place (.operation member kind op)) {node : Node ι}
    (built : b.build shapes shape (Query.ofPairs pairs) path = .ok node) :
    ∃ values, List.Forall₂ (fun token value => b.coercer token kind = .ok value)
        (Query.tokensFor pairs (Key.onLeaf place member op)) values ∧
      node.operationsAt path place member op =
        if values = [] then [] else [⟨op, values, true, member⟩] := by
  have settled := Query.settled_ofPairs pairs
  have hat := exists_operationsAt settled membership
    (exactNode_of_buildNode settled family distinct built) leads
  rwa [Query.tokens_find?_ofPairs] at hat

/-- **The values of a membership key that comes several times are listed one after the other.** In a
bound tree, the operation is on the leaf, or on a member of it, exactly if one of the values lists
something, and it is there once, with what the first value lists, then what the second does, and so
on; a binding fails if this is more than the limit. More spaces around what is listed, and more
blank pieces between, change neither the tree nor the error; and nothing else than spaces around a
piece is left out of it. -/
theorem repeated_memberships_concatenate {b : Binder} {shapes : ι → Shape ι} {shape : Shape ι}
    {pairs : List (String × String)} {path place : Path} {member : Option String} {kind : Kind}
    {op : Operation} (family : ∀ i, (shapes i).DistinctNames) (distinct : shape.DistinctNames)
    (membership : op.family = .membership)
    (leads : Resolves shapes (Query.ofPairs pairs) shape path (Key.onLeaf place member op).full
      place (.operation member kind op)) :
    (∀ node, b.build shapes shape (Query.ofPairs pairs) path = .ok node →
      (node.operationsAt path place member op ≠ [] ↔
        ∃ value ∈ Query.valuesFor pairs (Key.onLeaf place member op), Leaf.tokens value ≠ []) ∧
      ∀ applied ∈ node.operationsAt path place member op,
        node.operationsAt path place member op = [applied] ∧ applied.multiValued = true ∧
          List.Forall₂ (fun token value => b.coercer token kind = .ok value)
            (Query.tokensFor pairs (Key.onLeaf place member op)) applied.values) ∧
    (b.limits.maxInValues < (Query.tokensFor pairs (Key.onLeaf place member op)).length →
      ∃ e, b.build shapes shape (Query.ofPairs pairs) path = .error e) ∧
    (∀ pairs', List.Forall₂ (Query.Respaced (Key.onLeaf place member op)) pairs pairs' →
      b.build shapes shape (Query.ofPairs pairs') path =
        b.build shapes shape (Query.ofPairs pairs) path) ∧
    ∀ raw ts, Leaf.tokens raw = ts ↔ Leaf.Lists raw ts := by
  refine ⟨fun node built => ?_, fun hmany => ?_, fun pairs' respaced => ?_,
    fun raw ts => Leaf.tokens_eq_iff⟩
  · obtain ⟨values, hread, hat⟩ :=
      exists_values_of_build family distinct membership leads built
    have hsame : values ≠ [] ↔ Query.tokensFor pairs (Key.onLeaf place member op) ≠ [] := by
      rw [← List.length_pos_iff, ← hread.length_eq, List.length_pos_iff]
    rw [← Query.tokensFor_ne_nil_iff, ← hsame, hat]
    split
    · rename_i hnone
      simp [hnone]
    · rename_i hsome
      refine ⟨by simp [hsome], fun applied happlied => ?_⟩
      rw [List.mem_singleton.1 happlied]
      exact ⟨rfl, rfl, hread⟩
  · cases built : b.build shapes shape (Query.ofPairs pairs) path with
    | error e => exact ⟨e, rfl⟩
    | ok node =>
      obtain ⟨values, hread, hat⟩ :=
        exists_values_of_build family distinct membership leads built
      have hlength := hread.length_eq
      have hsome : values ≠ [] := List.ne_nil_of_length_pos (by omega)
      have hmem : ⟨op, values, true, member⟩ ∈ node.operationsAt path place member op := by
        rw [hat, if_neg hsome]
        exact List.mem_singleton_self _
      have hlimit : values.length ≤ b.limits.maxInValues :=
        length_values_le_of_mem_operationsAt built membership hmem
      omega
  · exact (Binder.buildNode_alikeBut (Query.alikeBut_of_respaced respaced) membership
      (leads.keepsApart family distinct)).symm

/-- Two values of one key, in two spellings, around the value of another. -/
def partPairs : List (String × String) :=
  [("filter[parts][0][author][new][in]", " a,, b"), ("filter[page]", "7"),
    ("Filter[parts][00][AUTHOR][new][IN]", "\tc ,")]

/-- The same, with the values spaced in another way. -/
def partPairsRespaced : List (String × String) :=
  [("filter[parts][0][author][new][in]", ", a ,,  b"), ("filter[page]", "7"),
    ("Filter[parts][00][AUTHOR][new][IN]", "\tc , ")]

/-- A tab is not left out. With room for two values, the binding fails. -/
theorem repeated_memberships_concatenate_parts :
    (∃ node, Binder.build {} documentShapes (documentShapes ()) (Query.ofPairs partPairs)
        [.field "filter"] = .ok node ∧
      node.operationsAt [.field "filter"]
          [.field "filter", .field "parts", .index 0, .field "author"] (some "new") .inside =
        [⟨.inside, [.string "a", .string "b", .string "\tc"], true, some "new"⟩]) ∧
      (∃ value ∈ Query.valuesFor partPairs (Key.onLeaf
          [.field "filter", .field "parts", .index 0, .field "author"] (some "new") .inside),
        Leaf.tokens value ≠ []) ∧
      Binder.build {} documentShapes (documentShapes ()) (Query.ofPairs partPairsRespaced)
          [.field "filter"] =
        Binder.build {} documentShapes (documentShapes ()) (Query.ofPairs partPairs)
          [.field "filter"] ∧
      ∃ e, Binder.build { limits := { maxInValues := 2 } } documentShapes (documentShapes ())
        (Query.ofPairs partPairs) [.field "filter"] = .error e := by
  have hleads : Resolves documentShapes (Query.ofPairs partPairs) (documentShapes ())
      [.field "filter"] (Key.onLeaf [.field "filter", .field "parts", .index 0, .field "author"]
        (some "new") .inside).full [.field "filter", .field "parts", .index 0, .field "author"]
      (.operation (some "new") .string .inside) := by
    have hmentioned : ∀ i ≤ 0, ∃ key ∈ (Query.ofPairs partPairs).keys,
        [Segment.field "filter", .named "parts"] ++ [.index i] <+: key.segments := by
      decide +kernel
    have hauthor : (⟨"author", .leaf (.composite
        { name := "Person"
          members := [⟨"name", ⟨.string, false⟩⟩, ⟨"new", ⟨.string, true⟩⟩] })⟩ :
        FieldShape Unit) ∈ (documentShapes ()).fields := by
      simp [documentShapes]
    refine ⟨⟨"parts", .list ()⟩, by simp [documentShapes], .list hmentioned hauthor ?_⟩
    exact .memberOperation (m := ⟨"new", ⟨.string, true⟩⟩) (by simp)
  have hat : (Binder.build {} documentShapes (documentShapes ()) (Query.ofPairs partPairs)
      [.field "filter"]).map (fun node => node.operationsAt [.field "filter"]
        [.field "filter", .field "parts", .index 0, .field "author"] (some "new") .inside) =
      .ok [⟨.inside, [.string "a", .string "b", .string "\tc"], true, some "new"⟩] := by
    decide +kernel
  obtain ⟨node, hnode, hoperations⟩ := map_ok_iff.1 hat
  obtain ⟨hholds, -, hrespaced, -⟩ := repeated_memberships_concatenate (b := {})
    distinctNames_documentShapes (distinctNames_documentShapes ()) rfl hleads
  obtain ⟨-, hmany, -, -⟩ := repeated_memberships_concatenate
    (b := { limits := { maxInValues := 2 } })
    distinctNames_documentShapes (distinctNames_documentShapes ()) rfl hleads
  refine ⟨⟨node, hnode, hoperations⟩, (hholds node hnode).1.1 (by simp [hoperations]), ?_,
    hmany (by decide +kernel)⟩
  refine hrespaced _ (.cons (.value (by decide +kernel) ?_) (.cons .same
    (.cons (.value (by decide +kernel) ?_) .nil)))
  · exact .blank 0 (.piece 0 1 (.piece 0 0 (.piece 1 0 .nil)))
  · exact .piece 0 0 (.piece 0 1 .nil)

end BracketFilter
