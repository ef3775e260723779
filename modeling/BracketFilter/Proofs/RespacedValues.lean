import BracketFilter.Proofs.OneKey
import BracketFilter.Proofs.RequestContent
import BracketFilter.Proofs.TokenLists

/-!
# What a binding reads of a list

* `Query.AlikeBut` — two queries store the same values, apart from one key whose values list the
  same tokens.
* `bindLeaf_alikeBut`, `bindScalar_alikeBut` — a leaf and a parameter are bound alike for such
  queries if the key asks for a membership operation and is not a bare key of theirs.

Principal result: `buildNode_alikeBut` — a tree is bound alike, or fails with the same error.
-/

set_option autoImplicit false

namespace BracketFilter

open BracketFilter.Text

variable {ι : Type}

/-! ## Queries that differ in one value -/

/-- The queries store the same values, apart from one key, whose values list the same tokens. -/
structure Query.AlikeBut (q q' : Query) (key : Key) : Prop where
  others : ∀ other, other ≠ key → q.find? other = q'.find? other
  tokens : (q.find? key).map Leaf.tokens = (q'.find? key).map Leaf.tokens

namespace Query.AlikeBut

variable {q q' : Query} {path : Path} {op : Operation} {key : Key}

theorem mem_keys (h : q.AlikeBut q' key) (k : Key) : k ∈ q.keys ↔ k ∈ q'.keys := by
  rw [← not_iff_not, ← find?_eq_none_iff, ← find?_eq_none_iff]
  by_cases hk : k = key
  · rw [hk, ← Option.map_eq_none_iff (f := Leaf.tokens), h.tokens, Option.map_eq_none_iff]
  · rw [h.others k hk]

theorem reaches (h : q.AlikeBut q' key) (p : Path) : q.reaches p = q'.reaches p := by
  rw [Bool.eq_iff_iff, reaches_iff, reaches_iff]
  simp only [h.mem_keys]

theorem listLength (h : q.AlikeBut q' key) (p : Path) : q.listLength p = q'.listLength p :=
  listLength_congr fun _ => h.reaches _

theorem get?_none (h : q.AlikeBut q' ⟨path, some op⟩) {parent : Path} {name : String}
    (apart : parent ++ [.named name] ≠ path ++ [.field op.tag]) :
    q.get? (parent ++ [.named name]) none = q'.get? (parent ++ [.named name]) none := by
  unfold get?
  rw [h.others _ (by simp)]
  cases q'.find? ⟨parent ++ [.named name], none⟩ with
  | some stored => rfl
  | none =>
    simp only
    refine Option.bind_congr fun key hkey => h.others key ?_
    rintro rfl
    have hfull := Key.full_of_asOperation?_named hkey
    rw [Key.full_operation] at hfull
    exact apart hfull.symm

theorem get?_some (h : q.AlikeBut q' key) {p : Path} {o : Operation} (hne : ⟨p, some o⟩ ≠ key) :
    q.get? p (some o) = q'.get? p (some o) := by
  unfold get?
  rw [h.others _ hne]

end Query.AlikeBut

/-! ## Fields -/

/-- What is answered for a membership operation depends on the tokens of its value alone. -/
theorem Leaf.answer_congr_tokens {site : Site} {type : LeafType} {member : Option String}
    {op : Operation} (membership : op.family = .membership) {raw raw' : String}
    (same : tokens raw = tokens raw') :
    answer site type (member, op, raw) = answer site type (member, op, raw') := by
  simp only [answer, read, membership, same]

namespace Binder

variable {b : Binder} {shapes : ι → Shape ι} {shape : Shape ι} {q q' : Query} {here path : Path}
  {op : Operation}

/-- A lookup at an operand is answered alike if the key is not its bare key. -/
theorem answer_lookup_alikeBut (h : q.AlikeBut q' ⟨path, some op⟩)
    (membership : op.family = .membership) {parent : Path} {name : String}
    (apart : parent ++ [.named name] ≠ path ++ [.field op.tag]) (site : Site) (type : LeafType)
    (member : Option String) (lookup : Option Operation) :
    ((q.get? (parent ++ [.named name]) lookup).map fun raw =>
        Leaf.answer site type (member, lookup.getD .eq, raw)) =
      (q'.get? (parent ++ [.named name]) lookup).map fun raw =>
        Leaf.answer site type (member, lookup.getD .eq, raw) := by
  cases lookup with
  | none => rw [h.get?_none apart]
  | some o =>
    by_cases hkey : (⟨parent ++ [.named name], some o⟩ : Key) = ⟨path, some op⟩
    · cases hkey
      have htokens := h.tokens
      unfold Query.get?
      cases hfound : q.find? ⟨parent ++ [.named name], some op⟩ with
      | none =>
        rw [hfound, Option.map_none, eq_comm, Option.map_eq_none_iff] at htokens
        rw [htokens]
      | some raw =>
        rw [hfound, Option.map_some, eq_comm, Option.map_eq_some_iff] at htokens
        obtain ⟨raw', hfound', hsame⟩ := htokens
        rw [hfound']
        exact congrArg some (Leaf.answer_congr_tokens membership hsame.symm)
    · rw [h.get?_some hkey]

/-- A leaf is bound alike if the key is not a bare key of it or of a member. -/
theorem bindLeaf_alikeBut (h : q.AlikeBut q' ⟨path, some op⟩)
    (membership : op.family = .membership) (apart : shape.KeepsApart shapes here path op)
    {field : FieldShape ι} (mem : field ∈ shape.fields) {type : LeafType}
    (role : field.role = .leaf type) :
    (b.bindLeaf q (here ++ [.named field.name]) type : Except BindError (Option (Entry ι))) =
      b.bindLeaf q' (here ++ [.named field.name]) type := by
  -- The answers are the same, although the requests are not.
  have hanswers (site : Site) :
      (leafRequests q (here ++ [.named field.name]) type).map (Leaf.answer site type) =
        (leafRequests q' (here ++ [.named field.name]) type).map (Leaf.answer site type) := by
    rw [leafRequests_eq_operands, leafRequests_eq_operands, List.map_flatMap, List.map_flatMap]
    refine List.flatMap_congr fun operand hoperand => ?_
    obtain ⟨parent, name, hpath, hne⟩ := apart.ne_of_mem_operands mem role hoperand
    rw [List.map_filterMap, List.map_filterMap]
    refine List.filterMap_congr fun lookup _ => ?_
    simp only [Option.map_map, Function.comp_def, hpath]
    exact answer_lookup_alikeBut h membership hne site type operand.1 lookup
  have hrun (requests : List (Option String × Operation × String)) (site : Site) :
      requests.mapM (Leaf.answer site type) =
        (requests.map (Leaf.answer site type)).mapM id := by
    rw [List.mapM_map]
    rfl
  rw [bindLeaf_eq, bindLeaf_eq, hrun, hanswers, ← hrun]

theorem bindScalar_alikeBut (h : q.AlikeBut q' ⟨path, some op⟩)
    (apart : shape.KeepsApart shapes here path op) {field : FieldShape ι}
    (mem : field ∈ shape.fields) {type : ValueType} (role : field.role = .scalar type) :
    (b.bindScalar q (here ++ [.named field.name]) type : Except BindError (Option (Entry ι))) =
      b.bindScalar q' (here ++ [.named field.name]) type := by
  have hdeclares : field.role.Declares shapes [] := by
    rw [role]
    exact .parameter
  have hne := apart.ne_of_declares mem hdeclares
  rw [List.append_nil] at hne
  simp only [bindScalar, h.get?_none hne]

/-! ## Trees -/

/-- **A tree is bound alike, or fails with the same error**, for queries that store the same values
apart from one key, if that key asks for a membership operation, its values list the same tokens,
and it is not the bare key of something else. -/
theorem buildNode_alikeBut (h : q.AlikeBut q' ⟨path, some op⟩)
    (membership : op.family = .membership) {depth : Nat}
    (apart : shape.KeepsApart shapes here path op) :
    b.buildNode shapes q shape here depth = b.buildNode shapes q' shape here depth := by
  induction shape, here, depth using position_induct (q := q) with
  | step shape here depth ih =>
    rw [buildNode_eq, buildNode_eq]
    have hfields : ∀ field ∈ shape.fields,
        (b.bindField shapes q (here ++ [.named field.name]) depth field.role).map
            (labelled field) =
          (b.bindField shapes q' (here ++ [.named field.name]) depth field.role).map
            (labelled field) := by
      intro field mem
      congr 1
      cases role : field.role with
      | scalar type => exact bindScalar_alikeBut h apart mem role
      | leaf type => exact bindLeaf_alikeBut h membership apart mem role
      | nested target =>
        simp only [bindField, ← h.reaches]
        split
        · rename_i hreached
          rw [ih _ _ _ hreached (List.prefix_refl _) (apart.nested mem role)]
        · rfl
      | list target =>
        simp only [bindField, ← h.reaches, ← h.listLength]
        split
        · rename_i hreached
          rw [mapM_congr fun i _ =>
            ih _ _ _ hreached (List.prefix_append _ _) (apart.list mem role i)]
        · rfl
    rw [mapM_congr hfields]

end Binder

end BracketFilter
