import BracketFilter.Proofs.BindingSteps
import BracketFilter.Proofs.FullPath

/-!
# What a binding reads of a query

* `Query.Mentions` — some key stands at a path or below it.
* `Query.AlikeBelow` — two queries give one answer to every question about a path and what lies
  below it.
* `operands`, `lookups` — where the requests on a leaf are looked up, and in which order.

Principal results: `bindField_congr` — a field is bound alike for queries that are alike at its path
and below; `buildNode_congr` — so is a node for queries that are alike below each of its fields.
-/

set_option autoImplicit false

namespace BracketFilter

open BracketFilter.Text

variable {ι : Type}

namespace Query

/-! ## Keys and values -/

/-- Some key stands at a path or below it. -/
def Mentions (q : Query) (path : Path) : Prop := ∃ key ∈ q.keys, path <+: key.segments

theorem reaches_iff_mentions {q : Query} {path : Path} :
    q.reaches path = true ↔ q.Mentions path := reaches_iff

theorem Mentions.of_isPrefix {q : Query} {path p : Path} (h : q.Mentions p) (above : path <+: p) :
    q.Mentions path := by
  obtain ⟨key, hkey, hbelow⟩ := h
  exact ⟨key, hkey, above.trans hbelow⟩

/-- A value is found under the key of the lookup, or, if there is none and the lookup is for a bare
key, under the key with an operation that the path also stands for. -/
theorem get?_eq_some_iff {q : Query} {path : Path} {op : Option Operation} {raw : String} :
    q.get? path op = some raw ↔ (⟨path, op⟩, raw) ∈ q.entries ∨
      ⟨path, op⟩ ∉ q.keys ∧ op = none ∧
        ∃ key, asOperation? path = some key ∧ (key, raw) ∈ q.entries := by
  rw [← find?_eq_none_iff]
  simp only [← find?_eq_some_iff]
  unfold get?
  cases q.find? ⟨path, op⟩ with
  | some stored => simp
  | none =>
    cases op with
    | some op => simp
    | none => simp [Option.bind_eq_some_iff]

theorem segments_of_asOperation? {path : Path} {key : Key} (h : asOperation? path = some key) :
    key.segments = path.dropLast := by
  unfold asOperation? at h
  split at h
  · split at h
    · cases h
    · obtain ⟨op, -, rfl⟩ := Option.map_eq_some_iff.1 h
      rfl
  · cases h

theorem reaches_of_get? {q : Query} {path p : Path} {op : Option Operation} {raw : String}
    (h : q.get? p op = some raw) {segment : Segment} (below : path ++ [segment] <+: p) :
    q.reaches path = true := by
  obtain ⟨rest, rfl⟩ := below
  rw [reaches_iff]
  rcases get?_eq_some_iff.1 h with hentry | ⟨-, -, key, has, hentry⟩
  · refine ⟨_, mem_keys_of_mem hentry, ?_⟩
    exact (List.prefix_append path [segment]).trans (List.prefix_append _ rest)
  · refine ⟨key, mem_keys_of_mem hentry, ?_⟩
    rw [segments_of_asOperation? has, List.append_assoc,
      List.dropLast_append_of_ne_nil (by simp)]
    exact List.prefix_append _ _

/-! ## Queries that are alike -/

/-- The queries find the same values, and reach the same paths, at a path and below it. -/
structure AlikeBelow (q q' : Query) (path : Path) : Prop where
  get? : ∀ p op, path <+: p → q.get? p op = q'.get? p op
  reaches : ∀ p, path <+: p → q.reaches p = q'.reaches p

variable {q q' : Query} {path : Path}

theorem AlikeBelow.mono (h : q.AlikeBelow q' path) {p : Path} (below : path <+: p) :
    q.AlikeBelow q' p where
  get? := fun p' op hp => h.get? p' op (below.trans hp)
  reaches := fun p' hp => h.reaches p' (below.trans hp)

theorem AlikeBelow.listLength_eq (h : q.AlikeBelow q' path) :
    q.listLength path = q'.listLength path :=
  listLength_congr fun _ => h.reaches _ (List.prefix_append _ _)

end Query

/-! ## Lookups -/

/-- The operands of a leaf with their paths: the leaf itself, or its members. -/
def operands (here : Path) : LeafType → List (Option String × Path)
  | .primitive _ => [(none, here)]
  | .composite type => type.members.map fun m => (some m.name, here ++ [.named m.name])

/-- The lookups at an operand: every operation in order, and the bare key. -/
def lookups : List (Option Operation) := Operation.all.map some ++ [none]

namespace Binder

theorem requests_eq_lookups (q : Query) (path : Path) :
    requests q path = lookups.filterMap fun lookup =>
      (q.get? path lookup).map fun raw => (lookup.getD .eq, raw) := by
  unfold requests lookups
  rw [List.filterMap_append, List.filterMap_map]
  congr 1
  cases hget : q.get? path none <;> simp [hget]

theorem leafRequests_eq_operands (q : Query) (here : Path) (type : LeafType) :
    leafRequests q here type = (operands here type).flatMap fun operand =>
      lookups.filterMap fun lookup =>
        (q.get? operand.2 lookup).map fun raw => (operand.1, lookup.getD .eq, raw) := by
  cases type with
  | primitive type =>
    simp [leafRequests, operands, requests_eq_lookups, List.map_filterMap, Function.comp_def]
  | composite type =>
    simp [leafRequests, operands, requests_eq_lookups, List.map_filterMap, Function.comp_def,
      List.flatMap_map]

/-- The requests on a leaf are the values that the lookups at its operands find. -/
theorem mem_leafRequests_iff {q : Query} {here : Path} {type : LeafType} {member : Option String}
    {op : Operation} {raw : String} :
    (member, op, raw) ∈ leafRequests q here type ↔ ∃ path lookup,
      (member, path) ∈ operands here type ∧ lookup ∈ lookups ∧ lookup.getD .eq = op ∧
        q.get? path lookup = some raw := by
  rw [leafRequests_eq_operands]
  simp only [List.mem_flatMap, List.mem_filterMap, Option.map_eq_some_iff, Prod.exists,
    Prod.mk.injEq]
  constructor
  · rintro ⟨_, path, hoperand, lookup, hlookup, _, hfound, rfl, rfl, rfl⟩
    exact ⟨path, lookup, hoperand, hlookup, rfl, hfound⟩
  · rintro ⟨path, lookup, hoperand, hlookup, rfl, hfound⟩
    exact ⟨member, path, hoperand, lookup, hlookup, raw, hfound, rfl, rfl, rfl⟩

theorem isPrefix_of_mem_operands {here path : Path} {type : LeafType} {member : Option String}
    (h : (member, path) ∈ operands here type) : here <+: path := by
  cases type with
  | primitive type =>
    cases List.mem_singleton.1 h
    exact List.prefix_refl _
  | composite type =>
    obtain ⟨m, -, hm⟩ := List.mem_map.1 h
    cases hm
    exact List.prefix_append _ _

/-! ## Fields and nodes -/

variable {b : Binder} {shapes : ι → Shape ι} {q q' : Query} {here : Path}

theorem requests_congr (h : q.AlikeBelow q' here) : requests q here = requests q' here := by
  unfold requests
  simp only [h.get? here _ (List.prefix_refl _)]

theorem leafRequests_congr (h : q.AlikeBelow q' here) (type : LeafType) :
    leafRequests q here type = leafRequests q' here type := by
  cases type with
  | primitive type => simp only [leafRequests, requests_congr h]
  | composite type =>
    simp only [leafRequests]
    refine List.flatMap_congr fun m _ => ?_
    rw [requests_congr (h.mono (List.prefix_append _ _))]

/-- A field is bound alike for queries that are alike at its path and below, if the nodes of its
embedded filters are. -/
theorem bindField_congr (h : q.AlikeBelow q' here) {depth : Nat}
    (children : ∀ target p, q.reaches here = true → here <+: p →
      b.buildNode shapes q target p (depth + 1) = b.buildNode shapes q' target p (depth + 1))
    (role : Role ι) :
    b.bindField shapes q here depth role = b.bindField shapes q' here depth role := by
  have hreaches := h.reaches here (List.prefix_refl _)
  cases role with
  | scalar type => simp only [bindField, bindScalar, h.get? here none (List.prefix_refl _)]
  | leaf type => simp only [bindField, bindLeaf, leafRequests_congr h]
  | nested target =>
    simp only [bindField, ← hreaches]
    split
    · rename_i hreached
      rw [children _ here hreached (List.prefix_refl _)]
    · rfl
  | list target =>
    simp only [bindField, ← hreaches, ← h.listLength_eq]
    split
    · rename_i hreached
      have hitems : ∀ i ∈ List.range (min (q.listLength here) b.limits.maxListItems),
          b.buildNode shapes q (shapes target) (here ++ [.index i]) (depth + 1) =
            b.buildNode shapes q' (shapes target) (here ++ [.index i]) (depth + 1) :=
        fun i _ => children _ _ hreached (List.prefix_append _ _)
      rw [mapM_congr hitems]
    · rfl

/-- **A node is built alike for queries that are alike below each of its fields.** -/
theorem buildNode_congr (b : Binder) (shapes : ι → Shape ι) {shape : Shape ι} {path : Path}
    (h : ∀ field ∈ shape.fields, q.AlikeBelow q' (path ++ [.named field.name])) (depth : Nat) :
    b.buildNode shapes q shape path depth = b.buildNode shapes q' shape path depth := by
  induction shape, path, depth using position_induct (q := q) with
  | step shape path depth ih =>
    rw [buildNode_eq, buildNode_eq]
    have hfields : ∀ field ∈ shape.fields,
        (b.bindField shapes q (path ++ [.named field.name]) depth field.role).map
            (labelled field) =
          (b.bindField shapes q' (path ++ [.named field.name]) depth field.role).map
            (labelled field) := by
      intro field hfield
      rw [bindField_congr (h field hfield) ?_ field.role]
      intro target p hreached hbelow
      refine ih _ target p hreached hbelow fun inner _ => ?_
      exact (h field hfield).mono (hbelow.trans (List.prefix_append _ _))
    rw [mapM_congr hfields]

end Binder

end BracketFilter
