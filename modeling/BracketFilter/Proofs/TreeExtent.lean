import BracketFilter.Proofs.Faults
import BracketFilter.Proofs.LeafExact
import BracketFilter.Proofs.TreeShape
import Mathlib.Algebra.GroupWithZero.Nat
import Mathlib.Data.List.MinMax

/-!
# How large a tree can grow

* `Query.lengthsBehind` — how many segments the keys at or below a path have behind it.
* `Node.nodesBelow` — the nodes below a node, each with the path at which it stands.
* `Query.Spreads` — paths of their own at a path or below it, each on the way to a key.

Principal results: `Spreads.length_le` — there are no more such paths than the keys have segments
there; `nodeSpreads_of_build` — the nodes below the root of a bound tree stand at such paths;
`build_bounded` — whatever the limits, the recursion of a binding goes no deeper than the longest
key and each list ends, and the tree has no more nodes than the keys have segments.
-/

set_option autoImplicit false

namespace BracketFilter

open BracketFilter.Text

variable {ι : Type}

/-! ## Segments behind a path -/

namespace Query

/-- How many segments the keys at or below a path have behind it, key by key. -/
def lengthsBehind (q : Query) (base : Path) : List Nat :=
  (q.keys.filter (·.isBelow base)).map fun key => key.segments.length - base.length

/-- The largest number of segments that a key has behind a path. -/
def longestBehind (q : Query) (base : Path) : Nat := (q.lengthsBehind base).foldr max 0

/-- The number of segments that all keys have behind a path. -/
def totalBehind (q : Query) (base : Path) : Nat := (q.lengthsBehind base).sum

theorem length_le_of_mentions {q : Query} {base p : Path} (mentioned : q.Mentions p)
    (below : base <+: p) : p.length ≤ base.length + q.longestBehind base := by
  obtain ⟨key, hkey, habove⟩ := mentioned
  have hmem : key.segments.length - base.length ∈ q.lengthsBehind base := by
    refine List.mem_map_of_mem (List.mem_filter.2 ⟨hkey, ?_⟩)
    exact Key.isBelow_iff.2 (below.trans habove)
  have hle : key.segments.length - base.length ≤ q.longestBehind base :=
    List.le_max_of_le' 0 hmem (Nat.le_refl _)
  have hlength := habove.length_le
  omega

/-! ## Paths of their own -/

/-- Paths of their own at a path or below it, each on the way to a key. -/
structure Spreads (q : Query) (base : Path) (paths : List Path) : Prop where
  own : paths.Nodup
  each : ∀ p ∈ paths, base <+: p ∧ q.Mentions p

theorem Spreads.nil (q : Query) (base : Path) : q.Spreads base [] :=
  ⟨List.nodup_nil, fun p hp => by cases hp⟩

theorem Spreads.cons {q : Query} {base : Path} {paths : List Path} (mentioned : q.Mentions base)
    (strict : base ∉ paths) (h : q.Spreads base paths) : q.Spreads base (base :: paths) where
  own := List.nodup_cons.2 ⟨strict, h.own⟩
  each := List.forall_mem_cons.2 ⟨⟨List.prefix_refl _, mentioned⟩, h.each⟩

/-- Paths below several paths, no two of which lie above a common one, are paths of their own. -/
theorem Spreads.flatMap {α : Type} {q : Query} {base : Path} {xs : List α} (place : α → Path)
    {part : α → List Path}
    (apart : xs.Pairwise fun x y => ∀ p, place x <+: p → ¬ place y <+: p)
    (below : ∀ x ∈ xs, base <+: place x) (each : ∀ x ∈ xs, q.Spreads (place x) (part x)) :
    q.Spreads base (xs.flatMap part) where
  own := by
    refine List.nodup_flatMap.2 ⟨fun x hx => (each x hx).own, ?_⟩
    refine apart.imp_of_mem fun {x y} hx hy hxy p hp hp' => ?_
    exact hxy p ((each x hx).each p hp).1 ((each y hy).each p hp').1
  each := by
    intro p hp
    obtain ⟨x, hx, hp⟩ := List.mem_flatMap.1 hp
    obtain ⟨hbelow, hmentioned⟩ := (each x hx).each p hp
    exact ⟨(below x hx).trans hbelow, hmentioned⟩

/-- **Paths of their own are no more than the segments of the keys.** Each of the paths is cut off a
key behind one of its segments. -/
theorem Spreads.length_le {q : Query} {base : Path} {paths : List Path}
    (h : q.Spreads base paths) (strict : base ∉ paths) : paths.length ≤ q.totalBehind base := by
  let cuts (key : Key) : List Path :=
    (List.range (key.segments.length - base.length)).map fun i =>
      key.segments.take (base.length + i + 1)
  have hsub : paths ⊆ (q.keys.filter (·.isBelow base)).flatMap cuts := by
    intro p hp
    obtain ⟨hbelow, key, hkey, habove⟩ := h.each p hp
    have hlonger : base.length < p.length := by
      refine lt_of_le_of_ne hbelow.length_le fun hlength => strict ?_
      exact hbelow.eq_of_length hlength ▸ hp
    have hlength := habove.length_le
    refine List.mem_flatMap.2 ⟨key, List.mem_filter.2 ⟨hkey, ?_⟩, ?_⟩
    · exact Key.isBelow_iff.2 (hbelow.trans habove)
    · refine List.mem_map.2 ⟨p.length - base.length - 1, List.mem_range.2 (by omega), ?_⟩
      rw [show base.length + (p.length - base.length - 1) + 1 = p.length by omega]
      exact (List.prefix_iff_eq_take.1 habove).symm
  have hle := (List.subperm_of_subset h.own hsub).length_le
  have hlengths : List.map (fun key => (cuts key).length) (q.keys.filter (·.isBelow base)) =
      q.lengthsBehind base := by
    simp [cuts, lengthsBehind]
  rw [List.length_flatMap, hlengths] at hle
  exact hle

end Query

/-! ## The nodes of a tree -/

mutual

/-- The nodes below a node that stands at a path, each with its own path. -/
def Node.nodesBelow (path : Path) : Node ι → List (Path × Node ι)
  | .mk _ entries => entriesBelow path entries

/-- The nodes below the entries of a node. -/
def entriesBelow (path : Path) : List (String × Entry ι) → List (Path × Node ι)
  | [] => []
  | (name, entry) :: rest => entry.nodesBelow (path ++ [.named name]) ++ entriesBelow path rest

/-- The nodes that an entry is made of, and those below them. -/
def Entry.nodesBelow (here : Path) : Entry ι → List (Path × Node ι)
  | .scalar _ => []
  | .leaf _ => []
  | .nested child => (here, child) :: child.nodesBelow here
  | .list items => itemsBelow here 0 items

/-- The entries of a list from an index on, and the nodes below them. -/
def itemsBelow (here : Path) (index : Nat) : List (Node ι) → List (Path × Node ι)
  | [] => []
  | item :: rest =>
    (here ++ [.index index], item) :: item.nodesBelow (here ++ [.index index]) ++
      itemsBelow here (index + 1) rest

end

theorem nodesBelow_eq_flatMap (path : Path) (node : Node ι) :
    node.nodesBelow path =
      node.entries.flatMap fun e => e.2.nodesBelow (path ++ [.named e.1]) := by
  obtain ⟨shape, entries⟩ := node
  show entriesBelow path entries = _
  simp only [Node.entries]
  induction entries with
  | nil => simp [entriesBelow]
  | cons e rest ih =>
    obtain ⟨name, entry⟩ := e
    rw [entriesBelow, ih, List.flatMap_cons]

theorem itemsBelow_eq_flatMap (here : Path) (index : Nat) (items : List (Node ι)) :
    itemsBelow here index items = (items.zipIdx index).flatMap fun x =>
      (here ++ [.index x.2], x.1) :: x.1.nodesBelow (here ++ [.index x.2]) := by
  induction items generalizing index with
  | nil => simp [itemsBelow]
  | cons item rest ih => simp [itemsBelow, ih]

/-- A node that an entry is made of stands at the path of the entry or right below it. -/
theorem exists_nodesBelow_of_mem_children {entry : Entry ι} {child : Node ι}
    (embedded : child ∈ entry.children) (here : Path) :
    ∃ p, here <+: p ∧ (p, child) ∈ entry.nodesBelow here ∧
      child.nodesBelow p ⊆ entry.nodesBelow here := by
  cases entry with
  | scalar value => cases embedded
  | leaf leaf => cases embedded
  | nested inner =>
    cases List.mem_singleton.1 embedded
    rw [Entry.nodesBelow]
    exact ⟨here, List.prefix_refl _, List.mem_cons_self, List.subset_cons_self _ _⟩
  | list items =>
    obtain ⟨i, hi, rfl⟩ := List.getElem_of_mem embedded
    have hmem : (items[i], i) ∈ items.zipIdx 0 := by
      rw [List.mem_zipIdx_iff_getElem?]
      exact List.getElem?_eq_getElem hi
    rw [Entry.nodesBelow, itemsBelow_eq_flatMap]
    refine ⟨here ++ [.index i], List.prefix_append _ _, ?_, fun x hx => ?_⟩
    · exact List.mem_flatMap.2 ⟨_, hmem, List.mem_cons_self⟩
    · exact List.mem_flatMap.2 ⟨_, hmem, List.mem_cons_of_mem _ hx⟩

/-- A node that lies below another is among its nodes, at a path that is longer by as many segments
as there are steps, or by more. -/
theorem Node.Lies.exists_mem_nodesBelow {node inner : Node ι} {steps : Nat}
    (h : node.Lies steps inner) (path : Path) :
    steps = 0 ∨ ∃ p, (p, inner) ∈ node.nodesBelow path ∧ path.length + steps ≤ p.length := by
  induction h generalizing path with
  | here => exact .inl rfl
  | @inside node child inner e steps entry embedded _ ih =>
    right
    obtain ⟨p, hbelow, hchild, hmore⟩ :=
      exists_nodesBelow_of_mem_children embedded (path ++ [.named e.1])
    have hlength := hbelow.length_le
    rw [List.length_append, List.length_singleton] at hlength
    rw [nodesBelow_eq_flatMap]
    rcases ih p with rfl | ⟨p', hinner, hsteps⟩
    · cases ‹child.Lies 0 inner›
      exact ⟨p, List.mem_flatMap.2 ⟨e, entry, hchild⟩, by omega⟩
    · exact ⟨p', List.mem_flatMap.2 ⟨e, entry, hmore hinner⟩, by omega⟩

namespace Binder

variable {b : Binder} {limits : Limits} {shapes : ι → Shape ι} {shape : Shape ι} {q : Query}

/-! ## The nodes of a bound tree -/

/-- The nodes below a node stand at paths of their own, behind its path. -/
def NodeSpreads (q : Query) (path : Path) (node : Node ι) : Prop :=
  q.Spreads path ((node.nodesBelow path).map Prod.fst) ∧
    path ∉ (node.nodesBelow path).map Prod.fst

theorem spreads_of_entryBound {here : Path} {depth : Nat} {role : Role ι} {entry : Entry ι}
    (h : EntryBound b shapes q (fun _ path _ node => NodeSpreads q path node) here depth role
      entry) : q.Spreads here ((entry.nodesBelow here).map Prod.fst) := by
  cases h with
  | scalar found read => exact .nil q here
  | leaf answered asks => exact .nil q here
  | nested reached within bound asks =>
    rw [Entry.nodesBelow]
    exact bound.1.cons (Query.reaches_iff_mentions.1 reached) bound.2
  | @list target items reached within short length bound asks =>
    rw [Entry.nodesBelow, itemsBelow_eq_flatMap, List.map_flatMap]
    refine Query.Spreads.flatMap (fun x => here ++ [.index x.2]) ?_
      (fun x _ => List.prefix_append _ _) ?_
    · have hindices : (items.zipIdx.map Prod.snd).Pairwise (· ≠ ·) := by
        rw [List.zipIdx_map_snd]
        exact List.nodup_range'
      refine (List.pairwise_map.1 hindices).imp fun {x y} hne p hx hy => hne ?_
      have heq := (List.prefix_of_prefix_length_le hx hy (by simp)).eq_of_length (by simp)
      simpa using heq
    · rintro ⟨item, i⟩ hx
      rw [List.mem_zipIdx_iff_getElem?] at hx
      obtain ⟨hi, hitem⟩ := List.getElem?_eq_some_iff.1 hx
      simp only at hi hitem
      subst hitem
      have hreached := Query.lt_listLength_iff.1 (length ▸ hi) i (Nat.le_refl i)
      exact (bound i hi).1.cons (Query.reaches_iff_mentions.1 hreached) (bound i hi).2

/-- The nodes below a node stand at paths of their own if those of its entries do and the fields of
its shape have distinct names. -/
theorem nodeSpreads_assemble {path : Path} {depth : Nat} {given : List (Option (String × Entry ι))}
    (distinct : (shape.fields.map fun field => lowerAscii field.name).Nodup)
    (h : List.Forall₂ (FieldGives b shapes q
      (fun shape path _ node => node.shape = shape ∧ NodeSpreads q path node) path depth)
      shape.fields given) : NodeSpreads q path (assemble shape given) := by
  have hentry (e : String × Entry ι) (he : e ∈ (assemble shape given).entries) :
      q.Spreads (path ++ [.named e.1]) ((e.2.nodesBelow (path ++ [.named e.1])).map Prod.fst) := by
    obtain ⟨_, hgiven, rfl⟩ := List.mem_filterMap.1 he
    obtain ⟨field, -, entry, hbound, hlabelled⟩ := exists_of_mem_forall₂ h.flip hgiven
    obtain ⟨entry, rfl, rfl⟩ := Option.map_eq_some_iff.1 hlabelled.symm
    exact spreads_of_entryBound (hbound.imp fun _ _ _ _ _ hchild => hchild.2).entryBound
  have hnames : (assemble shape given).entries.Pairwise fun e e' =>
      lowerAscii e.1 ≠ lowerAscii e'.1 := by
    have hshapes : List.Forall₂ (FieldGives b shapes q HasShape path depth) shape.fields given := by
      refine h.imp ?_
      rintro field _ ⟨entry, hentry, rfl⟩
      exact ⟨entry, hentry.imp fun _ _ _ _ _ hchild => hchild.1, rfl⟩
    have hsub := (wellFormed_assemble hshapes).names_sublist.map lowerAscii
    rw [List.map_map, List.map_map] at hsub
    exact List.pairwise_map.1 (hsub.nodup distinct)
  constructor
  · rw [nodesBelow_eq_flatMap, List.map_flatMap]
    refine Query.Spreads.flatMap (fun e => path ++ [.named e.1]) ?_
      (fun e _ => List.prefix_append _ _) hentry
    exact hnames.imp fun {e e'} hne p he => not_isPrefix_of_ne hne he
  · intro hroot
    rw [nodesBelow_eq_flatMap, List.map_flatMap] at hroot
    obtain ⟨e, he, hpath⟩ := List.mem_flatMap.1 hroot
    have hlength := ((hentry e he).each path hpath).1.length_le
    rw [List.length_append, List.length_singleton] at hlength
    omega

/-- **The nodes below the root of a bound tree stand at paths of their own**, if no two fields of a
shape have one name. -/
theorem nodeSpreads_of_build {path : Path} {depth : Nat} {node : Node ι}
    (family : ∀ i, ((shapes i).fields.map fun field => lowerAscii field.name).Nodup)
    (distinct : (shape.fields.map fun field => lowerAscii field.name).Nodup)
    (h : b.buildNode shapes q shape path depth = .ok node) : NodeSpreads q path node := by
  have hboth := buildNode_induct (motive := fun shape path _ node =>
    (shape.fields.map fun field => lowerAscii field.name).Nodup →
      node.shape = shape ∧ NodeSpreads q path node) ?step h
  case step =>
    intro shape path depth given hgiven hdistinct
    have hspreads : List.Forall₂ (FieldGives b shapes q
        (fun shape path _ node => node.shape = shape ∧ NodeSpreads q path node) path depth)
        shape.fields given := by
      refine hgiven.imp ?_
      rintro field _ ⟨entry, hentry, rfl⟩
      exact ⟨entry, hentry.imp fun target _ _ _ _ hchild => hchild (family target), rfl⟩
    exact ⟨rfl, nodeSpreads_assemble hdistinct hspreads⟩
  exact (hboth distinct).2

/-! ## The bounds -/

/-- A visited position is no deeper than its path is longer, and some key stands there or below. -/
theorem depth_le_of_visited {root pos : Position ι} {place : List Nat}
    (h : Visited limits shapes q root place pos) :
    pos.depth + root.path.length ≤ root.depth + pos.path.length ∧
      (pos = root ∨ root.path <+: pos.path ∧ q.Mentions pos.path) := by
  induction h with
  | root => exact ⟨Nat.le_refl _, .inl rfl⟩
  | @down place move pos pos' _ step ih =>
    obtain ⟨n, field, rest, -, -, hopens⟩ := step
    generalize field.role = role at hopens
    have habove : root.path <+: pos.fieldPath field := by
      rcases ih.2 with rfl | ⟨hroot, -⟩
      · exact List.prefix_append _ _
      · exact hroot.trans (List.prefix_append _ _)
    have hlength : pos.path.length + 1 = (pos.fieldPath field).length := by
      simp [Position.fieldPath]
    cases hopens with
    | nested within mentioned => exact ⟨by simp only; omega, .inr ⟨habove, mentioned⟩⟩
    | list within mentioned short =>
      refine ⟨?_, .inr ⟨habove.trans (List.prefix_append _ _), mentioned _ (Nat.le_refl _)⟩⟩
      simp only [List.length_append, List.length_singleton]
      omega

/-- **A binding ends and its tree stays small, whatever the limits.** No step of the recursion is
deeper than the longest key behind the root; each list ends at the first index that no key reaches,
which is at most the number of keys; no node lies deeper than the longest key; and there are no more
nodes below the root than segments behind it. -/
theorem build_bounded
    (family : ∀ i, ((shapes i).fields.map fun field => lowerAscii field.name).Nodup)
    (distinct : (shape.fields.map fun field => lowerAscii field.name).Nodup) (b : Binder)
    (q : Query) (base : Path) :
    (∀ place pos, Visited b.limits shapes q ⟨shape, base, 0⟩ place pos →
      pos.depth ≤ q.longestBehind base) ∧
    (∀ here, q.listLength here ≤ q.size ∧
      (∀ i < q.listLength here, q.reaches (here ++ [.index i]) = true) ∧
        q.reaches (here ++ [.index (q.listLength here)]) = false) ∧
    ∀ node, b.build shapes shape q base = .ok node →
      (∀ steps inner, node.Lies steps inner → steps ≤ q.longestBehind base) ∧
        (node.nodesBelow base).length ≤ q.totalBehind base := by
  have hreached (here : Path) (i : Nat) (hi : i < q.listLength here) :
      q.reaches (here ++ [.index i]) = true := Query.lt_listLength_iff.1 hi i (Nat.le_refl i)
  refine ⟨fun place pos hvisited => ?_, fun here => ⟨?_, hreached here, ?_⟩, fun node hnode => ?_⟩
  · obtain ⟨hdepth, rfl | ⟨hbelow, hmentioned⟩⟩ := depth_le_of_visited hvisited
    · exact Nat.zero_le _
    · have hlength := Query.length_le_of_mentions hmentioned hbelow
      simp only at hdepth hlength
      omega
  · exact Query.le_size_of_reaches (hreached here)
  · by_contra hnext
    refine Nat.lt_irrefl (q.listLength here) (Query.lt_listLength_iff.2 fun j hj => ?_)
    rcases Nat.lt_or_eq_of_le hj with hj | rfl
    · exact hreached here j hj
    · simpa using hnext
  · obtain ⟨hspreads, hstrict⟩ := nodeSpreads_of_build family distinct hnode
    constructor
    · intro steps inner hlies
      rcases hlies.exists_mem_nodesBelow base with rfl | ⟨p, hmem, hsteps⟩
      · exact Nat.zero_le _
      · obtain ⟨hbelow, hmentioned⟩ := hspreads.each p (List.mem_map_of_mem hmem)
        have hlength := Query.length_le_of_mentions hmentioned hbelow
        omega
    · simpa using hspreads.length_le hstrict

/-- A reply that quotes a message, of which the quoted replies are asked for, behind a prefix; two
keys go one way, and one lies behind a gap. -/
def threadQuery : Query :=
  Query.ofPairs
    [("in[replies][0][quoted][replies][0]", "a"), ("in[replies][0][quoted][tags]", "b"),
      ("in[replies][1][page]", "7"), ("in[replies][3][page]", "7"), ("page", "7")]

/-- Shapes that are embedded in themselves are bound, under limits that are never met, to a tree of
four nodes below the root where the keys have fifteen segments, the longest of them five. -/
theorem build_bounded_thread :
    (∀ i, ((messageShapes i).fields.map fun field => lowerAscii field.name).Nodup) ∧
      ∃ node, build ⟨⟨2 ^ 64, 2 ^ 64, 2 ^ 64⟩, .standard⟩ messageShapes (messageShapes ())
          threadQuery [.field "in"] = .ok node ∧
        (node.nodesBelow [.field "in"]).length = 4 ∧
        (node.nodesBelow [.field "in"]).length ≤ 15 ∧
        ∀ steps inner, node.Lies steps inner → steps ≤ 5 := by
  have hdistinct (i : Unit) :
      ((messageShapes i).fields.map fun field => lowerAscii field.name).Nodup := by
    cases i
    decide +kernel
  obtain ⟨hrun, hlongest, htotal⟩ :
      (build ⟨⟨2 ^ 64, 2 ^ 64, 2 ^ 64⟩, .standard⟩ messageShapes (messageShapes ()) threadQuery
        [.field "in"]).map (fun node => (node.nodesBelow [.field "in"]).length) = .ok 4 ∧
      threadQuery.longestBehind [.field "in"] = 5 ∧ threadQuery.totalBehind [.field "in"] = 15 := by
    decide +kernel
  obtain ⟨node, hnode, hcount⟩ := map_ok_iff.1 hrun
  obtain ⟨-, -, hbounds⟩ := build_bounded hdistinct (hdistinct ())
    ⟨⟨2 ^ 64, 2 ^ 64, 2 ^ 64⟩, .standard⟩ threadQuery [.field "in"]
  obtain ⟨hdepth, hnodes⟩ := hbounds node hnode
  rw [hlongest] at hdepth
  rw [htotal] at hnodes
  exact ⟨hdistinct, node, hnode, hcount, hnodes, hdepth⟩

end Binder

end BracketFilter
