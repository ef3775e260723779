import BracketFilter.Proofs.BindingReads

/-!
# Fields do not interfere

* `Query.SameUnder` — two queries hold the same keys with the same values, as far as the full paths
  of the keys start with a path.
* `Node.entriesNamed` — the entries of a node under a name.

The segments of a key do not tell which field reads it: the key of `doc[new]` stands at `doc` with
an operation, and a field `new` of the filter that is embedded there finds it as well. Full paths
tell.

Principal results: `alikeBelow_of_sameUnder` — a field asks no question on which such queries
differ; `build_reads_own_fields` — a tree depends on the keys of the fields of its shape alone, and
what is bound for a field depends on the keys of that field alone.
-/

set_option autoImplicit false

namespace BracketFilter

open BracketFilter.Text

variable {ι : Type}

/-! ## Keys under a path -/

theorem Key.isPrefix_full {key : Key} {path : Path} (h : path <+: key.segments) :
    path <+: key.full := h.trans (List.prefix_append _ _)

namespace Query

/-- Two queries hold the same keys, with the same values, among the keys whose full path starts with
a path. -/
def SameUnder (q q' : Query) (path : Path) : Prop :=
  ∀ key value, path <+: key.full → ((key, value) ∈ q.entries ↔ (key, value) ∈ q'.entries)

variable {q q' : Query} {path : Path}

theorem SameUnder.mem_keys_iff (h : q.SameUnder q' path) {key : Key} (under : path <+: key.full) :
    key ∈ q.keys ↔ key ∈ q'.keys := by
  simp only [keys, List.mem_map, Prod.exists, exists_and_right, exists_eq_right, h key _ under]

theorem SameUnder.reaches_eq (h : q.SameUnder q' path) {p : Path} (below : path <+: p) :
    q.reaches p = q'.reaches p := by
  rw [Bool.eq_iff_iff, reaches_iff, reaches_iff]
  refine exists_congr fun key => and_congr_left fun hkey => h.mem_keys_iff ?_
  exact below.trans (Key.isPrefix_full hkey)

/-- The key with an operation that a path at a field or below it also stands for has a full path
that starts with the path of the field. -/
theorem isPrefix_full_of_asOperation? {parent p : Path} {name : String} {key : Key}
    (h : asOperation? p = some key) (below : parent ++ [.named name] <+: p) :
    parent ++ [.named name] <+: key.full := by
  obtain ⟨rest, rfl⟩ := below
  cases rest with
  | nil =>
    rw [List.append_nil] at h
    exact (Key.full_of_asOperation?_named h).symm ▸ List.prefix_refl _
  | cons segment rest =>
    apply Key.isPrefix_full
    rw [segments_of_asOperation? h, List.dropLast_append_of_ne_nil (List.cons_ne_nil segment rest)]
    exact List.prefix_append _ _

/-- Queries are the same under a path if the same of their entries lie there, in the same order. -/
theorem sameUnder_of_filter_eq
    (h : (q.entries.filter fun entry => path.isPrefixOf entry.1.full) =
      q'.entries.filter fun entry => path.isPrefixOf entry.1.full) : q.SameUnder q' path := by
  intro key value under
  have hmem (query : Query) : (key, value) ∈ query.entries ↔
      (key, value) ∈ query.entries.filter fun entry => path.isPrefixOf entry.1.full := by
    simp [List.mem_filter, under]
  rw [hmem q, hmem q', h]

/-- **A field asks no question on which queries differ that are the same under its path.** -/
theorem alikeBelow_of_sameUnder {parent : Path} {name : String}
    (h : q.SameUnder q' (parent ++ [.named name])) :
    q.AlikeBelow q' (parent ++ [.named name]) where
  get? := by
    intro p op below
    have hexact (raw : String) : (⟨p, op⟩, raw) ∈ q.entries ↔ (⟨p, op⟩, raw) ∈ q'.entries :=
      h _ _ (Key.isPrefix_full below)
    have hkeys : ⟨p, op⟩ ∈ q.keys ↔ ⟨p, op⟩ ∈ q'.keys := h.mem_keys_iff (Key.isPrefix_full below)
    have hother (key : Key) (raw : String) (has : asOperation? p = some key) :
        (key, raw) ∈ q.entries ↔ (key, raw) ∈ q'.entries :=
      h _ _ (isPrefix_full_of_asOperation? has below)
    apply Option.ext
    intro raw
    rw [get?_eq_some_iff, get?_eq_some_iff, hexact, hkeys]
    refine or_congr_right (and_congr_right fun _ => and_congr_right fun _ => exists_congr fun key =>
      and_congr_right fun has => hother key raw has)
  reaches := fun _ below => h.reaches_eq below

theorem sameUnder_insertRaw {pair : String × String}
    (apart : ∀ key, Key.parse? pair.1 = some key → ¬ path <+: key.full) :
    (q.insertRaw pair).SameUnder q path := by
  intro key value under
  unfold insertRaw
  cases hparse : Key.parse? pair.1 with
  | none => rfl
  | some added =>
    have hne : key ≠ added := by
      rintro rfl
      exact apart key hparse under
    simp only [← find?_eq_some_iff, find?_insert, if_neg hne]

end Query

/-! ## Entries under a name -/

/-- The entries of a node under a name, whatever the case of its ASCII letters. -/
def Node.entriesNamed (node : Node ι) (name : String) : List (String × Entry ι) :=
  node.entries.filter fun e => sameName e.1 name

theorem Node.get?_eq_head? (node : Node ι) (name : String) :
    node.get? name = (node.entriesNamed name).head?.map Prod.snd := by
  rw [get?, entriesNamed, List.head?_filter]

namespace Binder

theorem entriesNamed_assemble {R R' : FieldShape ι → Option (String × Entry ι) → Prop}
    {name : String} {shape : Shape ι} {given given' : List (Option (String × Entry ι))}
    (hgiven : List.Forall₂ R shape.fields given) (hgiven' : List.Forall₂ R' shape.fields given')
    (same : ∀ field ∈ shape.fields, ∀ x x', R field x → R' field x' →
      x.toList.filter (fun e => sameName e.1 name) = x'.toList.filter fun e => sameName e.1 name) :
    (assemble shape given).entriesNamed name = (assemble shape given').entriesNamed name := by
  simp only [Node.entriesNamed, assemble, Node.entries]
  generalize shape.fields = fields at hgiven hgiven' same
  induction hgiven generalizing given' with
  | nil =>
    cases hgiven'
    rfl
  | @cons field x fields given hx _ ih =>
    obtain ⟨x', given', hx', hrest', rfl⟩ := List.forall₂_cons_left_iff.1 hgiven'
    rw [List.forall_mem_cons] at same
    have hcons (y : Option (String × Entry ι)) (ys : List (Option (String × Entry ι))) :
        (y :: ys).filterMap id = y.toList ++ ys.filterMap id := by
      cases y <;> rfl
    rw [hcons, hcons, List.filter_append, List.filter_append, same.1 x x' hx hx', ih hrest' same.2]

variable {b : Binder} {shapes : ι → Shape ι} {shape : Shape ι} {q q' : Query} {path : Path}

/-- A field is bound alike for queries that are the same under its path. -/
theorem bindField_of_sameUnder {name : String} (h : q.SameUnder q' (path ++ [.named name]))
    (depth : Nat) (role : Role ι) :
    b.bindField shapes q (path ++ [.named name]) depth role =
      b.bindField shapes q' (path ++ [.named name]) depth role := by
  have halike := Query.alikeBelow_of_sameUnder h
  refine bindField_congr halike (fun target p _ hbelow => ?_) role
  exact buildNode_congr b shapes
    (fun _ _ => halike.mono (hbelow.trans (List.prefix_append _ _))) (depth + 1)

/-- What is bound under a name depends on the keys of that name alone. -/
theorem entriesNamed_of_sameUnder {node node' : Node ι}
    (built : b.build shapes shape q path = .ok node)
    (built' : b.build shapes shape q' path = .ok node') {name : String}
    (same : q.SameUnder q' (path ++ [.named name])) :
    node.entriesNamed name = node'.entriesNamed name := by
  obtain ⟨given, hgiven, rfl⟩ := buildNode_ok_iff.1 built
  obtain ⟨given', hgiven', rfl⟩ := buildNode_ok_iff.1 built'
  refine entriesNamed_assemble hgiven hgiven' ?_
  rintro field - _ _ ⟨entry, hentry, rfl⟩ ⟨entry', hentry', rfl⟩
  by_cases hname : sameName field.name name = true
  · -- Fields whose names differ in case alone stand at one path.
    have hpath : Segment.named name = .named field.name := by
      rw [Segment.named, Segment.named, sameName_iff.1 hname]
    have hbound := bindField_ok_iff.2 hentry
    rw [hpath] at same
    rw [bindField_of_sameUnder same, bindField_ok_iff.2 hentry'] at hbound
    rw [Except.ok.inj hbound]
  · have hnone (entry : Option (Entry ι)) :
        (labelled field entry).toList.filter (fun e => sameName e.1 name) = [] := by
      cases entry <;> simp [labelled, hname]
    rw [hnone, hnone]

/-- **Fields do not interfere.** Queries with the same keys under the fields of a shape are bound
alike, to one tree or with one error, so that a key of an unknown field changes nothing; and if two
queries are bound, they give the same entries under the name of every field under which they have
the same keys, whatever their other keys are. -/
theorem build_reads_own_fields (b : Binder) (shapes : ι → Shape ι) (shape : Shape ι)
    (path : Path) :
    (∀ q q' : Query, (∀ field ∈ shape.fields, q.SameUnder q' (path ++ [.named field.name])) →
      b.build shapes shape q path = b.build shapes shape q' path) ∧
    (∀ (q : Query) (pair : String × String),
      (∀ key, Key.parse? pair.1 = some key →
        ∀ field ∈ shape.fields, ¬ path ++ [.named field.name] <+: key.full) →
      b.build shapes shape (q.insertRaw pair) path = b.build shapes shape q path) ∧
    ∀ (q q' : Query) (node node' : Node ι), b.build shapes shape q path = .ok node →
      b.build shapes shape q' path = .ok node' →
      ∀ field ∈ shape.fields, q.SameUnder q' (path ++ [.named field.name]) →
        node.entriesNamed field.name = node'.entriesNamed field.name ∧
          node.get? field.name = node'.get? field.name := by
  have halike (q q' : Query)
      (same : ∀ field ∈ shape.fields, q.SameUnder q' (path ++ [.named field.name])) :
      b.build shapes shape q path = b.build shapes shape q' path :=
    buildNode_congr b shapes
      (fun field hfield => Query.alikeBelow_of_sameUnder (same field hfield)) 0
  refine ⟨halike, fun q pair apart => ?_, fun q q' node node' built built' field _ same => ?_⟩
  · refine halike _ _ fun field hfield => Query.sameUnder_insertRaw fun key hkey => ?_
    exact apart key hkey field hfield
  · have hentries := entriesNamed_of_sameUnder built built' same
    exact ⟨hentries, by rw [Node.get?_eq_head?, Node.get?_eq_head?, hentries]⟩

/-- Drafts, with a draft that they are made from and its news. -/
def draftShapes : Unit → Shape Unit := fun _ =>
  { name := "Draft"
    fields :=
      [⟨"Tags", .leaf (.primitive ⟨.string, false⟩)⟩,
        ⟨"new", .leaf (.primitive ⟨.string, true⟩)⟩,
        ⟨"Doc", .nested ()⟩] }

/-- The key of the embedded field `new` is read as an operation. -/
def draftQuery : Query := Query.ofPairs [("doc[new]", "x"), ("tags[in]", "a,b")]

/-- The same key of `Doc`, in another spelling, beside another key of `Tags`. -/
def otherDraftQuery : Query := Query.ofPairs [("tags[in]", " ,c"), ("new", "y"), ("DOC[New]", "x")]

/-- The first keys in another order, among keys of unknown fields. -/
def colouredDraftQuery : Query :=
  Query.ofPairs [("tags[in]", "a,b"), ("colour[doc][new]", "red"), ("doc[new]", "x"), ("doc2", "y")]

/-- Keys of unknown fields change nothing, and the draft that is embedded is bound alike whatever is
asked of the other fields. -/
theorem build_reads_own_fields_drafts :
    (∀ field ∈ (draftShapes ()).fields,
        draftQuery.SameUnder colouredDraftQuery ([] ++ [.named field.name])) ∧
      build {} draftShapes (draftShapes ()) draftQuery [] =
        build {} draftShapes (draftShapes ()) colouredDraftQuery [] ∧
      (∀ key, Key.parse? "colour[new]" = some key →
        ∀ field ∈ (draftShapes ()).fields, ¬ [] ++ [.named field.name] <+: key.full) ∧
      build {} draftShapes (draftShapes ()) (draftQuery.insertRaw ("colour[new]", "red")) [] =
        build {} draftShapes (draftShapes ()) draftQuery [] ∧
      draftQuery.SameUnder otherDraftQuery [.named "Doc"] ∧
      ∃ node node', build {} draftShapes (draftShapes ()) draftQuery [] = .ok node ∧
        build {} draftShapes (draftShapes ()) otherDraftQuery [] = .ok node' ∧
        node.size = 2 ∧ node'.size = 3 ∧ (node.entriesNamed "Doc").length = 1 ∧
        node.entriesNamed "Doc" = node'.entriesNamed "Doc" := by
  have hfields : ∀ field ∈ (draftShapes ()).fields,
      draftQuery.SameUnder colouredDraftQuery ([] ++ [.named field.name]) := by
    intro field hfield
    simp only [draftShapes, List.mem_cons, List.not_mem_nil, or_false] at hfield
    rcases hfield with rfl | rfl | rfl <;> exact Query.sameUnder_of_filter_eq (by decide +kernel)
  have happart : ∀ key, Key.parse? "colour[new]" = some key →
      ∀ field ∈ (draftShapes ()).fields, ¬ [] ++ [.named field.name] <+: key.full := by
    intro key hkey
    have hparse : Key.parse? "colour[new]" = some ⟨[.field "colour"], some .notEndsWith⟩ := by
      decide +kernel
    cases hparse.symm.trans hkey
    decide +kernel
  have hsame : draftQuery.SameUnder otherDraftQuery ([] ++ [.named "Doc"]) :=
    Query.sameUnder_of_filter_eq (by decide +kernel)
  have hrun : (build {} draftShapes (draftShapes ()) draftQuery []).map
      (fun node => (node.size, (node.entriesNamed "Doc").length)) = .ok (2, 1) := by
    decide +kernel
  have hrun' : (build {} draftShapes (draftShapes ()) otherDraftQuery []).map Node.size =
      .ok 3 := by
    decide +kernel
  obtain ⟨node, hnode, hsizes⟩ := map_ok_iff.1 hrun
  obtain ⟨node', hnode', hsize'⟩ := map_ok_iff.1 hrun'
  obtain ⟨halike, hunknown, hentries⟩ := build_reads_own_fields {} draftShapes (draftShapes ()) []
  rw [Prod.mk.injEq] at hsizes
  refine ⟨hfields, halike _ _ hfields, happart, hunknown draftQuery ("colour[new]", "red") happart,
    hsame, node, node', hnode, hnode', hsizes.1, hsize', hsizes.2, ?_⟩
  exact (hentries draftQuery otherDraftQuery node node' hnode hnode' ⟨"Doc", .nested ()⟩
    (by simp [draftShapes]) hsame).1

end Binder

end BracketFilter
