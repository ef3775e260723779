import BracketFilter.Proofs.Answers
import BracketFilter.Proofs.BindingFailure
import BracketFilter.Proofs.KeysBelow

/-!
# Binding below a path

* `Query.movedBelow` — pairs with all keys moved below a path.
* `Query.Relocated` — what one query tells about paths, another tells about the same paths behind
  `base`, except that a key at a single segment may not stand there any more.

The exception is a key such as `new`, which stands at `new`, while `doc[new]` stands at `doc`. It
changes no tree: an embedded filter that only such a key reaches asks for nothing.

Principal results: `relocated_ofPairs` — moving the keys of a request relocates the query;
`build_relocated` — a query and the query with its keys moved below a path are bound to one tree, or
both are refused.
-/

set_option autoImplicit false

namespace BracketFilter

open BracketFilter.Text

variable {ι : Type}

/-! ## Bare keys that spell an operation -/

/-- A path of two segments or more spells an operation behind another path exactly if it does so
alone. -/
theorem Query.asOperation?_append_eq_none_iff (base : Path) {parent : Path} (nonempty : parent ≠ [])
    (last : Segment) :
    asOperation? (base ++ (parent ++ [last])) = none ↔ asOperation? (parent ++ [last]) = none := by
  rw [← List.append_assoc]
  simp [asOperation?, nonempty]

/-- A bare key whose name is a tag is read as a field, and as an operation if it is moved below a
path. -/
theorem Key.parse?_tag {base : Path} (nonempty : base ≠ [])
    (plain : ∀ segment ∈ base, segment.Plain) {raw : String} {op : Operation}
    (spells : sameName op.tag raw = true) :
    parse? raw = some ⟨[.field op.tag], none⟩ ∧ parse? (below base raw) = some ⟨base, some op⟩ := by
  have hlower : raw.toList.map Char.toLower = op.tag.toList := by
    rw [← toList_lowerAscii, ← sameName_iff.1 spells, lowerAscii_tag]
  have hpart : IsPart raw.toList := by
    rw [← isPart_map_toLower, hlower]
    cases op <;> decide
  have hfull : segmentOf raw.toList = .field op.tag := by
    rw [segmentOf, hlower]
    cases op <;> decide
  have hraw : raw = written raw.toList [] := by simp [written, bracketedText]
  have hparts : ∀ part ∈ raw.toList :: [], IsPart part := by simpa using hpart
  obtain ⟨key, hkey, hkeyFull⟩ := exists_parse?_written hparts
  rw [← hraw] at hkey
  rw [List.map_singleton, hfull] at hkeyFull
  obtain ⟨key₁, key', hkey₁, hkey', hkeyFull'⟩ :=
    exists_keys_below nonempty plain ⟨raw.toList, [], hparts, hraw⟩
  cases hkey.symm.trans hkey₁
  constructor
  · have hsettled : Settled ⟨[.field op.tag], none⟩ := ⟨by simp, by simp [Query.asOperation?]⟩
    rw [hkey, (settled_of_parse? hkey).ext hsettled (by rw [hkeyFull, full_bare])]
  · have hsettled : Settled ⟨base, some op⟩ := ⟨nonempty, by simp⟩
    rw [hkey', (settled_of_parse? hkey').ext hsettled (by rw [hkeyFull', hkeyFull, full_operation])]

namespace Query

theorem reaches_append_of_unreached {q : Query} {path : Path} (unreached : q.reaches path = false)
    (segment : Segment) : q.reaches (path ++ [segment]) = false := by
  rw [← Bool.not_eq_true, reaches_iff_mentions] at unreached ⊢
  exact fun h => unreached (h.of_isPrefix (List.prefix_append _ _))

/-! ## Relocated queries -/

/-- What `q` tells about paths, `q'` tells about the same paths behind `base`, except that a key at
a single segment may not stand there any more. -/
structure Relocated (q q' : Query) (base : Path) : Prop where
  get? : ∀ parent name op, q.get? (parent ++ [.named name]) op =
    q'.get? (base ++ (parent ++ [.named name])) op
  reaches : ∀ parent segment, parent ≠ [] →
    q.reaches (parent ++ [segment]) = q'.reaches (base ++ (parent ++ [segment]))
  reaches_single : ∀ segment, q'.reaches (base ++ [segment]) = true → q.reaches [segment] = true

/-- The pairs with all keys moved below a path. -/
def movedBelow (base : Path) (pairs : List (String × String)) : List (String × String) :=
  pairs.map fun pair => (Key.below base pair.1, pair.2)

section Moved

variable {base : Path} (nonempty : base ≠ []) (plain : ∀ segment ∈ base, segment.Plain)
  {pairs : List (String × String)} (wellFormed : ∀ pair ∈ pairs, Key.WellFormed pair.1)

include nonempty plain wellFormed

theorem valuesAt_movedBelow (full : Path) :
    valuesAt (movedBelow base pairs) (base ++ full) = valuesAt pairs full := by
  unfold valuesAt movedBelow
  rw [List.filter_map, List.map_map]
  refine congrArg (List.map Prod.snd) (List.filter_congr fun pair hpair => ?_)
  obtain ⟨key, key', hkey, hkey', hfull⟩ :=
    Key.exists_keys_below nonempty plain (wellFormed pair hpair)
  simp [hkey, hkey', hfull]

theorem exists_append_of_valuesAt {full' : Path}
    (h : valuesAt (movedBelow base pairs) full' ≠ []) : ∃ full, full' = base ++ full := by
  obtain ⟨moved, hmoved, hfull'⟩ : ∃ moved ∈ movedBelow base pairs,
      (Key.parse? moved.1).map Key.full = some full' := by
    simpa [valuesAt] using h
  obtain ⟨pair, hpair, rfl⟩ := List.mem_map.1 hmoved
  obtain ⟨key, key', -, hkey', hfull⟩ :=
    Key.exists_keys_below nonempty plain (wellFormed pair hpair)
  rw [hkey', Option.map_some, Option.some.injEq] at hfull'
  exact ⟨key.full, hfull' ▸ hfull⟩

end Moved

/-- **Moving the keys of a request relocates the query.** -/
theorem relocated_ofPairs {base : Path} (nonempty : base ≠ [])
    (plain : ∀ segment ∈ base, segment.Plain) {pairs : List (String × String)}
    (wellFormed : ∀ pair ∈ pairs, Key.WellFormed pair.1) :
    (ofPairs pairs).Relocated (ofPairs (movedBelow base pairs)) base := by
  have hvalues := valuesAt_movedBelow nonempty plain wellFormed
  -- Each full path of the moved pairs is one of the pairs, behind `base`.
  have hreaches (path : Path) :
      (ofPairs (movedBelow base pairs)).reaches (base ++ path) = true ↔
        ∃ full, valuesAt pairs full ≠ [] ∧ path <+: full ∧
          (path = full → asOperation? (base ++ path) = none) := by
    rw [reaches_ofPairs_iff]
    constructor
    · rintro ⟨full', hfull', hbelow, hwhole⟩
      obtain ⟨full, rfl⟩ := exists_append_of_valuesAt nonempty plain wellFormed hfull'
      rw [hvalues] at hfull'
      exact ⟨full, hfull', (List.prefix_append_right_inj base).1 hbelow,
        fun heq => hwhole (congrArg (base ++ ·) heq)⟩
    · rintro ⟨full, hfull, hbelow, hwhole⟩
      refine ⟨base ++ full, by rwa [hvalues], (List.prefix_append_right_inj base).2 hbelow,
        fun heq => hwhole (List.append_cancel_left heq)⟩
  constructor
  · intro parent name op
    have hfull : Key.full ⟨base ++ (parent ++ [.named name]), op⟩ =
        base ++ Key.full ⟨parent ++ [.named name], op⟩ := by simp [Key.full]
    rw [get?_ofPairs, ← List.append_assoc, get?_ofPairs, List.append_assoc, hfull, hvalues]
  · intro parent segment hparent
    rw [Bool.eq_iff_iff, hreaches, reaches_ofPairs_iff]
    simp only [asOperation?_append_eq_none_iff base hparent]
  · intro segment h
    obtain ⟨full, hfull, hbelow, -⟩ := (hreaches [segment]).1 h
    exact reaches_ofPairs_iff.2 ⟨full, hfull, hbelow, fun _ => rfl⟩

end Query

/-! ## Leaves and parameters -/

/-- The name of the field plays a part only in errors. -/
theorem Leaf.read_sameOk {site site' : Site} (coercer : site.coercer = site'.coercer)
    (limit : site.maxInValues = site'.maxInValues) (member : Option String) (kind : Kind)
    (op : Operation) (raw : String) :
    SameOk (read site member kind op raw) (read site' member kind op raw) := by
  have hcoerce (raw : String) :
      SameOk (site.coerce member kind raw) (site'.coerce member kind raw) := by
    intro value
    rw [Site.coerce_ok_iff, Site.coerce_ok_iff, coercer]
  cases family : op.family with
  | comparison =>
    rw [read_comparison family, read_comparison family]
    exact (hcoerce raw).map _
  | text =>
    simp only [read, family]
    split
    · exact .refl _
    · exact .errors _ _
  | membership =>
    by_cases hmany : site.maxInValues < (tokens raw).length
    · simp only [read, family, ← limit, if_pos hmany]
      exact .errors _ _
    · rw [read_membership family hmany, read_membership family (limit ▸ hmany)]
      exact (mapM_sameOk fun token _ => hcoerce token).map _

theorem Leaf.answer_sameOk {site site' : Site} (coercer : site.coercer = site'.coercer)
    (limit : site.maxInValues = site'.maxInValues) (type : LeafType)
    (request : Option String × Operation × String) :
    SameOk (answer site type request) (answer site' type request) := by
  unfold answer
  cases operandType? type request.1 with
  | none => exact .refl _
  | some operand => exact read_sameOk coercer limit _ _ _ _

namespace Binder

variable {b : Binder} {shapes : ι → Shape ι} {q q' : Query} {base : Path}

theorem closeList_sameOk {here here' : Path} {length : Nat}
    {items items' : Except BindError (List (Node ι))} (h : SameOk items items') :
    SameOk (b.closeList here length items) (b.closeList here' length items') := by
  intro entry
  simp only [closeList_ok_iff, h _]

theorem bindScalar_sameOk {here here' : Path} (get? : q.get? here none = q'.get? here' none)
    (type : ValueType) :
    SameOk (b.bindScalar q here type : Except BindError (Option (Entry ι)))
      (b.bindScalar q' here' type) := by
  intro entry
  rw [bindScalar_ok_iff, bindScalar_ok_iff, get?]

theorem leafRequests_relocated (h : q.Relocated q' base) (parent : Path) (name : String)
    (type : LeafType) :
    leafRequests q (parent ++ [.named name]) type =
      leafRequests q' (base ++ (parent ++ [.named name])) type := by
  have hrequests (parent : Path) (name : String) : requests q (parent ++ [.named name]) =
      requests q' (base ++ (parent ++ [.named name])) := by
    simp only [requests, h.get?]
  cases type with
  | primitive type => simp only [leafRequests, hrequests]
  | composite type =>
    simp only [leafRequests, hrequests]
    simp only [List.append_assoc]

/-- A leaf is bound alike at another path if the requests on it are the same. -/
theorem bindLeaf_sameOk_of_requests {here here' : Path} {type : LeafType}
    (requests : leafRequests q here type = leafRequests q' here' type) :
    SameOk (b.bindLeaf q here type : Except BindError (Option (Entry ι)))
      (b.bindLeaf q' here' type) := by
  rw [bindLeaf_eq, bindLeaf_eq, requests]
  refine SameOk.map (mapM_sameOk fun request _ => ?_) _
  refine Leaf.answer_sameOk ?_ ?_ type request <;> rfl

theorem bindLeaf_sameOk (h : q.Relocated q' base) (parent : Path) (name : String)
    (type : LeafType) :
    SameOk (b.bindLeaf q (parent ++ [.named name]) type : Except BindError (Option (Entry ι)))
      (b.bindLeaf q' (base ++ (parent ++ [.named name])) type) :=
  bindLeaf_sameOk_of_requests (leafRequests_relocated h parent name type)

/-! ## Fields and nodes -/

theorem listLength_relocated (h : q.Relocated q' base) (here : Path) (nonempty : here ≠ []) :
    q.listLength here = q'.listLength (base ++ here) := by
  refine Query.listLength_congr fun i => ?_
  rw [List.append_assoc]
  exact h.reaches here _ nonempty

/-- A field of a relocated query is bound alike, if some key reaches it in both queries or in none,
and if the nodes of its embedded filters are. -/
theorem bindField_sameOk (h : q.Relocated q' base) (parent : Path) (name : String)
    (reaches : q.reaches (parent ++ [.named name]) = q'.reaches (base ++ (parent ++ [.named name])))
    {depth : Nat}
    (children : ∀ target rest, q.reaches (parent ++ [.named name]) = true →
      SameOk (b.buildNode shapes q target (parent ++ [.named name] ++ rest) (depth + 1))
        (b.buildNode shapes q' target (base ++ (parent ++ [.named name] ++ rest)) (depth + 1)))
    (role : Role ι) :
    SameOk (b.bindField shapes q (parent ++ [.named name]) depth role)
      (b.bindField shapes q' (base ++ (parent ++ [.named name])) depth role) := by
  cases role with
  | scalar type => exact bindScalar_sameOk (h.get? parent name none) type
  | leaf type => exact bindLeaf_sameOk h parent name type
  | nested target =>
    simp only [bindField, ← reaches]
    split
    · rename_i hreached
      split
      · simpa using (children (shapes target) [] hreached).map nestedEntry
      · exact .errors _ _
    · exact .refl _
  | list target =>
    simp only [bindField, ← reaches, ← listLength_relocated h (parent ++ [.named name])
      (by simp)]
    split
    · rename_i hreached
      split
      · refine closeList_sameOk (mapM_sameOk fun i _ => ?_)
        simpa using children (shapes target) [.index i] hreached
      · exact .errors _ _
    · exact .refl _

/-- **A node of a relocated query is bound alike below the root.** -/
theorem buildNode_sameOk (h : q.Relocated q' base) (shape : Shape ι) {path : Path}
    (nonempty : path ≠ []) (depth : Nat) :
    SameOk (b.buildNode shapes q shape path depth)
      (b.buildNode shapes q' shape (base ++ path) depth) := by
  induction shape, path, depth using position_induct (q := q) with
  | step shape path depth ih =>
    rw [buildNode_eq, buildNode_eq]
    refine (mapM_sameOk fun field _ => SameOk.map ?_ (labelled field)).map (assemble shape)
    rw [List.append_assoc]
    refine bindField_sameOk h path field.name (h.reaches path _ nonempty)
      (fun target rest hreached => ?_) field.role
    exact ih _ target _ hreached (List.prefix_append _ _) (by simp)

theorem bindField_of_unreached (b : Binder) (shapes : ι → Shape ι) {path : Path}
    (unreached : q.reaches path = false) (name : String) (depth : Nat) (role : Role ι) :
    b.bindField shapes q (path ++ [.named name]) depth role = .ok none := by
  have hget {p : Path} (below : path ++ [.named name] <+: p) (op : Option Operation) :
      q.get? p op = none := by
    rw [Option.eq_none_iff_forall_ne_some]
    intro raw hraw
    rw [Query.reaches_of_get? hraw below] at unreached
    cases unreached
  cases role with
  | scalar type => exact bindScalar_of_none (hget (List.prefix_refl _) none)
  | leaf type =>
    have hnone : leafRequests q (path ++ [.named name]) type = [] := by
      rw [List.eq_nil_iff_forall_not_mem]
      rintro ⟨member, op, raw⟩ hrequest
      obtain ⟨p, lookup, hoperand, -, -, hraw⟩ := mem_leafRequests_iff.1 hrequest
      rw [hget (isPrefix_of_mem_operands hoperand)] at hraw
      cases hraw
    simp only [bindField, bindLeaf, hnone]
    rfl
  | nested target => simp [bindField, Query.reaches_append_of_unreached unreached]
  | list target => simp [bindField, Query.reaches_append_of_unreached unreached]

theorem buildNode_of_unreached (b : Binder) (shapes : ι → Shape ι) {path : Path}
    (unreached : q.reaches path = false) (shape : Shape ι) (depth : Nat) :
    b.buildNode shapes q shape path depth = .ok (.mk shape []) := by
  have hfields : (shape.fields.mapM fun field =>
      (b.bindField shapes q (path ++ [.named field.name]) depth field.role).map (labelled field)) =
        .ok (shape.fields.map fun _ => none) := by
    rw [mapM_ok_iff, List.forall₂_map_right_iff]
    refine List.forall₂_same.2 fun field _ => ?_
    rw [bindField_of_unreached b shapes unreached]
    rfl
  rw [buildNode_eq, hfields]
  simp [Except.map, assemble]

/-! ## The root -/

/-- An embedded filter at the root that is not reached behind `base` has no entry, even if a bare
key reaches it. -/
theorem bindField_nested_root (h : q.Relocated q' base) (deep : 0 < b.limits.maxDepth)
    {name : String} (unreached : q'.reaches (base ++ [.named name]) = false) (target : ι) :
    b.bindField shapes q [.named name] 0 (.nested target) = .ok none := by
  have hempty : b.buildNode shapes q (shapes target) [.named name] 1 =
      .ok (.mk (shapes target) []) :=
    (buildNode_sameOk h (shapes target) (List.cons_ne_nil _ _) 1 _).2
      (buildNode_of_unreached b shapes unreached _ _)
  simp only [bindField, if_pos deep, hempty]
  split <;> rfl

theorem bindField_list_root (h : q.Relocated q' base) (deep : 0 < b.limits.maxDepth)
    {name : String} (unreached : q'.reaches (base ++ [.named name]) = false) (target : ι) :
    b.bindField shapes q [.named name] 0 (.list target) = .ok none := by
  have hlength : q.listLength [.named name] = 0 := by
    rw [listLength_relocated h _ (List.cons_ne_nil _ _)]
    by_contra hsome
    have hfirst := Query.lt_listLength_iff.1 (Nat.pos_of_ne_zero hsome) 0 (Nat.le_refl 0)
    rw [Query.reaches_append_of_unreached unreached] at hfirst
    cases hfirst
  simp only [bindField, if_pos deep, hlength]
  split <;> rfl

/-- A field at the root is bound alike: if the keys that reach it are operations behind `base`, it
has no entry in either query. -/
theorem bindField_root_sameOk (h : q.Relocated q' base) (deep : 0 < b.limits.maxDepth)
    (name : String) (role : Role ι) :
    SameOk (b.bindField shapes q [.named name] 0 role)
      (b.bindField shapes q' (base ++ [.named name]) 0 role) := by
  by_cases hreaches : q.reaches [.named name] = q'.reaches (base ++ [.named name])
  · refine bindField_sameOk h [] name hreaches (fun target rest _ => ?_) role
    exact buildNode_sameOk h target (by simp) 1
  · -- The key at the name has become an operation on the record at `base`.
    have hunreached : q'.reaches (base ++ [.named name]) = false := by
      rw [← Bool.not_eq_true]
      intro htrue
      exact hreaches ((h.reaches_single _ htrue).trans htrue.symm)
    cases role with
    | scalar type => exact bindScalar_sameOk (h.get? [] name none) type
    | leaf type => exact bindLeaf_sameOk h [] name type
    | nested target =>
      rw [bindField_nested_root h deep hunreached]
      simp only [bindField, hunreached]
      exact .refl _
    | list target =>
      rw [bindField_list_root h deep hunreached]
      simp only [bindField, hunreached]
      exact .refl _

/-- **Binding below a path.** A request is bound at the root exactly if the request with its keys
moved below a path is bound at that path, and then to the same tree. So it is although a bare key
whose name is a tag is read as a field at the root and as an operation below the path. -/
theorem build_relocated (b : Binder) (shapes : ι → Shape ι) (shape : Shape ι) {base : Path}
    (nonempty : base ≠ []) (plain : ∀ segment ∈ base, segment.Plain)
    (deep : 1 ≤ b.limits.maxDepth) {pairs : List (String × String)}
    (wellFormed : ∀ pair ∈ pairs, Key.WellFormed pair.1) :
    (∀ node, b.build shapes shape (Query.ofPairs (Query.movedBelow base pairs)) base = .ok node ↔
      b.build shapes shape (Query.ofPairs pairs) [] = .ok node) ∧
    ∀ raw op, sameName op.tag raw = true → Key.parse? raw = some ⟨[.field op.tag], none⟩ ∧
      Key.parse? (Key.below base raw) = some ⟨base, some op⟩ := by
  have hrelocated := Query.relocated_ofPairs nonempty plain wellFormed
  refine ⟨fun node => ?_, fun raw op spells => Key.parse?_tag nonempty plain spells⟩
  have hsame : SameOk (b.build shapes shape (Query.ofPairs pairs) [])
      (b.build shapes shape (Query.ofPairs (Query.movedBelow base pairs)) base) := by
    unfold build
    rw [buildNode_eq, buildNode_eq]
    refine (mapM_sameOk fun field _ => SameOk.map ?_ (labelled field)).map (assemble shape)
    exact bindField_root_sameOk hrelocated deep field.name field.role
  exact (hsame node).symm

/-- Folders with fields that are spelled like operations. -/
def folderShapes : Unit → Shape Unit := fun _ =>
  { name := "Folder"
    fields :=
      [⟨"New", .nested ()⟩, ⟨"In", .list ()⟩, ⟨"Title", .leaf (.primitive ⟨.string, false⟩)⟩] }

/-- The folders at a place of another request. -/
def folderPath : Path := [.field "folders", .index 3]

/-- The bare key `NEW` is a field at the root, and an operation on the folder at its path. -/
def folderPairs : List (String × String) :=
  [("NEW", "x"), ("in[0][title]", "y"), ("in[0][new][in][0][Title][sw]", "z"), ("title[in]", "a,b")]

/-- The same folders are asked for at the root and at their path, whoever reads `NEW`. -/
theorem build_relocated_folders :
    folderPath ≠ [] ∧ (∀ segment ∈ folderPath, segment.Plain) ∧
      1 ≤ ({} : Binder).limits.maxDepth ∧ (∀ pair ∈ folderPairs, Key.WellFormed pair.1) ∧
      Query.movedBelow folderPath folderPairs =
        [("folders[3][NEW]", "x"), ("folders[3][in][0][title]", "y"),
          ("folders[3][in][0][new][in][0][Title][sw]", "z"), ("folders[3][title][in]", "a,b")] ∧
      (Query.ofPairs folderPairs).reaches [.named "New"] = true ∧
      (Query.ofPairs (Query.movedBelow folderPath folderPairs)).reaches
        (folderPath ++ [.named "New"]) = false ∧
      (Key.parse? "NEW" = some ⟨[.field "new"], none⟩ ∧
        Key.parse? (Key.below folderPath "NEW") = some ⟨folderPath, some .notEndsWith⟩) ∧
      ∃ node, build {} folderShapes (folderShapes ()) (Query.ofPairs folderPairs) [] = .ok node ∧
        build {} folderShapes (folderShapes ())
          (Query.ofPairs (Query.movedBelow folderPath folderPairs)) folderPath = .ok node ∧
        node.size = 2 := by
  have hplain : ∀ segment ∈ folderPath, segment.Plain := by decide
  have hwellFormed : ∀ pair ∈ folderPairs, Key.WellFormed pair.1 := by
    intro pair hpair
    simp only [folderPairs, List.mem_cons, List.not_mem_nil, or_false] at hpair
    rcases hpair with rfl | rfl | rfl | rfl
    · exact ⟨"NEW".toList, [], by decide, by decide⟩
    · exact ⟨"in".toList, ["0".toList, "title".toList], by decide, by decide⟩
    · exact ⟨"in".toList,
        ["0".toList, "new".toList, "in".toList, "0".toList, "Title".toList, "sw".toList],
        by decide, by decide⟩
    · exact ⟨"title".toList, ["in".toList], by decide, by decide⟩
  have hnonempty : folderPath ≠ [] := by decide
  obtain ⟨hbuild, htag⟩ := build_relocated {} folderShapes (folderShapes ()) hnonempty hplain
    (by decide) hwellFormed
  have hrun : (build {} folderShapes (folderShapes ()) (Query.ofPairs folderPairs) []).map
      Node.size = .ok 2 := by
    decide +kernel
  obtain ⟨node, hnode, hsize⟩ := map_ok_iff.1 hrun
  exact ⟨hnonempty, hplain, by decide, hwellFormed, by decide +kernel, by decide +kernel,
    by decide +kernel, htag "NEW" .notEndsWith (by decide), node, hnode, (hbuild node).2 hnode,
    hsize⟩

end Binder

end BracketFilter
