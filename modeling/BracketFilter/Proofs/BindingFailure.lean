import BracketFilter.Proofs.Faults

/-!
# When a binding fails, and with what

Each step of a binding reports the first of its faults: `Reports`.

Principal result: `build_error_iff` — a binding fails exactly if something is wrong at a position
that the query asks for, and it ends in the error that comes first.
-/

set_option autoImplicit false

namespace BracketFilter

open BracketFilter.Text

variable {ι : Type}

/-! ## Values -/

theorem Site.reports_coerce (site : Site) (member : Option String) (kind : Kind) (raw : String) :
    Reports (fun place e => place = [] ∧
      ∃ source, site.coercer raw kind = .error source ∧ e = .coercion (site.target member) source)
      (site.coerce member kind raw) := by
  unfold coerce
  cases site.coercer raw kind with
  | ok value => exact .ok (by simp)
  | error source =>
    refine .error ⟨rfl, source, rfl, rfl⟩ ?_
    rintro place e ⟨rfl, _, hsource, rfl⟩
    cases hsource
    exact .inr ⟨rfl, rfl⟩

theorem Leaf.read_comparison {site : Site} {member : Option String} {kind : Kind} {op : Operation}
    {raw : String} (family : op.family = .comparison) :
    read site member kind op raw =
      (site.coerce member kind raw).map fun value => some ⟨op, [value], false, member⟩ := by
  simp only [read, family]
  cases site.coerce member kind raw <;> rfl

theorem Leaf.read_membership {site : Site} {member : Option String} {kind : Kind} {op : Operation}
    {raw : String} (family : op.family = .membership)
    (few : ¬ site.maxInValues < (tokens raw).length) :
    read site member kind op raw =
      ((tokens raw).mapM (site.coerce member kind)).map fun values =>
        if tokens raw = [] then none else some ⟨op, values, true, member⟩ := by
  simp only [read, family, if_neg few]
  by_cases hnone : tokens raw = []
  · simp [hnone, Except.map, pure, Except.pure]
  · simp only [if_neg hnone]
    cases (tokens raw).mapM (site.coerce member kind) <;> rfl

/-- An operation reports what is wrong with its value. -/
theorem Leaf.reports_read (site : Site) (member : Option String) (kind : Kind) (op : Operation)
    (raw : String) : Reports (Refused site member kind op raw) (read site member kind op raw) := by
  cases hfamily : op.family with
  | comparison =>
    rw [read_comparison hfamily]
    exact ((site.reports_coerce member kind raw).congr fun place e =>
      (refused_comparison_iff hfamily).symm).map _
  | text =>
    simp only [read, hfamily, Kind.isText, beq_iff_eq]
    split
    · rename_i htext
      exact .ok fun place e h => ((refused_text_iff hfamily).1 h).1 htext
    · rename_i hother
      exact .error (.text hfamily hother) fun place e h =>
        .inr ((refused_text_iff hfamily).1 h).2
  | membership =>
    by_cases hmany : site.maxInValues < (tokens raw).length
    · simp only [read, hfamily, if_pos hmany]
      refine .error (.tooMany hfamily hmany) fun place e h => ?_
      rcases (refused_membership_iff hfamily).1 h with
        ⟨-, rfl, rfl⟩ | ⟨i, token, source, -, rfl, -, rfl⟩
      · exact .inr ⟨rfl, rfl⟩
      · exact .inl (List.nil_lt_cons _ _)
    · rw [read_membership hfamily hmany]
      refine ((Reports.mapM fun i token _ => site.reports_coerce member kind token).congr
        fun place e => ?_).map _
      rw [refused_membership_iff hfamily]
      constructor
      · rintro ⟨i, token, _, htoken, rfl, rfl, source, hsource, rfl⟩
        exact .inr ⟨i, token, source, htoken, rfl, hsource, rfl⟩
      · rintro (⟨hmany', -, -⟩ | ⟨i, token, source, htoken, rfl, hsource, rfl⟩)
        · exact absurd hmany' hmany
        · exact ⟨i, token, [], htoken, rfl, rfl, source, hsource, rfl⟩

/-! ## Leaves -/

namespace Binder

theorem reports_answer (site : Site) (type : LeafType)
    (request : Option String × Operation × String) :
    Reports (fun place e => ∃ operand, Leaf.operandType? type request.1 = some operand ∧
      Refused site request.1 operand.kind request.2.1 request.2.2 place e)
      (Leaf.answer site type request) := by
  unfold Leaf.answer
  cases Leaf.operandType? type request.1 with
  | none => exact .ok (by simp)
  | some operand => exact (Leaf.reports_read _ _ _ _ _).congr fun place e => by simp

/-- What is wrong with the value of a lookup at an operand of a leaf. -/
def LookupFault (b : Binder) (q : Query) (here : Path) (type : LeafType)
    (operand : Option String × Path) (lookup : Option Operation) (place : List Nat)
    (e : BindError) : Prop :=
  ∃ operandType raw, Leaf.operandType? type operand.1 = some operandType ∧
    q.get? operand.2 lookup = some raw ∧
    Refused (b.site here) operand.1 operandType.kind (lookup.getD .eq) raw place e

theorem reports_operand (b : Binder) (q : Query) (here : Path) (type : LeafType)
    (operand : Option String × Path) :
    Reports (fun place e => ∃ r lookup rest, lookups[r]? = some lookup ∧ place = r :: rest ∧
      LookupFault b q here type operand lookup rest e)
      ((lookups.filterMap fun lookup => (q.get? operand.2 lookup).map fun raw =>
        (operand.1, lookup.getD .eq, raw)).mapM (Leaf.answer (b.site here) type)) := by
  refine Reports.mapM_filterMap ?_ ?_
  · intro r lookup request _ hrequest
    obtain ⟨raw, hraw, rfl⟩ := Option.map_eq_some_iff.1 hrequest
    refine (reports_answer (b.site here) type _).congr fun place e => ?_
    simp [LookupFault, hraw]
  · rintro r lookup _ hnone place e ⟨operandType, raw, -, hraw, -⟩
    rw [hraw] at hnone
    cases hnone

theorem reports_bindLeaf (b : Binder) (q : Query) (here : Path) (depth : Nat) (type : LeafType) :
    Reports (OwnFault b q here depth (.leaf type : Role ι))
      (b.bindLeaf q here type : Except BindError (Option (Entry ι))) := by
  rw [bindLeaf_eq, leafRequests_eq_operands]
  refine ((Reports.mapM_flatMap fun m operand _ =>
    reports_operand b q here type operand).map _).congr fun place e => ?_
  constructor
  · rintro ⟨m, ⟨member, path⟩, _, habout, rfl, r, lookup, place, hasked, rfl, operand, raw, htyped,
      hfound, hrefused⟩
    exact .leaf habout htyped hasked hfound hrefused
  · rintro (_ | _ | _ | _ | ⟨habout, htyped, hasked, hfound, hrefused⟩)
    exact ⟨_, _, _, habout, rfl, _, _, _, hasked, rfl, _, _, htyped, hfound, hrefused⟩

/-! ## Parameters -/

theorem reports_bindScalar (b : Binder) (q : Query) (here : Path) (depth : Nat)
    (type : ValueType) :
    Reports (OwnFault b q here depth (.scalar type : Role ι))
      (b.bindScalar q here type : Except BindError (Option (Entry ι))) := by
  cases hget : q.get? here none with
  | none =>
    rw [bindScalar_of_none hget]
    refine .ok ?_
    rintro place e (_ | _ | _ | ⟨hfound, -⟩)
    rw [hget] at hfound
    cases hfound
  | some raw =>
    rw [bindScalar_of_some hget]
    refine (((b.site here).reports_coerce none type.kind raw).map _).congr fun place e => ?_
    constructor
    · rintro ⟨rfl, source, hrefused, rfl⟩
      exact .scalar hget hrefused
    · rintro (_ | _ | _ | ⟨hfound, hrefused⟩)
      cases hget.symm.trans hfound
      exact ⟨rfl, _, hrefused, rfl⟩

/-! ## Embedded filters and lists -/

variable {b : Binder} {shapes : ι → Shape ι} {q : Query} {here : Path} {depth : Nat}

/-- An index belongs to a list exactly if it is mentioned and every index before it. -/
theorem lt_listLength_iff_mentions {i : Nat} :
    i < q.listLength here ↔ ∀ j ≤ i, q.Mentions (here ++ [.index j]) := by
  simp only [Query.lt_listLength_iff, Query.reaches_iff_mentions]

/-- An embedded filter within the depth reports the faults of its node. -/
theorem fieldFault_nested_iff {target : ι} (within : depth < b.limits.maxDepth)
    (mentioned : q.Mentions here) {place : List Nat} {e : BindError} :
    FieldFault b shapes q here depth (.nested target) place e ↔
      Fault b shapes q ⟨shapes target, here, depth + 1⟩ place e := by
  constructor
  · rintro (⟨-, hdeep⟩ | ⟨_, _, rest, ⟨-, -⟩, hfault, rfl⟩)
    · omega
    · exact hfault
  · intro hfault
    exact .inr ⟨[], _, place, .nested within mentioned, hfault, rfl⟩

/-- The faults of a list within the depth are those of its entries up to the limit, and that there
are more. -/
theorem fieldFault_list_iff {target : ι} (within : depth < b.limits.maxDepth) {place : List Nat}
    {e : BindError} :
    FieldFault b shapes q here depth (.list target) place e ↔
      (∃ i rest, i < min (q.listLength here) b.limits.maxListItems ∧ place = i :: rest ∧
        Fault b shapes q ⟨shapes target, here ++ [.index i], depth + 1⟩ rest e) ∨
      b.limits.maxListItems < q.listLength here ∧ place = [b.limits.maxListItems] ∧
        e = b.tooLong here := by
  simp only [Nat.lt_min, lt_listLength_iff_mentions]
  constructor
  · rintro ((_ | ⟨-, hdeep⟩ | ⟨-, hmentioned⟩) |
      ⟨_, _, rest, _ | ⟨-, hmentioned, hshort⟩, hfault, rfl⟩)
    · omega
    · exact .inr ⟨hmentioned, rfl, rfl⟩
    · exact .inl ⟨_, rest, ⟨hmentioned, hshort⟩, rfl, hfault⟩
  · rintro (⟨i, rest, ⟨hmentioned, hshort⟩, rfl, hfault⟩ | ⟨hmentioned, rfl, rfl⟩)
    · exact .inr ⟨[i], _, rest, .list within hmentioned hshort, hfault, rfl⟩
    · exact .inl (.tooLong within hmentioned)

theorem reports_closeList {target : ι} (within : depth < b.limits.maxDepth)
    (entries : ∀ i, Reports (Fault b shapes q ⟨shapes target, here ++ [.index i], depth + 1⟩)
      (b.buildNode shapes q (shapes target) (here ++ [.index i]) (depth + 1))) :
    Reports (FieldFault b shapes q here depth (.list target))
      (b.closeList here (q.listLength here)
        ((List.range (min (q.listLength here) b.limits.maxListItems)).mapM fun i =>
          b.buildNode shapes q (shapes target) (here ++ [.index i]) (depth + 1))) := by
  have hitems : Reports (fun place e => ∃ i rest,
      i < min (q.listLength here) b.limits.maxListItems ∧ place = i :: rest ∧
        Fault b shapes q ⟨shapes target, here ++ [.index i], depth + 1⟩ rest e)
      ((List.range (min (q.listLength here) b.limits.maxListItems)).mapM fun i =>
        b.buildNode shapes q (shapes target) (here ++ [.index i]) (depth + 1)) := by
    refine (Reports.mapM fun _ i _ => entries i).congr fun place e => ?_
    simp only [List.getElem?_eq_some_iff, List.length_range, List.getElem_range, exists_prop]
    constructor
    · rintro ⟨i, _, rest, ⟨hi, rfl⟩, hplace, hfault⟩
      exact ⟨i, rest, hi, hplace, hfault⟩
    · rintro ⟨i, rest, hi, hplace, hfault⟩
      exact ⟨i, i, rest, ⟨hi, rfl⟩, hplace, hfault⟩
  by_cases hlong : b.limits.maxListItems < q.listLength here
  · rw [closeList_of_lt hlong]
    refine (hitems.thenLast [b.limits.maxListItems] _ ?_).congr fun place e => ?_
    · rintro _ e' ⟨i, rest, hi, rfl, -⟩
      exact List.cons_lt_cons_iff.2 (.inl (by omega))
    · rw [fieldFault_list_iff within]
      simp [hlong]
  · rw [closeList_of_le (by omega)]
    refine (hitems.map _).congr fun place e => ?_
    rw [fieldFault_list_iff within]
    exact (or_iff_left fun h => hlong h.1).symm

/-- A field with positions of its own reports its faults: none if it is not mentioned, its depth if
that is beyond the limit, and those of its positions otherwise. -/
theorem reports_embedded {role : Role ι} {x : Except BindError (Option (Entry ι))}
    (mentioned : ∀ place e, FieldFault b shapes q here depth role place e → q.Mentions here)
    (deep : q.Mentions here → b.limits.maxDepth ≤ depth → ∀ place e,
      FieldFault b shapes q here depth role place e ↔ place = [] ∧ e = b.tooDeep here)
    (within : q.Mentions here → depth < b.limits.maxDepth →
      Reports (FieldFault b shapes q here depth role) x) :
    Reports (FieldFault b shapes q here depth role)
      (if q.reaches here = true then
        if depth < b.limits.maxDepth then x else .error (b.tooDeep here)
      else .ok none) := by
  by_cases hreached : q.reaches here = true
  · have hmentioned := Query.reaches_iff_mentions.1 hreached
    rw [if_pos hreached]
    by_cases hwithin : depth < b.limits.maxDepth
    · rw [if_pos hwithin]
      exact within hmentioned hwithin
    · have hdeep := deep hmentioned (by omega)
      rw [if_neg hwithin]
      exact .error ((hdeep _ _).2 ⟨rfl, rfl⟩) fun place e h => .inr ((hdeep _ _).1 h)
  · rw [if_neg hreached]
    exact .ok fun place e h => hreached (Query.reaches_iff_mentions.2 (mentioned place e h))

theorem reports_bindField
    (children : ∀ target p, q.reaches here = true → here <+: p →
      Reports (Fault b shapes q ⟨target, p, depth + 1⟩)
        (b.buildNode shapes q target p (depth + 1)))
    (role : Role ι) :
    Reports (FieldFault b shapes q here depth role)
      (b.bindField shapes q here depth role) := by
  cases role with
  | scalar type =>
    refine (b.reports_bindScalar q here depth type).congr fun place e => ?_
    exact ⟨.inl, fun h => h.resolve_right fun ⟨_, _, _, hopens, _⟩ => nomatch hopens⟩
  | leaf type =>
    refine (b.reports_bindLeaf q here depth type).congr fun place e => ?_
    exact ⟨.inl, fun h => h.resolve_right fun ⟨_, _, _, hopens, _⟩ => nomatch hopens⟩
  | nested target =>
    refine reports_embedded ?_ ?_ ?_
    · rintro place e (⟨hmentioned, -⟩ | ⟨_, _, _, ⟨-, hmentioned⟩, -⟩)
      · exact hmentioned
      · exact hmentioned
    · intro hmentioned hdeep place e
      constructor
      · rintro (⟨-, -⟩ | ⟨_, _, _, ⟨hwithin, -⟩, -⟩)
        · exact ⟨rfl, rfl⟩
        · omega
      · rintro ⟨rfl, rfl⟩
        exact .inl (.nestedTooDeep hmentioned hdeep)
    · intro hmentioned hwithin
      have hchild := children (shapes target) here (Query.reaches_iff_mentions.2 hmentioned)
        (List.prefix_refl _)
      exact (hchild.map _).congr fun place e => (fieldFault_nested_iff hwithin hmentioned).symm
  | list target =>
    refine reports_embedded ?_ ?_ ?_
    · rintro place e ((_ | ⟨hmentioned, -⟩ | ⟨-, hmentioned⟩) |
        ⟨_, _, _, _ | ⟨-, hmentioned, -⟩, -⟩)
      · exact hmentioned
      · exact (hmentioned 0 (Nat.zero_le _)).of_isPrefix (List.prefix_append _ _)
      · exact (hmentioned 0 (Nat.zero_le _)).of_isPrefix (List.prefix_append _ _)
    · intro hmentioned hdeep place e
      constructor
      · rintro ((_ | ⟨-, -⟩ | ⟨hwithin, -⟩) | ⟨_, _, _, _ | ⟨hwithin, -, -⟩, -⟩)
        · exact ⟨rfl, rfl⟩
        · omega
        · omega
      · rintro ⟨rfl, rfl⟩
        exact .inl (.listTooDeep hmentioned hdeep)
    · intro hmentioned hwithin
      exact reports_closeList hwithin fun i =>
        children _ _ (Query.reaches_iff_mentions.2 hmentioned) (List.prefix_append _ _)

/-- **A node reports the first fault at its position and below.** -/
theorem reports_buildNode (b : Binder) (shapes : ι → Shape ι) (q : Query) (shape : Shape ι)
    (path : Path) (depth : Nat) :
    Reports (Fault b shapes q ⟨shape, path, depth⟩) (b.buildNode shapes q shape path depth) := by
  induction shape, path, depth using position_induct (q := q) with
  | step shape path depth ih =>
    rw [buildNode_eq]
    have hfields : Reports (fun place e => ∃ n field rest, shape.fields[n]? = some field ∧
        place = n :: rest ∧
          FieldFault b shapes q (path ++ [.named field.name]) depth field.role rest e)
        (shape.fields.mapM fun field =>
          (b.bindField shapes q (path ++ [.named field.name]) depth field.role).map
            (labelled field)) := by
      refine Reports.mapM fun n field _ => (reports_bindField ?_ field.role).map _
      exact fun target p hreached hbelow => ih _ target p hreached hbelow
    refine (hfields.map _).congr fun place e => ?_
    rw [fault_iff]
    rfl

/-- **When a binding fails, and with what.** It fails exactly if something is wrong at a position
that the query asks for, and its error is the one whose place comes first: fields in the order of
their declaration, entries of lists, operands and their lookups in order, and the number of entries
of a list, if that is too large, behind what is wrong with the entries within the limit. -/
theorem build_error_iff (b : Binder) (shapes : ι → Shape ι) (shape : Shape ι) (q : Query)
    (path : Path) :
    ((∃ e, b.build shapes shape q path = .error e) ↔
      ∃ above pos, Visited b.limits shapes q ⟨shape, path, 0⟩ above pos ∧
        ∃ place e, FaultAt b q pos place e) ∧
    ∀ e, b.build shapes shape q path = .error e ↔
      IsFirst (Fault b shapes q ⟨shape, path, 0⟩) e := by
  have hreports := reports_buildNode b shapes q shape path 0
  refine ⟨hreports.fails_iff.trans ?_, fun e => hreports.error_iff⟩
  constructor
  · rintro ⟨_, e, above, pos, rest, hvisited, hfault, rfl⟩
    exact ⟨above, pos, hvisited, rest, e, hfault⟩
  · rintro ⟨above, pos, hvisited, rest, e, hfault⟩
    exact ⟨above ++ rest, e, above, pos, rest, hvisited, hfault, rfl⟩

end Binder

end BracketFilter
