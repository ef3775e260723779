import BracketFilter.Proofs.BindingSteps

/-!
# Limits reject, and change nothing else

* `Limits.Within` — every limit is at most its counterpart.
* `BindError.IsLimit` — an error that a limit raises.

Each step of a binding gives the same under larger limits, unless a limit stops it: `SameUnless`.

Principal result: `build_of_larger_limits` — a binding that no limit stops ends in the same tree, or
in the same error, under all larger limits.
-/

set_option autoImplicit false

namespace BracketFilter

variable {ι : Type}

/-- Every limit is at most its counterpart. -/
structure Limits.Within (limits limits' : Limits) : Prop where
  maxDepth : limits.maxDepth ≤ limits'.maxDepth
  maxListItems : limits.maxListItems ≤ limits'.maxListItems
  maxInValues : limits.maxInValues ≤ limits'.maxInValues

/-- An error that a limit raises. -/
def BindError.IsLimit (e : BindError) : Prop := ∃ detail, e = .limitExceeded detail

/-! ## Leaves -/

section Leaves

variable {site site' : Site} (field : site'.field = site.field)
  (coercer : site'.coercer = site.coercer)

include field coercer

theorem Site.coerce_congr (member : Option String) (kind : Kind) :
    site'.coerce member kind = site.coerce member kind := by
  have htarget : site'.target member = site.target member := by
    cases member <;> simp [Site.target, field]
  funext raw
  simp only [Site.coerce, coercer, htarget]

/-- An operation is read alike where more values may be listed, unless too many are. -/
theorem Leaf.read_sameUnless (larger : site.maxInValues ≤ site'.maxInValues)
    (member : Option String) (kind : Kind) (op : Operation) (raw : String) :
    SameUnless BindError.IsLimit (read site member kind op raw)
      (read site' member kind op raw) := by
  have hcoerce := Site.coerce_congr field coercer member kind
  have htarget : site'.target member = site.target member := by
    cases member <;> simp [Site.target, field]
  unfold read
  split
  · rw [hcoerce]
    exact .refl _
  · rw [htarget]
    exact .refl _
  · by_cases hmany : site.maxInValues < (tokens raw).length
    · rw [if_pos hmany]
      exact .of_excluded ⟨_, rfl⟩ _
    · have hfew : ¬ site'.maxInValues < (tokens raw).length := by omega
      rw [if_neg hmany, if_neg hfew, hcoerce]
      exact .refl _

theorem Leaf.answer_sameUnless (larger : site.maxInValues ≤ site'.maxInValues) (type : LeafType)
    (request : Option String × Operation × String) :
    SameUnless BindError.IsLimit (answer site type request) (answer site' type request) := by
  unfold answer
  split
  · exact .refl _
  · exact read_sameUnless field coercer larger _ _ _ _

end Leaves

/-! ## Fields and nodes -/

namespace Binder

variable {limits limits' : Limits} {coercer : Coercer} {shapes : ι → Shape ι} {q : Query}

/-- The entries of a list are the same under larger limits, unless a limit stops them. Where more
entries are bound, an error among the first of them still comes first. -/
theorem closeList_sameUnless (larger : limits.Within limits') {here : Path} {length : Nat}
    {f f' : Nat → Except BindError (Node ι)}
    (each : ∀ i, SameUnless BindError.IsLimit (f i) (f' i)) :
    SameUnless BindError.IsLimit
      (closeList ⟨limits, coercer⟩ here length
        ((List.range (min length limits.maxListItems)).mapM f))
      (closeList ⟨limits', coercer⟩ here length
        ((List.range (min length limits'.maxListItems)).mapM f')) := by
  have hitems : SameUnless BindError.IsLimit
      ((List.range (min length limits.maxListItems)).mapM f)
      ((List.range (min length limits.maxListItems)).mapM f') := mapM_sameUnless fun i _ => each i
  have hle := larger.maxListItems
  by_cases hlong : limits.maxListItems < length
  · cases hfirst : (List.range (min length limits.maxListItems)).mapM f with
    | error e =>
      rw [hfirst] at hitems
      intro hnot
      have hfirst' : (List.range (min length limits.maxListItems)).mapM f' = .error e := by
        refine hitems ?_
        rintro _ he ⟨⟩
        exact hnot e he rfl
      -- The longer range goes on behind the shorter one.
      obtain ⟨n, hn⟩ : ∃ n, min length limits'.maxListItems =
          min length limits.maxListItems + n := Nat.exists_eq_add_of_le (by omega)
      rw [hn, List.range_add, mapM_append_of_error hfirst']
      rfl
    | ok items =>
      simp only [closeList, if_pos hlong]
      exact .of_excluded ⟨_, rfl⟩ _
  · have hshort : length ≤ limits.maxListItems := by omega
    have hshort' : length ≤ limits'.maxListItems := by omega
    rw [Nat.min_eq_left hshort] at hitems
    rw [Nat.min_eq_left hshort, Nat.min_eq_left hshort', closeList_of_le hshort,
      closeList_of_le hshort']
    exact hitems.map _

theorem bindField_sameUnless (larger : limits.Within limits') {here : Path} {depth : Nat}
    (children : ∀ target p, q.reaches here = true → here <+: p → SameUnless BindError.IsLimit
      (buildNode ⟨limits, coercer⟩ shapes q target p (depth + 1))
      (buildNode ⟨limits', coercer⟩ shapes q target p (depth + 1)))
    (role : Role ι) :
    SameUnless BindError.IsLimit (bindField ⟨limits, coercer⟩ shapes q here depth role)
      (bindField ⟨limits', coercer⟩ shapes q here depth role) := by
  have hdepth := larger.maxDepth
  cases role with
  | scalar type => exact .refl _
  | leaf type =>
    simp only [bindField, bindLeaf_eq]
    refine (mapM_sameUnless fun request _ => ?_).map _
    refine Leaf.answer_sameUnless ?_ ?_ ?_ type request
    · rfl
    · rfl
    · exact larger.maxInValues
  | nested target =>
    simp only [bindField]
    split
    · rename_i hreached
      by_cases hwithin : depth < limits.maxDepth
      · have hwithin' : depth < limits'.maxDepth := by omega
        rw [if_pos hwithin, if_pos hwithin']
        exact (children _ here hreached (List.prefix_refl _)).map _
      · rw [if_neg hwithin]
        exact .of_excluded ⟨_, rfl⟩ _
    · exact .refl _
  | list target =>
    simp only [bindField]
    split
    · rename_i hreached
      by_cases hwithin : depth < limits.maxDepth
      · have hwithin' : depth < limits'.maxDepth := by omega
        rw [if_pos hwithin, if_pos hwithin']
        refine closeList_sameUnless larger fun i => ?_
        exact children _ _ hreached (List.prefix_append _ _)
      · rw [if_neg hwithin]
        exact .of_excluded ⟨_, rfl⟩ _
    · exact .refl _

theorem buildNode_sameUnless (larger : limits.Within limits') (shape : Shape ι) (path : Path)
    (depth : Nat) :
    SameUnless BindError.IsLimit (buildNode ⟨limits, coercer⟩ shapes q shape path depth)
      (buildNode ⟨limits', coercer⟩ shapes q shape path depth) := by
  induction shape, path, depth using position_induct (q := q) with
  | step shape path depth ih =>
    rw [buildNode_eq, buildNode_eq]
    refine (mapM_sameUnless fun field _ => ?_).map _
    refine (bindField_sameUnless larger ?_ field.role).map _
    exact fun target p hreached hbelow => ih _ target p hreached hbelow

/-- **Limits reject, and change nothing else.** A binding that no limit stops ends in the same tree,
or in the same error, under all larger limits. -/
theorem build_of_larger_limits (larger : limits.Within limits') {shape : Shape ι} {path : Path}
    (unlimited : ∀ detail,
      build ⟨limits, coercer⟩ shapes shape q path ≠ .error (.limitExceeded detail)) :
    build ⟨limits', coercer⟩ shapes shape q path = build ⟨limits, coercer⟩ shapes shape q path := by
  refine buildNode_sameUnless larger shape path 0 ?_
  rintro _ ⟨detail, rfl⟩
  exact unlimited detail

/-- Orders of items, of which the quantity is counted. -/
def orderShapes : Bool → Shape Bool
  | true => { name := "Order", fields := [⟨"items", .list false⟩] }
  | false => { name := "Item", fields := [⟨"qty", .leaf (.primitive ⟨.i64, false⟩)⟩] }

/-- More items than one, of which the first is of no known quantity. -/
def orderQuery : Query :=
  Query.ofPairs [("items[1][qty][in]", "1,2"), ("items[0][qty]", "many"), ("items[2][qty]", "3")]

/-- The error in the first item comes before the limit on the number of items. -/
theorem build_of_larger_limits_orders :
    Limits.Within { maxListItems := 1 } .standard ∧
      build ⟨{ maxListItems := 1 }, .standard⟩ orderShapes (orderShapes true) orderQuery [] =
        .error (.coercion "items[0][qty]" ⟨"many", .i64⟩) ∧
      build ⟨.standard, .standard⟩ orderShapes (orderShapes true) orderQuery [] =
        .error (.coercion "items[0][qty]" ⟨"many", .i64⟩) := by
  have hlarger : Limits.Within { maxListItems := 1 } .standard := ⟨by decide, by decide, by decide⟩
  have hrefused : build ⟨{ maxListItems := 1 }, .standard⟩ orderShapes (orderShapes true) orderQuery
      [] = .error (.coercion "items[0][qty]" ⟨"many", .i64⟩) := by
    rw [← map_error_iff (f := Node.size)]
    decide +kernel
  refine ⟨hlarger, hrefused, ?_⟩
  rw [← hrefused]
  refine build_of_larger_limits hlarger fun detail => ?_
  rw [hrefused]
  simp

end Binder

end BracketFilter
