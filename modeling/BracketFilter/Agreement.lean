import BracketFilter.Error
import BracketFilter.Record
import BracketFilter.Shape

/-!
# Agreement of filters and record types

Whether the fields of a filter fit the fields of a record type with the same names can be decided
without a request. Both families are finite and may be cyclic.

* `compareField` — what one field of a filter demands of the field of a record type: an error, the
  agreement of an embedded pair of a shape and a record type, or nothing.
* `agreeFrom` — compares fields one after another. A pair that is met for the first time puts its
  fields in front of those that wait, so that the search goes into the depth; a pair that was met
  before is not entered again, so that it ends.
* `agree` — whether a shape and a record type agree, with the first disagreement if they do not.
-/

set_option autoImplicit false

namespace BracketFilter

variable {ι κ : Type} {C : κ → Type}

/-- What a role asks for, in words. -/
def Role.describe : Role ι → String
  | .scalar type => type.name
  | .leaf type => type.name
  | .nested _ => "nested filter"
  | .list _ => "filter list"

/-- The members of a composite filter are members of the composite field, of the same kinds. -/
def compareMembers {R : Type} (field : String) (provided : List (MemberAccess R)) :
    List Member → Except CompileError Unit
  | [] => .ok ()
  | member :: rest =>
    match memberAccess? provided member.name with
    | none =>
      .error (.schemaMismatch (field ++ "." ++ member.name) member.type.name "nothing")
    | some found =>
      if member.type.compatible found.type then compareMembers field provided rest
      else
        .error (.schemaMismatch (field ++ "." ++ member.name) member.type.name found.type.name)

/-- A value type of a filter fits that of a record. -/
def compareTypes (field : String) (declared found : ValueType) :
    Except CompileError (Option (ι × κ)) :=
  if declared.compatible found then .ok none
  else .error (.schemaMismatch field declared.name found.name)

/-- What a field of a filter demands of a field of a record: nothing more, or the agreement of the
shape and the record type that are embedded in the two. -/
def compareAccess {R : Type} (field : FieldShape ι) (access : Access κ C R) :
    Except CompileError (Option (ι × κ)) :=
  match field.role, access with
  | .scalar _, _ => .ok none
  | .leaf (.primitive declared), .value found _ => compareTypes field.name declared found
  | .leaf (.primitive declared), .values found _ => compareTypes field.name declared found
  | .leaf (.composite declared), .composite _ members =>
    (compareMembers field.name members declared.members).map fun _ => none
  | .nested shape, .nested target _ => .ok (some (shape, target))
  | .list shape, .list target _ => .ok (some (shape, target))
  | role, access => .error (.schemaMismatch field.name role.describe access.describe)

/-- What a field of a filter demands of a record type; a field that the records lack demands
nothing. -/
def compareField {R : Type} (field : FieldShape ι) (type : RecordType κ C R) :
    Except CompileError (Option (ι × κ)) :=
  match type.field? field.name with
  | none => .ok none
  | some found => compareAccess field found.access

section Finite

variable {n k : Nat} {D : Fin k → Type}

/-- Every pair of a shape and a record type. -/
def allPairs (n k : Nat) : List (Fin n × Fin k) :=
  (List.finRange n).flatMap fun i => (List.finRange k).map fun j => (i, j)

theorem mem_allPairs (pair : Fin n × Fin k) : pair ∈ allPairs n k := by
  simp only [allPairs, List.mem_flatMap, List.mem_map, List.mem_finRange, true_and]
  exact ⟨pair.1, pair.2, rfl⟩

/-- The pairs that were not met yet. -/
def unmet (met : List (Fin n × Fin k)) : List (Fin n × Fin k) :=
  (allPairs n k).filter fun pair => !met.contains pair

theorem length_unmet_cons_lt {met : List (Fin n × Fin k)} {pair : Fin n × Fin k}
    (h : pair ∉ met) : (unmet (pair :: met)).length < (unmet met).length := by
  have key : ∀ l : List (Fin n × Fin k), pair ∈ l →
      (l.filter fun p => !(pair :: met).contains p).length <
        (l.filter fun p => !met.contains p).length := by
    intro l
    induction l with
    | nil => intro hmem; cases hmem
    | cons p rest ih =>
      intro hmem
      have hle : (rest.filter fun p => !(pair :: met).contains p).length ≤
          (rest.filter fun p => !met.contains p).length := by
        simp only [← List.countP_eq_length_filter]
        refine List.countP_mono_left fun q _ hq => ?_
        simp only [List.contains_cons, Bool.not_or, Bool.and_eq_true] at hq
        exact hq.2
      by_cases hp : p = pair
      · subst hp
        simp only [List.filter_cons, List.contains_cons, beq_self_eq_true, Bool.true_or,
          Bool.not_true, Bool.false_eq_true, if_false]
        rw [if_pos (by simpa using h)]
        simp only [List.length_cons]
        simp only [List.contains_cons] at hle
        omega
      · have ih := ih ((List.mem_cons.1 hmem).resolve_left (Ne.symm hp))
        by_cases hm : p ∈ met
        · simp [hm] at ih ⊢
          exact ih
        · simp [hm, hp] at ih ⊢
          exact ih
  exact key _ (mem_allPairs pair)

/-- Compares fields with record types one after another, entering pairs that were not met yet. -/
def agreeFrom (shapes : Fin n → Shape (Fin n)) (types : RecordTypes (Fin k) D)
    (met : List (Fin n × Fin k)) :
    List (FieldShape (Fin n) × Fin k) → Except CompileError Unit
  | [] => .ok ()
  | (field, target) :: waiting =>
    match compareField field (types target) with
    | .error e => .error e
    | .ok none => agreeFrom shapes types met waiting
    | .ok (some pair) =>
      if _new : pair ∈ met then agreeFrom shapes types met waiting
      else
        agreeFrom shapes types (pair :: met)
          ((shapes pair.1).fields.map (fun f => (f, pair.2)) ++ waiting)
  termination_by waiting => ((unmet met).length, waiting.length)
  decreasing_by
    · exact Prod.Lex.right _ (by simp)
    · exact Prod.Lex.right _ (by simp)
    · exact Prod.Lex.left _ _ (length_unmet_cons_lt _new)

/-- Whether a shape and a record type agree, and so do all pairs that are embedded in them. -/
def agree (shapes : Fin n → Shape (Fin n)) (types : RecordTypes (Fin k) D) (shape : Fin n)
    (target : Fin k) : Except CompileError Unit :=
  agreeFrom shapes types [(shape, target)] ((shapes shape).fields.map fun f => (f, target))

end Finite

end BracketFilter
