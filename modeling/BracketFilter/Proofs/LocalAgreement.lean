import BracketFilter.Proofs.AgreementSound
import BracketFilter.Proofs.FirstFault

/-!
# Local agreement

What a field of a filter and a field of a record have to do with one another, said without the
comparison.

* `Role.Meets` — a role and what a field is read as are of one form.
* `Clash` — what is wrong between the two, with its place: kinds that differ, a member that is
  missing or of another kind, or forms that do not meet.
* `Embeds` — a pair of a shape and a record type embeds another, by a filter on an embedded record
  or by filters on a list, each on both sides.
* `LocallyAgrees` — each field of a shape that the records have fits.

Principal results: `reports_compareField` — a comparison reports the first clash;
`compareField_ok_iff` — and otherwise gives what the fitting field demands; `locallyAgrees_iff` — a
pair agrees locally exactly if no field of it clashes.
-/

set_option autoImplicit false

namespace BracketFilter

open BracketFilter.Text

variable {ι κ : Type} {C : κ → Type} {R : Type}

/-! ## Clashes -/

/-- A role and what a field of a record is read as are of one form, whatever the kinds. -/
inductive Role.Meets : Role ι → Access κ C R → Prop
  | scalar {type : ValueType} {access : Access κ C R} : Meets (.scalar type) access
  | value {declared found : ValueType} {read : R → Value} :
      Meets (.leaf (.primitive declared)) (.value found read)
  | values {declared found : ValueType} {read : R → List Value} :
      Meets (.leaf (.primitive declared)) (.values found read)
  | composite {declared : Composite} {name : String} {members : List (MemberAccess R)} :
      Meets (.leaf (.composite declared)) (.composite name members)
  | nested {shape : ι} {target : κ} {read : R → Option (C target)} :
      Meets (.nested shape) (.nested target read)
  | list {shape : ι} {target : κ} {read : R → List (C target)} :
      Meets (.list shape) (.list target read)

/-- What is wrong with a member that the composite field of a filter declares. -/
inductive MemberClash (field : String) (provided : List (MemberAccess R)) (member : Member) :
    CompileError → Prop
  | missing (lacking : memberAccess? provided member.name = none) :
      MemberClash field provided member
        (.schemaMismatch (field ++ "." ++ member.name) member.type.name "nothing")
  | kind {found : MemberAccess R} (has : memberAccess? provided member.name = some found)
      (differs : member.type.kind ≠ found.type.kind) :
      MemberClash field provided member
        (.schemaMismatch (field ++ "." ++ member.name) member.type.name found.type.name)

/-- What is wrong between the role of a field of a filter and what a field of a record is read as.
The place of a member is its position among the declared members. -/
inductive Clash (field : String) : Role ι → Access κ C R → List Nat → CompileError → Prop
  | value {declared found : ValueType} {read : R → Value}
      (differs : declared.kind ≠ found.kind) :
      Clash field (.leaf (.primitive declared)) (.value found read) []
        (.schemaMismatch field declared.name found.name)
  | values {declared found : ValueType} {read : R → List Value}
      (differs : declared.kind ≠ found.kind) :
      Clash field (.leaf (.primitive declared)) (.values found read) []
        (.schemaMismatch field declared.name found.name)
  | member {declared : Composite} {name : String} {members : List (MemberAccess R)} {i : Nat}
      {m : Member} {e : CompileError} (declares : declared.members[i]? = some m)
      (clash : MemberClash field members m e) :
      Clash field (.leaf (.composite declared)) (.composite name members) [i] e
  | form {role : Role ι} {access : Access κ C R} (apart : ¬ role.Meets access) :
      Clash field role access [] (.schemaMismatch field role.describe access.describe)

/-! ## Members -/

/-- A member of a composite field of a filter is compared with those of the field of a record. -/
def compareMember (field : String) (provided : List (MemberAccess R)) (member : Member) :
    Except CompileError Unit :=
  match memberAccess? provided member.name with
  | none => .error (.schemaMismatch (field ++ "." ++ member.name) member.type.name "nothing")
  | some found =>
    if member.type.compatible found.type then .ok ()
    else .error (.schemaMismatch (field ++ "." ++ member.name) member.type.name found.type.name)

theorem compareMembers_eq (field : String) (provided : List (MemberAccess R))
    (declared : List Member) :
    compareMembers field provided declared =
      (declared.mapM (compareMember field provided)).map fun _ => () := by
  induction declared with
  | nil => rfl
  | cons member rest ih =>
    rw [compareMembers, mapM_cons_eq, compareMember]
    cases memberAccess? provided member.name with
    | none => rfl
    | some found =>
      simp only
      split
      · rw [ih]
        cases rest.mapM (compareMember field provided) <;> rfl
      · rfl

theorem reports_compareMember (field : String) (provided : List (MemberAccess R))
    (member : Member) :
    Reports (fun place e => place = [] ∧ MemberClash field provided member e)
      (compareMember field provided member) := by
  unfold compareMember
  cases hfound : memberAccess? provided member.name with
  | none =>
    refine .error ⟨rfl, .missing hfound⟩ ?_
    rintro _ e ⟨rfl, _ | ⟨has, -⟩⟩
    · exact .inr ⟨rfl, rfl⟩
    · cases hfound.symm.trans has
  | some found =>
    simp only [ValueType.compatible, beq_iff_eq]
    split
    · rename_i hkind
      refine .ok ?_
      rintro _ e ⟨-, lacking | ⟨has, differs⟩⟩
      · cases hfound.symm.trans lacking
      · cases hfound.symm.trans has
        exact differs hkind
    · rename_i hkind
      refine .error ⟨rfl, .kind hfound hkind⟩ ?_
      rintro _ e ⟨rfl, lacking | ⟨has, -⟩⟩
      · cases hfound.symm.trans lacking
      · cases hfound.symm.trans has
        exact .inr ⟨rfl, rfl⟩

/-! ## Fields -/

theorem reports_compareTypes (field : String) (declared found : ValueType) :
    Reports (fun place e => place = [] ∧ declared.kind ≠ found.kind ∧
        e = .schemaMismatch field declared.name found.name)
      (compareTypes field declared found : Except CompileError (Option (ι × κ))) := by
  unfold compareTypes
  simp only [ValueType.compatible, beq_iff_eq]
  split
  · rename_i hkind
    exact .ok fun place e h => h.2.1 hkind
  · rename_i hkind
    exact .error ⟨rfl, hkind, rfl⟩ fun place e h => .inr ⟨h.1, h.2.2⟩

/-- **A comparison reports the first clash.** -/
theorem reports_compareAccess (field : FieldShape ι) (access : Access κ C R) :
    Reports (Clash field.name field.role access) (compareAccess field access) := by
  obtain ⟨name, role⟩ := field
  simp only [compareAccess]
  split
  · refine .ok ?_
    rintro place e (_ | _ | _ | apart)
    exact apart .scalar
  · refine (reports_compareTypes name _ _).congr fun place e => ?_
    constructor
    · rintro ⟨rfl, differs, rfl⟩
      exact .value differs
    · rintro (differs | _ | _ | apart)
      · exact ⟨rfl, differs, rfl⟩
      · exact absurd .value apart
  · refine (reports_compareTypes name _ _).congr fun place e => ?_
    constructor
    · rintro ⟨rfl, differs, rfl⟩
      exact .values differs
    · rintro (_ | differs | _ | apart)
      · exact ⟨rfl, differs, rfl⟩
      · exact absurd .values apart
  · rw [compareMembers_eq]
    refine (((Reports.mapM fun i m _ => reports_compareMember name _ m).map _).map _).congr
      fun place e => ?_
    constructor
    · rintro ⟨i, m, _, declares, rfl, rfl, clash⟩
      exact .member declares clash
    · rintro (_ | _ | ⟨declares, clash⟩ | apart)
      · exact ⟨_, _, [], declares, rfl, rfl, clash⟩
      · exact absurd .composite apart
  · refine .ok ?_
    rintro place e (_ | _ | _ | apart)
    exact apart .nested
  · refine .ok ?_
    rintro place e (_ | _ | _ | apart)
    exact apart .list
  · -- No branch was taken, so that the field does not meet the access in any form.
    rename_i hscalar hvalue hvalues hcomposite hnested hlist
    have apart : ¬ role.Meets access := by
      intro hmeets
      cases hmeets with
      | scalar => exact hscalar _ rfl
      | value => exact hvalue _ _ _ rfl rfl
      | values => exact hvalues _ _ _ rfl rfl
      | composite => exact hcomposite _ _ _ rfl rfl
      | nested => exact hnested _ _ _ rfl rfl
      | list => exact hlist _ _ _ rfl rfl
    refine .error (.form apart) ?_
    rintro place e (_ | _ | ⟨-, -⟩ | _)
    · exact absurd .value apart
    · exact absurd .values apart
    · exact absurd .composite apart
    · exact .inr ⟨rfl, rfl⟩

theorem compareMembers_of_fits {field : String} {provided : List (MemberAccess R)}
    {declared : List Member}
    (fits : ∀ m ∈ declared, ∃ found, memberAccess? provided m.name = some found ∧
      m.type.kind = found.type.kind) : compareMembers field provided declared = .ok () := by
  induction declared with
  | nil => rfl
  | cons first rest ih =>
    rw [List.forall_mem_cons] at fits
    obtain ⟨found, hfound, hkind⟩ := fits.1
    simp only [compareMembers, hfound, ValueType.compatible, hkind, beq_self_eq_true, if_true,
      ih fits.2]

theorem compareAccess_ok_iff {field : FieldShape ι} {access : Access κ C R}
    {demand : Option (ι × κ)} :
    compareAccess field access = .ok demand ↔ AccessFits field.role access demand := by
  refine ⟨accessFits_of_compareAccess, fun h => ?_⟩
  obtain ⟨name, role⟩ := field
  cases h with
  | scalar => rfl
  | value fits => simp [compareAccess, compareTypes, ValueType.compatible, fits]
  | values fits => simp [compareAccess, compareTypes, ValueType.compatible, fits]
  | composite fits =>
    simp only [compareAccess, compareMembers_of_fits fits]
    rfl
  | nested => rfl
  | list => rfl

/-! ## Pairs of shapes and record types -/

/-- A field of a filter clashes with the field of the records that has its name. -/
def FieldClash (types : RecordTypes κ C) (field : FieldShape ι) (k : κ) (place : List Nat)
    (e : CompileError) : Prop :=
  ∃ found, (types k).field? field.name = some found ∧
    Clash field.name field.role found.access place e

/-- A field of a filter and the field of the records that has its name embed a pair. -/
def FieldEmbeds (types : RecordTypes κ C) (field : FieldShape ι) (k : κ) (pair : ι × κ) : Prop :=
  ∃ found, (types k).field? field.name = some found ∧
    AccessFits field.role found.access (some pair)

/-- A pair embeds another by some field. -/
def Embeds (shapes : ι → Shape ι) (types : RecordTypes κ C) (pair pair' : ι × κ) : Prop :=
  ∃ field ∈ (shapes pair.1).fields, FieldEmbeds types field pair.2 pair'

/-- Each field of the shape that the records have fits. -/
def LocallyAgrees (shapes : ι → Shape ι) (types : RecordTypes κ C) (pair : ι × κ) : Prop :=
  ∀ field ∈ (shapes pair.1).fields, ∀ found, (types pair.2).field? field.name = some found →
    ∃ demand, AccessFits field.role found.access demand

section Fields

variable {shapes : ι → Shape ι} {types : RecordTypes κ C} {field : FieldShape ι} {k : κ}

/-- **A field reports the first clash with the records.** -/
theorem reports_compareField :
    Reports (FieldClash types field k) (compareField field (types k)) := by
  unfold compareField
  cases hfound : (types k).field? field.name with
  | none =>
    refine .ok ?_
    rintro place e ⟨found, has, -⟩
    cases hfound.symm.trans has
  | some found =>
    refine (reports_compareAccess field found.access).congr fun place e => ?_
    simp [FieldClash, hfound]

theorem compareField_some_iff {pair : ι × κ} :
    compareField field (types k) = .ok (some pair) ↔ FieldEmbeds types field k pair := by
  unfold compareField FieldEmbeds
  cases (types k).field? field.name with
  | none => simp
  | some found => simp [compareAccess_ok_iff]

theorem FieldEmbeds.unique {pair pair' : ι × κ} (h : FieldEmbeds types field k pair)
    (h' : FieldEmbeds types field k pair') : pair' = pair := by
  rw [← compareField_some_iff] at h h'
  cases h.symm.trans h'
  rfl

theorem not_fieldClash_of_ok {demand : Option (ι × κ)}
    (h : compareField field (types k) = .ok demand) (place : List Nat) (e : CompileError) :
    ¬ FieldClash types field k place e :=
  reports_compareField.succeeds_iff.1 ⟨demand, h⟩ place e

/-- A pair agrees locally exactly if no field of it clashes. -/
theorem locallyAgrees_iff {pair : ι × κ} :
    LocallyAgrees shapes types pair ↔
      ∀ field ∈ (shapes pair.1).fields, ∀ place e, ¬ FieldClash types field pair.2 place e := by
  refine forall_congr' fun field => forall_congr' fun _ => ?_
  have hfits (found : RecordField κ C (C pair.2)) :
      (∃ demand, AccessFits field.role found.access demand) ↔
        ∀ place e, ¬ Clash field.name field.role found.access place e := by
    simp only [← compareAccess_ok_iff, (reports_compareAccess field found.access).succeeds_iff]
  simp only [hfits]
  constructor
  · rintro h place e ⟨found, has, clash⟩
    exact h found has place e clash
  · intro h found has place e clash
    exact h place e ⟨found, has, clash⟩

end Fields

end BracketFilter
