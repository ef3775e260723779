import BracketFilter.Proofs.Answers
import BracketFilter.Proofs.BindingFailure

/-!
# Calls on a leaf

A leaf is made by calls that each ask for one operation.

* `Call` — what is asked for; `Call.outcome` — what the caller is told; `Leaf.after` — the leaf that
  the call leaves behind.
* `LeafType.Offers`, `LeafType.Misfits` — a member fits the type of a leaf, and what is then tested,
  or it does not.
* `Call.FailsWith` — what is wrong with a call, each reason apart from the others.

Principal result: `apply_all_or_nothing` — a call appends one operation, or it leaves the leaf as it
was; it is told exactly when it drops what is asked for and when, and with what, it fails.
-/

set_option autoImplicit false

namespace BracketFilter

open BracketFilter.Text

/-- What one call on a leaf asks for, and where. -/
structure Call where
  site : Site
  member : Option String
  operation : Operation
  raw : String

/-- What a caller is told: whether an operation was appended, or an error. -/
def Call.outcome (call : Call) (leaf : Leaf) : Except BindError Bool :=
  (leaf.apply call.site call.member call.operation call.raw).1

/-- The leaf that a call leaves behind. -/
def Leaf.after (leaf : Leaf) (call : Call) : Leaf :=
  (leaf.apply call.site call.member call.operation call.raw).2

/-! ## Members -/

/-- What an operation on a leaf tests: a primitive itself if no member is named, and the first
member with the name, in any ASCII case, of a composite. -/
inductive LeafType.Offers : LeafType → Option String → ValueType → Prop
  | primitive {type : ValueType} : Offers (.primitive type) none type
  | member {composite : Composite} {name : String} {m : Member} {before after : List Member}
      (declared : composite.members = before ++ m :: after) (named : sameName m.name name = true)
      (first : ∀ other ∈ before, sameName other.name name = false) :
      Offers (.composite composite) (some name) m.type

/-- A member does not fit a leaf: it is named on a primitive, missing on a composite, or unknown. -/
inductive LeafType.Misfits : LeafType → Option String → Prop
  | named {type : ValueType} {name : String} : Misfits (.primitive type) (some name)
  | missing {composite : Composite} : Misfits (.composite composite) none
  | unknown {composite : Composite} {name : String}
      (unknown : ∀ m ∈ composite.members, sameName m.name name = false) :
      Misfits (.composite composite) (some name)

theorem Leaf.operandType?_eq_some_iff {type : LeafType} {member : Option String}
    {operand : ValueType} :
    operandType? type member = some operand ↔ type.Offers member operand := by
  constructor
  · intro h
    cases type with
    | primitive declared =>
      cases member with
      | none =>
        cases h
        exact .primitive
      | some name => cases h
    | composite composite =>
      cases member with
      | none => cases h
      | some name =>
        obtain ⟨m, hfound, rfl⟩ := Option.map_eq_some_iff.1 h
        obtain ⟨hnamed, before, after, hdeclared, hfirst⟩ := List.find?_eq_some_iff_append.1 hfound
        exact .member hdeclared hnamed fun other hother => by simpa using hfirst other hother
  · intro h
    cases h with
    | primitive => rfl
    | member declared named first =>
      refine Option.map_eq_some_iff.2 ⟨_, List.find?_eq_some_iff_append.2 ?_, rfl⟩
      exact ⟨named, _, _, declared, fun other hother => by simpa using first other hother⟩

theorem Leaf.operandType?_eq_none_iff {type : LeafType} {member : Option String} :
    operandType? type member = none ↔ type.Misfits member := by
  constructor
  · intro h
    cases type with
    | primitive declared =>
      cases member with
      | none => cases h
      | some name => exact .named
    | composite composite =>
      cases member with
      | none => exact .missing
      | some name =>
        refine .unknown fun m hm => ?_
        simpa using List.find?_eq_none.1 (Option.map_eq_none_iff.1 h) m hm
  · intro h
    cases h with
    | named => rfl
    | missing => rfl
    | unknown unknown =>
      refine Option.map_eq_none_iff.2 (List.find?_eq_none.2 fun m hm => ?_)
      simp [unknown m hm]

/-! ## What is wrong with a call -/

/-- What is wrong with a call that tests values of a kind: a text operation on another kind than
strings, an operand of a comparison that is refused, a list with too many tokens, whatever they are
read as, and otherwise the first token that is refused. -/
inductive Call.FailsWith (call : Call) (kind : Kind) : BindError → Prop
  | text (family : call.operation.family = .text) (other : kind ≠ .string) :
      FailsWith call kind
        (.unsupportedOperation (call.site.target call.member) call.operation kind)
  | comparison {source : CoercionError} (family : call.operation.family = .comparison)
      (refused : call.site.coercer call.raw kind = .error source) :
      FailsWith call kind (.coercion (call.site.target call.member) source)
  | tooMany (family : call.operation.family = .membership)
      (many : call.site.maxInValues < (Leaf.tokens call.raw).length) :
      FailsWith call kind
        (call.site.tooManyValues call.member call.operation (Leaf.tokens call.raw).length)
  | token {before after : List String} {token : String} {source : CoercionError}
      (family : call.operation.family = .membership)
      (few : (Leaf.tokens call.raw).length ≤ call.site.maxInValues)
      (listed : Leaf.tokens call.raw = before ++ token :: after)
      (taken : ∀ earlier ∈ before, ∃ value, call.site.coercer earlier kind = .ok value)
      (refused : call.site.coercer token kind = .error source) :
      FailsWith call kind (.coercion (call.site.target call.member) source)

theorem Site.coerce_error_iff {site : Site} {member : Option String} {kind : Kind} {raw : String}
    {e : BindError} :
    site.coerce member kind raw = .error e ↔ ∃ source, site.coercer raw kind = .error source ∧
      e = .coercion (site.target member) source := by
  unfold Site.coerce
  cases site.coercer raw kind <;> simp [eq_comm]

/-- **A raw value is not read exactly for one of the reasons.** -/
theorem Leaf.read_error_iff {call : Call} {kind : Kind} {e : BindError} :
    read call.site call.member kind call.operation call.raw = .error e ↔
      call.FailsWith kind e := by
  constructor
  · intro h
    cases hfamily : call.operation.family with
    | comparison =>
      rw [read_comparison hfamily, map_error_iff, Site.coerce_error_iff] at h
      obtain ⟨source, hrefused, rfl⟩ := h
      exact .comparison hfamily hrefused
    | text =>
      simp only [read, hfamily, Kind.isText, beq_iff_eq] at h
      split at h
      · cases h
      · rename_i hother
        cases h
        exact .text hfamily hother
    | membership =>
      -- The tokens are counted before any of them is read.
      by_cases hmany : call.site.maxInValues < (tokens call.raw).length
      · simp only [read, hfamily, if_pos hmany] at h
        cases h
        exact .tooMany hfamily hmany
      · rw [read_membership hfamily hmany, map_error_iff, mapM_error_iff] at h
        simp only [Site.coerce_error_iff, Site.coerce_ok_iff] at h
        obtain ⟨before, token, after, hlisted, ⟨source, hrefused, rfl⟩, htaken⟩ := h
        exact .token hfamily (Nat.le_of_not_lt hmany) hlisted htaken hrefused
  · intro h
    cases h with
    | text family other =>
      have hkind : kind.isText = false := by simpa [Kind.isText] using other
      simp [read, family, hkind]
    | comparison family refused =>
      rw [read_comparison family, map_error_iff, Site.coerce_error_iff]
      exact ⟨_, refused, rfl⟩
    | tooMany family many => simp only [read, family, if_pos many]
    | token family few listed taken refused =>
      rw [read_membership family (Nat.not_lt.2 few), map_error_iff, mapM_error_iff]
      simp only [Site.coerce_error_iff, Site.coerce_ok_iff]
      exact ⟨_, _, _, listed, ⟨_, refused, rfl⟩, taken⟩

/-! ## Calls -/

theorem Leaf.extend_answer (leaf : Leaf) (asked : Except BindError (Option Applied)) :
    (leaf.extend asked).1 = asked.map Option.isSome := by
  rcases asked with e | _ | applied <;> rfl

theorem Leaf.apply_of_misfits {leaf : Leaf} {call : Call}
    (misfits : leaf.type.Misfits call.member) :
    leaf.apply call.site call.member call.operation call.raw = (.ok false, leaf) := by
  simp only [apply, operandType?_eq_none_iff.2 misfits]

theorem Leaf.apply_of_offers {leaf : Leaf} {call : Call} {operand : ValueType}
    (offers : leaf.type.Offers call.member operand) :
    leaf.apply call.site call.member call.operation call.raw =
      leaf.extend (read call.site call.member operand.kind call.operation call.raw) := by
  simp only [apply, operandType?_eq_some_iff.2 offers]

theorem LeafType.offers_or_misfits (type : LeafType) (member : Option String) :
    (∃ operand, type.Offers member operand) ∨ type.Misfits member := by
  cases hoperand : Leaf.operandType? type member with
  | none => exact .inr (Leaf.operandType?_eq_none_iff.1 hoperand)
  | some operand => exact .inl ⟨operand, Leaf.operandType?_eq_some_iff.1 hoperand⟩

theorem LeafType.Offers.unique {type : LeafType} {member : Option String}
    {operand operand' : ValueType} (h : type.Offers member operand)
    (h' : type.Offers member operand') : operand = operand' :=
  Option.some.inj ((Leaf.operandType?_eq_some_iff.2 h).symm.trans
    (Leaf.operandType?_eq_some_iff.2 h'))

theorem LeafType.Offers.not_misfits {type : LeafType} {member : Option String}
    {operand : ValueType} (h : type.Offers member operand) : ¬ type.Misfits member := by
  intro hmisfits
  cases (Leaf.operandType?_eq_some_iff.2 h).symm.trans (Leaf.operandType?_eq_none_iff.2 hmisfits)

/-- A list without tokens, and no other value, is read as nothing. -/
theorem Leaf.read_none_iff {site : Site} {member : Option String} {kind : Kind} {op : Operation}
    {raw : String} :
    read site member kind op raw = .ok none ↔
      op.family = .membership ∧ ∀ c ∈ raw.toList, c = ',' ∨ c = ' ' := by
  rw [← tokens_eq_nil_iff]
  constructor
  · intro h
    rcases read_ok_cases h with ⟨_, hsome, -⟩ | ⟨-, hfamily, hnil⟩
    · cases hsome
    · exact ⟨hfamily, hnil⟩
  · rintro ⟨hfamily, hnil⟩
    simp [read, hfamily, hnil]

/-- A call appends what its value asks for, or it leaves the leaf as it was. -/
theorem Leaf.after_cases (leaf : Leaf) (call : Call) :
    (call.outcome leaf = .ok true ∧ ∃ operand applied, leaf.type.Offers call.member operand ∧
        Answers call.site.coercer (.operation call.member operand.kind call.operation) call.raw
          (.operation applied) ∧
        leaf.after call = ⟨leaf.type, leaf.operations ++ [applied]⟩) ∨
      (call.outcome leaf = .ok false ∨ ∃ e, call.outcome leaf = .error e) ∧
        leaf.after call = leaf := by
  unfold Call.outcome after
  rcases leaf.type.offers_or_misfits call.member with ⟨operand, hoffers⟩ | hmisfits
  · rw [apply_of_offers hoffers]
    cases hread : read call.site call.member operand.kind call.operation call.raw with
    | error e => exact .inr ⟨.inr ⟨e, rfl⟩, rfl⟩
    | ok answer =>
      rcases read_ok_cases hread with ⟨applied, rfl, hasks⟩ | ⟨rfl, -, -⟩
      · exact .inl ⟨rfl, operand, applied, hoffers, hasks, rfl⟩
      · exact .inr ⟨.inl rfl, rfl⟩
  · rw [apply_of_misfits hmisfits]
    exact .inr ⟨.inl rfl, rfl⟩

theorem Call.outcome_false_iff {call : Call} {leaf : Leaf} :
    call.outcome leaf = .ok false ↔ leaf.type.Misfits call.member ∨
      call.operation.family = .membership ∧ ∀ c ∈ call.raw.toList, c = ',' ∨ c = ' ' := by
  unfold outcome
  rcases leaf.type.offers_or_misfits call.member with ⟨operand, hoffers⟩ | hmisfits
  · have hnone : call.operation.family = .membership ∧
          (∀ c ∈ call.raw.toList, c = ',' ∨ c = ' ') ↔
        Leaf.read call.site call.member operand.kind call.operation call.raw = .ok none :=
      Leaf.read_none_iff.symm
    rw [Leaf.apply_of_offers hoffers, Leaf.extend_answer, hnone]
    simp only [hoffers.not_misfits, false_or]
    rcases Leaf.read call.site call.member operand.kind call.operation call.raw
      with e | _ | applied <;> simp [Except.map]
  · rw [Leaf.apply_of_misfits hmisfits]
    exact ⟨fun _ => .inl hmisfits, fun _ => rfl⟩

theorem Call.outcome_error_iff {call : Call} {leaf : Leaf} {e : BindError} :
    call.outcome leaf = .error e ↔
      ∃ operand, leaf.type.Offers call.member operand ∧ call.FailsWith operand.kind e := by
  unfold outcome
  rcases leaf.type.offers_or_misfits call.member with ⟨operand, hoffers⟩ | hmisfits
  · rw [Leaf.apply_of_offers hoffers, Leaf.extend_answer, map_error_iff, Leaf.read_error_iff]
    constructor
    · intro hfails
      exact ⟨operand, hoffers, hfails⟩
    · rintro ⟨_, hoffers', hfails⟩
      cases hoffers.unique hoffers'
      exact hfails
  · rw [Leaf.apply_of_misfits hmisfits]
    constructor
    · intro h
      cases h
    · rintro ⟨operand, hoffers, -⟩
      exact absurd hmisfits hoffers.not_misfits

/-- **A call does all that it asks for or nothing.** It appends one operation behind the others, the
one that its value asks for, or it leaves the leaf as it was. It drops what it asks for exactly if
the member does not fit the leaf, or nothing is listed for a membership operation, whatever the
member is; and of the other calls those fail that ask for text in another kind than strings, for a
comparison with a value that is refused, for too many values, or for values of which one is refused,
with the first of these. -/
theorem apply_all_or_nothing (leaf : Leaf) (call : Call) :
    ((call.outcome leaf = .ok true ∧ ∃ operand applied, leaf.type.Offers call.member operand ∧
          Answers call.site.coercer (.operation call.member operand.kind call.operation) call.raw
            (.operation applied) ∧
          leaf.after call = ⟨leaf.type, leaf.operations ++ [applied]⟩) ∨
        (call.outcome leaf = .ok false ∨ ∃ e, call.outcome leaf = .error e) ∧
          leaf.after call = leaf) ∧
      (call.outcome leaf = .ok false ↔ leaf.type.Misfits call.member ∨
        call.operation.family = .membership ∧ ∀ c ∈ call.raw.toList, c = ',' ∨ c = ' ') ∧
      ∀ e, call.outcome leaf = .error e ↔
        ∃ operand, leaf.type.Offers call.member operand ∧ call.FailsWith operand.kind e := by
  refine ⟨?_, ?_, fun e => ?_⟩
  · exact leaf.after_cases call
  · exact Call.outcome_false_iff
  · exact Call.outcome_error_iff

end BracketFilter
