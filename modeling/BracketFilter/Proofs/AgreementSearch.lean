import BracketFilter.Proofs.LocalAgreement
import Mathlib.Algebra.BigOperators.Fin
import Mathlib.Logic.Relation

/-!
# The search for disagreement

The search for a disagreement of a shape and a record type remembers the pairs that it met, so it
enters each pair once, from the first walk that comes to it. That it misses nothing, and meets the
first disagreement first, is said here without its memory.

* `Disagreement` — a clash on a walk from a pair that never comes back to a pair which it passed.
  Its place lists the positions of the fields on the walk, and then the place of the clash in the
  last of them.
* `Pending` — a field that waits, with the walk to it; `Frontier` — the invariant of the search.
* `Searches` — a search that compares so many fields.

Principal results: `Frontier.not_disagreement_of_known` — there is no disagreement behind a pair
that was met and is not on the walk; `reports_agreeFrom` — the search reports the first disagreement
of the fields that wait; `agree_decides` — agreement is decided, in no more steps than the pairs
have fields.
-/

set_option autoImplicit false

namespace BracketFilter

open BracketFilter.Text

/-! ## Disagreements -/

section Disagreements

variable {ι κ : Type} {C : κ → Type} (shapes : ι → Shape ι) (types : RecordTypes κ C)

/-- A clash on a walk from a pair that comes back neither to a pair which it passed nor to one of
`passed`. -/
inductive Disagreement : List (ι × κ) → ι × κ → List Nat → CompileError → Prop
  | clash {passed : List (ι × κ)} {pair : ι × κ} {i : Nat} {field : FieldShape ι}
      {place : List Nat} {e : CompileError} (declares : (shapes pair.1).fields[i]? = some field)
      (clash : FieldClash types field pair.2 place e) : Disagreement passed pair (i :: place) e
  | through {passed : List (ι × κ)} {pair inner : ι × κ} {i : Nat} {field : FieldShape ι}
      {place : List Nat} {e : CompileError} (declares : (shapes pair.1).fields[i]? = some field)
      (embeds : FieldEmbeds types field pair.2 inner) (fresh : inner ∉ passed)
      (behind : Disagreement (inner :: passed) inner place e) :
      Disagreement passed pair (i :: place) e

/-- A clash at a field or behind it. -/
def FieldDisagreement (passed : List (ι × κ)) (field : FieldShape ι) (k : κ) (place : List Nat)
    (e : CompileError) : Prop :=
  FieldClash types field k place e ∨ ∃ inner, FieldEmbeds types field k inner ∧ inner ∉ passed ∧
    Disagreement shapes types (inner :: passed) inner place e

variable {shapes types}

theorem disagreement_iff {passed : List (ι × κ)} {pair : ι × κ} {place : List Nat}
    {e : CompileError} : Disagreement shapes types passed pair place e ↔
      ∃ (i : Nat) (field : FieldShape ι) (rest : List Nat),
        (shapes pair.1).fields[i]? = some field ∧ place = i :: rest ∧
          FieldDisagreement shapes types passed field pair.2 rest e := by
  constructor
  · rintro (⟨declares, clash⟩ | ⟨declares, embeds, fresh, behind⟩)
    · exact ⟨_, _, _, declares, rfl, .inl clash⟩
    · exact ⟨_, _, _, declares, rfl, .inr ⟨_, embeds, fresh, behind⟩⟩
  · rintro ⟨i, field, rest, declares, rfl, clash | ⟨inner, embeds, fresh, behind⟩⟩
    · exact .clash declares clash
    · exact .through declares embeds fresh behind

/-- Where there is a disagreement, a pair can be reached that does not agree locally. -/
theorem exists_reachable_of_disagreement {passed : List (ι × κ)} {pair : ι × κ} {place : List Nat}
    {e : CompileError} (h : Disagreement shapes types passed pair place e) :
    ∃ inner, Relation.ReflTransGen (Embeds shapes types) pair inner ∧
      ¬ LocallyAgrees shapes types inner := by
  induction h with
  | @clash _ pair _ field place e declares clash =>
    refine ⟨pair, .refl, fun hagrees => ?_⟩
    exact locallyAgrees_iff.1 hagrees field (List.mem_of_getElem? declares) place e clash
  | through declares embeds fresh behind ih =>
    obtain ⟨inner, hreach, hdisagrees⟩ := ih
    exact ⟨inner, .head ⟨_, List.mem_of_getElem? declares, embeds⟩ hreach, hdisagrees⟩

theorem not_fieldDisagreement_of_none {passed : List (ι × κ)} {field : FieldShape ι} {k : κ}
    (h : compareField field (types k) = .ok none) (place : List Nat) (e : CompileError) :
    ¬ FieldDisagreement shapes types passed field k place e := by
  rintro (clash | ⟨inner, embeds, -, -⟩)
  · exact not_fieldClash_of_ok h place e clash
  · rw [← compareField_some_iff, h] at embeds
    cases embeds

/-- The disagreements at a field that demands a pair lie behind that pair. -/
theorem fieldDisagreement_iff_of_some {passed : List (ι × κ)} {field : FieldShape ι} {k : κ}
    {pair : ι × κ} (h : compareField field (types k) = .ok (some pair)) {place : List Nat}
    {e : CompileError} : FieldDisagreement shapes types passed field k place e ↔
      pair ∉ passed ∧ Disagreement shapes types (pair :: passed) pair place e := by
  constructor
  · rintro (clash | ⟨inner, embeds, fresh, behind⟩)
    · exact absurd clash (not_fieldClash_of_ok h place e)
    · obtain rfl := (compareField_some_iff.1 h).unique embeds
      exact ⟨fresh, behind⟩
  · rintro ⟨fresh, behind⟩
    exact .inr ⟨pair, compareField_some_iff.1 h, fresh, behind⟩

end Disagreements

/-! ## The frontier of a search -/

/-- A field that waits: the pair that it belongs to, the pairs that the walk to it passed, with that
pair first, and its place. -/
structure Pending (ι κ : Type) where
  field : FieldShape ι
  owner : ι × κ
  passed : List (ι × κ)
  place : List Nat

namespace Pending

variable {ι κ : Type} {C : κ → Type}

/-- The field and the record type that are compared. -/
def compared (x : Pending ι κ) : FieldShape ι × κ := (x.field, x.owner.2)

/-- The fields of a pair at the end of a walk. -/
def ofPair (shapes : ι → Shape ι) (passed : List (ι × κ)) (place : List Nat) (pair : ι × κ) :
    List (Pending ι κ) :=
  (shapes pair.1).fields.mapIdx fun i field => ⟨field, pair, pair :: passed, place ++ [i]⟩

/-- A disagreement at one of the fields that wait. -/
def Disagrees (shapes : ι → Shape ι) (types : RecordTypes κ C) (pending : List (Pending ι κ))
    (place : List Nat) (e : CompileError) : Prop :=
  ∃ x ∈ pending, ∃ rest, place = x.place ++ rest ∧
    FieldDisagreement shapes types x.passed x.field x.owner.2 rest e

variable {shapes : ι → Shape ι} {types : RecordTypes κ C}

theorem disagrees_cons_iff {x : Pending ι κ} {pending : List (Pending ι κ)} {place : List Nat}
    {e : CompileError} : Disagrees shapes types (x :: pending) place e ↔
      (∃ rest, place = x.place ++ rest ∧
          FieldDisagreement shapes types x.passed x.field x.owner.2 rest e) ∨
        Disagrees shapes types pending place e := by
  simp only [Disagrees, List.mem_cons, exists_eq_or_imp]

theorem disagrees_append_iff {front pending : List (Pending ι κ)} {place : List Nat}
    {e : CompileError} : Disagrees shapes types (front ++ pending) place e ↔
      Disagrees shapes types front place e ∨ Disagrees shapes types pending place e := by
  simp only [Disagrees, List.mem_append, or_and_right, exists_or]

theorem mem_ofPair_iff {passed : List (ι × κ)} {place : List Nat} {pair : ι × κ}
    {x : Pending ι κ} : x ∈ ofPair shapes passed place pair ↔
      ∃ (i : Nat) (field : FieldShape ι), (shapes pair.1).fields[i]? = some field ∧
        x = ⟨field, pair, pair :: passed, place ++ [i]⟩ := by
  simp only [ofPair, List.mem_mapIdx, List.getElem?_eq_some_iff]
  constructor
  · rintro ⟨i, h, rfl⟩
    exact ⟨i, _, ⟨h, rfl⟩, rfl⟩
  · rintro ⟨i, _, ⟨h, rfl⟩, rfl⟩
    exact ⟨i, h, rfl⟩

/-- The fields of a pair belong to it, and the walk to them passed it last. -/
theorem owner_passed_of_mem_ofPair {passed : List (ι × κ)} {place : List Nat} {pair : ι × κ}
    {x : Pending ι κ} (h : x ∈ ofPair shapes passed place pair) :
    x.owner = pair ∧ x.passed = pair :: passed := by
  obtain ⟨i, field, -, rfl⟩ := mem_ofPair_iff.1 h
  exact ⟨rfl, rfl⟩

theorem exists_mem_ofPair {pair : ι × κ} {field : FieldShape ι}
    (h : field ∈ (shapes pair.1).fields) (passed : List (ι × κ)) (place : List Nat) :
    ∃ x ∈ ofPair shapes passed place pair, x.owner = pair ∧ x.field = field := by
  obtain ⟨i, hi⟩ := List.getElem?_of_mem h
  exact ⟨_, mem_ofPair_iff.2 ⟨i, field, hi, rfl⟩, rfl, rfl⟩

/-- The disagreements at the fields of a pair are those of the pair, behind the walk to it. -/
theorem disagrees_ofPair_iff {passed : List (ι × κ)} {place place' : List Nat} {pair : ι × κ}
    {e : CompileError} : Disagrees shapes types (ofPair shapes passed place pair) place' e ↔
      ∃ rest, place' = place ++ rest ∧ Disagreement shapes types (pair :: passed) pair rest e := by
  simp only [Disagrees, mem_ofPair_iff, disagreement_iff]
  constructor
  · rintro ⟨_, ⟨i, field, declares, rfl⟩, rest, rfl, disagrees⟩
    exact ⟨i :: rest, by simp, i, field, rest, declares, rfl, disagrees⟩
  · rintro ⟨_, rfl, i, field, rest, declares, rfl, disagrees⟩
    exact ⟨_, ⟨i, field, declares, rfl⟩, rest, by simp, disagrees⟩

theorem map_compared_ofPair (passed : List (ι × κ)) (place : List Nat) (pair : ι × κ) :
    (ofPair shapes passed place pair).map compared =
      (shapes pair.1).fields.map fun f => (f, pair.2) := by
  refine List.ext_getElem (by simp [ofPair]) fun i _ _ => ?_
  simp [ofPair, compared]

/-- The walk to a field comes before the walks to another, however they go on. -/
def Before (x y : Pending ι κ) : Prop :=
  ∀ rest rest', x.place ++ rest < y.place ++ rest'

theorem pairwise_passed_ofPair (passed : List (ι × κ)) (place : List Nat) (pair : ι × κ) :
    (ofPair shapes passed place pair).Pairwise fun x y => y.passed ⊆ x.passed := by
  refine List.pairwise_of_forall_mem_list fun x hx y hy => ?_
  rw [(owner_passed_of_mem_ofPair hx).2, (owner_passed_of_mem_ofPair hy).2]
  exact List.Subset.refl _

theorem pairwise_before_ofPair (passed : List (ι × κ)) (place : List Nat) (pair : ι × κ) :
    (ofPair shapes passed place pair).Pairwise Before := by
  rw [List.pairwise_iff_getElem]
  intro i j hi hj hij rest rest'
  simp only [ofPair, List.getElem_mapIdx, List.append_assoc]
  exact List.append_left_lt (List.cons_lt_cons_iff.2 (.inl hij))

end Pending

section Frontier

variable {n m : Nat} {D : Fin m → Type} {shapes : Fin n → Shape (Fin n)}
  {types : RecordTypes (Fin m) D} {met : List (Fin n × Fin m)}
  {x : Pending (Fin n) (Fin m)} {pending : List (Pending (Fin n) (Fin m))} {inner : Fin n × Fin m}

/-- The invariant of the search. A field of a pair that was met waits or has been settled; and of
the fields that wait, a later one lies nearer to the root, since the search goes into the depth. -/
structure Frontier (shapes : Fin n → Shape (Fin n)) (types : RecordTypes (Fin m) D)
    (met : List (Fin n × Fin m)) (pending : List (Pending (Fin n) (Fin m))) : Prop where
  owner : ∀ x ∈ pending, x.owner ∈ x.passed
  passed : ∀ x ∈ pending, x.passed ⊆ met
  settled : ∀ pair ∈ met, ∀ field ∈ (shapes pair.1).fields,
    (∃ x ∈ pending, x.owner = pair ∧ x.field = field) ∨ FieldAgrees types (· ∈ met) field pair.2
  nearer : pending.Pairwise fun x y => y.passed ⊆ x.passed
  ordered : pending.Pairwise Pending.Before

theorem Frontier.root (shapes : Fin n → Shape (Fin n)) (types : RecordTypes (Fin m) D)
    (root : Fin n × Fin m) : Frontier shapes types [root] (Pending.ofPair shapes [] [] root) where
  owner := by
    intro x hx
    obtain ⟨howner, hpassed⟩ := Pending.owner_passed_of_mem_ofPair hx
    simp [howner, hpassed]
  passed := by
    intro x hx
    rw [(Pending.owner_passed_of_mem_ofPair hx).2]
    exact List.Subset.refl _
  settled := by
    intro pair hpair field hfield
    cases List.mem_singleton.1 hpair
    exact .inl (Pending.exists_mem_ofPair hfield [] [])
  nearer := Pending.pairwise_passed_ofPair [] [] root
  ordered := Pending.pairwise_before_ofPair [] [] root

theorem Frontier.drop (h : Frontier shapes types met (x :: pending))
    (agrees : FieldAgrees types (· ∈ met) x.field x.owner.2) :
    Frontier shapes types met pending where
  owner := fun y hy => h.owner y (List.mem_cons_of_mem _ hy)
  passed := fun y hy => h.passed y (List.mem_cons_of_mem _ hy)
  settled := by
    intro pair hpair field hfield
    rcases h.settled pair hpair field hfield with ⟨y, hy, rfl, rfl⟩ | hagrees
    · rcases List.mem_cons.1 hy with rfl | hy
      · exact .inr agrees
      · exact .inl ⟨y, hy, rfl, rfl⟩
    · exact .inr hagrees
  nearer := h.nearer.of_cons
  ordered := h.ordered.of_cons

/-- The fields of a pair that is met for the first time wait in front of all others. -/
theorem Frontier.enter (h : Frontier shapes types met (x :: pending))
    (demands : compareField x.field (types x.owner.2) = .ok (some inner)) :
    Frontier shapes types (inner :: met)
      (Pending.ofPair shapes x.passed x.place inner ++ pending) where
  owner := by
    intro y hy
    rcases List.mem_append.1 hy with hy | hy
    · obtain ⟨howner, hpassed⟩ := Pending.owner_passed_of_mem_ofPair hy
      simp [howner, hpassed]
    · exact h.owner y (List.mem_cons_of_mem _ hy)
  passed := by
    intro y hy
    rcases List.mem_append.1 hy with hy | hy
    · rw [(Pending.owner_passed_of_mem_ofPair hy).2]
      exact List.cons_subset_cons _ (h.passed x List.mem_cons_self)
    · exact List.subset_cons_of_subset _ (h.passed y (List.mem_cons_of_mem _ hy))
  settled := by
    intro pair hpair field hfield
    rcases List.mem_cons.1 hpair with rfl | hpair
    · obtain ⟨y, hy, howner⟩ := Pending.exists_mem_ofPair hfield x.passed x.place
      exact .inl ⟨y, List.mem_append_left _ hy, howner⟩
    · rcases h.settled pair hpair field hfield with ⟨y, hy, rfl, rfl⟩ | ⟨demand, hdemand, hmet⟩
      · rcases List.mem_cons.1 hy with rfl | hy
        · refine .inr ⟨_, demands, ?_⟩
          rintro _ ⟨⟩
          exact List.mem_cons_self
        · exact .inl ⟨y, List.mem_append_right _ hy, rfl, rfl⟩
      · refine .inr ⟨demand, hdemand, fun other hother => ?_⟩
        exact List.mem_cons_of_mem _ (hmet other hother)
  nearer := by
    rw [List.pairwise_append]
    refine ⟨Pending.pairwise_passed_ofPair _ _ _, h.nearer.of_cons, fun y hy z hz => ?_⟩
    rw [(Pending.owner_passed_of_mem_ofPair hy).2]
    exact List.subset_cons_of_subset _ (List.rel_of_pairwise_cons h.nearer hz)
  ordered := by
    rw [List.pairwise_append]
    refine ⟨Pending.pairwise_before_ofPair _ _ _, h.ordered.of_cons, fun y hy z hz rest rest' => ?_⟩
    obtain ⟨i, field, -, rfl⟩ := Pending.mem_ofPair_iff.1 hy
    simpa using List.rel_of_pairwise_cons h.ordered hz (i :: rest) rest'

/-- **There is no disagreement behind a pair that was met and is not on the walk.** The fields that
wait belong to pairs on the walk; so those of such a pair have been settled, and lead to other such
pairs. -/
theorem Frontier.not_disagreement_of_known (h : Frontier shapes types met (x :: pending))
    {passed : List (Fin n × Fin m)} {pair : Fin n × Fin m} {place : List Nat} {e : CompileError}
    (known : pair ∈ met) (off : pair ∉ x.passed) (walk : x.passed ⊆ passed) :
    ¬ Disagreement shapes types passed pair place e := by
  -- What waits belongs to a pair on the walk.
  have hagrees {pair : Fin n × Fin m} (known : pair ∈ met) (off : pair ∉ x.passed)
      {i : Nat} {field : FieldShape (Fin n)} (declares : (shapes pair.1).fields[i]? = some field) :
      FieldAgrees types (· ∈ met) field pair.2 := by
    refine (h.settled pair known field (List.mem_of_getElem? declares)).resolve_left ?_
    rintro ⟨y, hy, rfl, -⟩
    have howner := h.owner y hy
    rcases List.mem_cons.1 hy with rfl | hy
    · exact off howner
    · exact off (List.rel_of_pairwise_cons h.nearer hy howner)
  intro hdisagrees
  induction hdisagrees with
  | @clash _ pair i field place e declares clash =>
    obtain ⟨demand, hcompare, -⟩ := hagrees known off declares
    exact not_fieldClash_of_ok hcompare place e clash
  | @through passed pair inner i field place e declares embeds fresh behind ih =>
    obtain ⟨demand, hcompare, hmet⟩ := hagrees known off declares
    rw [compareField_some_iff.2 embeds] at hcompare
    cases hcompare
    exact ih (hmet inner rfl) (fun hin => fresh (walk hin)) (List.subset_cons_of_subset _ walk)

/-- **The search reports the first disagreement of the fields that wait.** -/
theorem reports_agreeFrom (h : Frontier shapes types met pending) :
    Reports (Pending.Disagrees shapes types pending)
      (agreeFrom shapes types met (pending.map Pending.compared)) := by
  generalize hwaiting : pending.map Pending.compared = waiting
  induction met, waiting using agreeFrom.induct shapes types generalizing pending with
  | case1 met =>
    cases List.map_eq_nil_iff.1 hwaiting
    rw [agreeFrom]
    exact .ok (by simp [Pending.Disagrees])
  | case2 met field target waiting e hcompare =>
    obtain ⟨x, pending, rfl, hx, rfl⟩ := List.map_eq_cons_iff.1 hwaiting
    cases hx
    rw [agreeFrom, hcompare]
    -- The clash at the field in front comes first: all other disagreements stand behind it.
    have hreports : Reports (FieldClash types x.field x.owner.2)
        (compareField x.field (types x.owner.2)) := reports_compareField
    rw [hcompare] at hreports
    obtain ⟨place, clash, hfirst⟩ := hreports
    refine .error (Pending.disagrees_cons_iff.2 (.inl ⟨place, rfl, .inl clash⟩)) ?_
    intro place' e' hdisagrees
    rcases Pending.disagrees_cons_iff.1 hdisagrees with
      ⟨rest, rfl, clash' | ⟨inner, embeds, -, -⟩⟩ | ⟨y, hy, rest, rfl, -⟩
    · rcases hfirst rest e' clash' with hlater | ⟨rfl, rfl⟩
      · exact .inl (List.append_left_lt hlater)
      · exact .inr ⟨rfl, rfl⟩
    · rw [← compareField_some_iff, hcompare] at embeds
      cases embeds
    · exact .inl (List.rel_of_pairwise_cons h.ordered hy place rest)
  | case3 met field target waiting hcompare ih =>
    obtain ⟨x, pending, rfl, hx, rfl⟩ := List.map_eq_cons_iff.1 hwaiting
    cases hx
    rw [agreeFrom, hcompare]
    refine (ih (h.drop ⟨none, hcompare, by simp⟩) rfl).congr fun place e => ?_
    rw [Pending.disagrees_cons_iff, or_iff_right]
    rintro ⟨rest, -, hdisagrees⟩
    exact not_fieldDisagreement_of_none hcompare rest e hdisagrees
  | case4 met field target waiting pair hcompare known ih =>
    obtain ⟨x, pending, rfl, hx, rfl⟩ := List.map_eq_cons_iff.1 hwaiting
    cases hx
    rw [agreeFrom, hcompare]
    simp only [dif_pos known]
    -- The pair was met before, so that what disagrees behind it waits at other fields.
    have hagrees : FieldAgrees types (· ∈ met) x.field x.owner.2 := by
      refine ⟨some pair, hcompare, ?_⟩
      rintro _ ⟨⟩
      exact known
    refine (ih (h.drop hagrees) rfl).congr fun place e => ?_
    rw [Pending.disagrees_cons_iff, or_iff_right]
    rintro ⟨rest, -, hdisagrees⟩
    obtain ⟨off, hbehind⟩ := (fieldDisagreement_iff_of_some hcompare).1 hdisagrees
    exact h.not_disagreement_of_known known off (List.subset_cons_self ..) hbehind
  | case5 met field target waiting pair hcompare fresh ih =>
    obtain ⟨x, pending, rfl, hx, rfl⟩ := List.map_eq_cons_iff.1 hwaiting
    cases hx
    rw [agreeFrom, hcompare]
    simp only [dif_neg fresh]
    -- A pair that was not met is not on the walk, and its fields wait in front of the others.
    have hoff : pair ∉ x.passed := fun hin => fresh (h.passed x List.mem_cons_self hin)
    refine (ih (h.enter hcompare) (by rw [List.map_append, Pending.map_compared_ofPair])).congr
      fun place e => ?_
    rw [Pending.disagrees_append_iff, Pending.disagrees_cons_iff,
      Pending.disagrees_ofPair_iff]
    simp only [fieldDisagreement_iff_of_some hcompare, hoff, not_false_eq_true, true_and]

end Frontier

/-! ## The number of comparisons -/

section Search

variable {n m : Nat} {D : Fin m → Type}

/-- A search that compares so many fields, one after another, and ends with a result. -/
inductive Searches (shapes : Fin n → Shape (Fin n)) (types : RecordTypes (Fin m) D) :
    List (Fin n × Fin m) → List (FieldShape (Fin n) × Fin m) → Nat → Except CompileError Unit → Prop
  | done {met : List (Fin n × Fin m)} : Searches shapes types met [] 0 (.ok ())
  | clash {met : List (Fin n × Fin m)} {field : FieldShape (Fin n)} {target : Fin m}
      {waiting : List (FieldShape (Fin n) × Fin m)} {e : CompileError}
      (clashes : compareField field (types target) = .error e) :
      Searches shapes types met ((field, target) :: waiting) 1 (.error e)
  | free {met : List (Fin n × Fin m)} {field : FieldShape (Fin n)} {target : Fin m}
      {waiting : List (FieldShape (Fin n) × Fin m)} {steps : Nat}
      {result : Except CompileError Unit}
      (demands : compareField field (types target) = .ok none)
      (rest : Searches shapes types met waiting steps result) :
      Searches shapes types met ((field, target) :: waiting) (steps + 1) result
  | known {met : List (Fin n × Fin m)} {field : FieldShape (Fin n)} {target : Fin m}
      {waiting : List (FieldShape (Fin n) × Fin m)} {pair : Fin n × Fin m} {steps : Nat}
      {result : Except CompileError Unit}
      (demands : compareField field (types target) = .ok (some pair)) (known : pair ∈ met)
      (rest : Searches shapes types met waiting steps result) :
      Searches shapes types met ((field, target) :: waiting) (steps + 1) result
  | enter {met : List (Fin n × Fin m)} {field : FieldShape (Fin n)} {target : Fin m}
      {waiting : List (FieldShape (Fin n) × Fin m)} {pair : Fin n × Fin m} {steps : Nat}
      {result : Except CompileError Unit}
      (demands : compareField field (types target) = .ok (some pair)) (fresh : pair ∉ met)
      (rest : Searches shapes types (pair :: met)
        ((shapes pair.1).fields.map (fun f => (f, pair.2)) ++ waiting) steps result) :
      Searches shapes types met ((field, target) :: waiting) (steps + 1) result

variable {shapes : Fin n → Shape (Fin n)} {types : RecordTypes (Fin m) D}

/-- The number of fields of the pairs that were not met. -/
def unmetFields (shapes : Fin n → Shape (Fin n)) (met : List (Fin n × Fin m)) : Nat :=
  ∑ pair ∈ met.toFinsetᶜ, (shapes pair.1).fields.length

theorem unmetFields_cons (shapes : Fin n → Shape (Fin n)) {met : List (Fin n × Fin m)}
    {pair : Fin n × Fin m} (h : pair ∉ met) :
    (shapes pair.1).fields.length + unmetFields shapes (pair :: met) = unmetFields shapes met := by
  have hpair : pair ∈ met.toFinsetᶜ := by simpa using h
  unfold unmetFields
  rw [List.toFinset_cons, Finset.compl_insert]
  exact Finset.add_sum_erase _ (fun p : Fin n × Fin m => (shapes p.1).fields.length) hpair

/-- The search compares no more fields than wait and than the pairs have that were not met. -/
theorem searches_agreeFrom (shapes : Fin n → Shape (Fin n)) (types : RecordTypes (Fin m) D)
    (met : List (Fin n × Fin m))
    (waiting : List (FieldShape (Fin n) × Fin m)) :
    ∃ steps ≤ waiting.length + unmetFields shapes met,
      Searches shapes types met waiting steps (agreeFrom shapes types met waiting) := by
  induction met, waiting using agreeFrom.induct shapes types with
  | case1 met =>
    rw [agreeFrom]
    exact ⟨0, Nat.zero_le _, .done⟩
  | case2 met field target waiting e hcompare =>
    rw [agreeFrom, hcompare]
    exact ⟨1, by rw [List.length_cons]; omega, .clash hcompare⟩
  | case3 met field target waiting hcompare ih =>
    rw [agreeFrom, hcompare]
    obtain ⟨steps, hsteps, hrest⟩ := ih
    exact ⟨steps + 1, by rw [List.length_cons]; omega, .free hcompare hrest⟩
  | case4 met field target waiting pair hcompare known ih =>
    rw [agreeFrom, hcompare]
    simp only [dif_pos known]
    obtain ⟨steps, hsteps, hrest⟩ := ih
    exact ⟨steps + 1, by rw [List.length_cons]; omega, .known hcompare known hrest⟩
  | case5 met field target waiting pair hcompare fresh ih =>
    rw [agreeFrom, hcompare]
    simp only [dif_neg fresh]
    obtain ⟨steps, hsteps, hrest⟩ := ih
    have hunmet := unmetFields_cons shapes fresh
    rw [List.length_append, List.length_map] at hsteps
    exact ⟨steps + 1, by rw [List.length_cons]; omega, .enter hcompare fresh hrest⟩

/-! ## Agreement -/

/-- Where a search ends without an error, every pair that can be reached agrees locally. -/
theorem locallyAgrees_of_agree {shape : Fin n} {target : Fin m}
    (agrees : agree shapes types shape target = .ok ()) {pair : Fin n × Fin m}
    (reachable : Relation.ReflTransGen (Embeds shapes types) (shape, target) pair) :
    LocallyAgrees shapes types pair := by
  obtain ⟨closed, hmet, hwaiting, hclosed⟩ := closed_of_agreeFrom agrees
  have hshape : ∀ pair, closed pair → ShapeAgrees types closed (shapes pair.1) pair.2 := by
    intro pair hpair field hfield
    by_cases hroot : pair = (shape, target)
    · subst hroot
      exact hwaiting (field, target) (List.mem_map_of_mem hfield)
    · exact hclosed pair hpair (by simpa using hroot) field hfield
  have hreached : closed pair := by
    induction reachable with
    | refl => exact hmet _ (List.mem_singleton_self _)
    | tail _ embeds ih =>
      obtain ⟨field, hfield, hembeds⟩ := embeds
      obtain ⟨demand, hcompare, hdemand⟩ := hshape _ ih field hfield
      rw [compareField_some_iff.2 hembeds] at hcompare
      cases hcompare
      exact hdemand _ rfl
  intro field hfield found has
  obtain ⟨demand, hfits, -⟩ := (hshape pair hreached field hfield).accessFits has
  exact ⟨demand, hfits⟩

/-- **Agreement is decided.** The search compares no more fields than all pairs of a shape and a
record type have together; it finds that a shape and a record type agree exactly if every pair that
can be reached from them agrees locally; and it fails with an error exactly if that is the first
clash in the order of declaration, where walks go into the depth and come back to no pair that they
passed. -/
theorem agree_decides (shapes : Fin n → Shape (Fin n)) (types : RecordTypes (Fin m) D)
    (shape : Fin n) (target : Fin m) :
    (∃ steps ≤ ∑ pair : Fin n × Fin m, (shapes pair.1).fields.length,
      Searches shapes types [(shape, target)] ((shapes shape).fields.map fun f => (f, target)) steps
        (agree shapes types shape target)) ∧
      (agree shapes types shape target = .ok () ↔
        ∀ pair, Relation.ReflTransGen (Embeds shapes types) (shape, target) pair →
          LocallyAgrees shapes types pair) ∧
      ∀ e, agree shapes types shape target = .error e ↔
        IsFirst (Disagreement shapes types [(shape, target)] (shape, target)) e := by
  have hreports : Reports (Disagreement shapes types [(shape, target)] (shape, target))
      (agree shapes types shape target) := by
    have hsearch := reports_agreeFrom (Frontier.root shapes types (shape, target))
    rw [Pending.map_compared_ofPair] at hsearch
    refine hsearch.congr fun place e => ?_
    simp [Pending.disagrees_ofPair_iff]
  refine ⟨?_, ⟨fun agrees pair => locallyAgrees_of_agree agrees, fun hall => ?_⟩,
    fun e => hreports.error_iff⟩
  · obtain ⟨steps, hsteps, hsearches⟩ := searches_agreeFrom shapes types
      [(shape, target)] ((shapes shape).fields.map fun f => (f, target))
    refine ⟨steps, ?_, hsearches⟩
    have hroot := unmetFields_cons shapes (List.not_mem_nil (a := (shape, target)))
    rw [List.length_map] at hsteps
    simpa [unmetFields] using hsteps.trans_eq hroot
  · cases hrun : agree shapes types shape target with
    | ok _ => rfl
    | error e =>
      obtain ⟨place, hplace, -⟩ := hreports.error_iff.1 hrun
      obtain ⟨pair, hreachable, hdisagrees⟩ := exists_reachable_of_disagreement hplace
      exact absurd (hall pair hreachable) hdisagrees

/-- Teams with their leads and their parts, and persons with their teams. -/
def teamShapes : Fin 2 → Shape (Fin 2)
  | 0 =>
    { name := "Team"
      fields :=
        [⟨"lead", .nested 1⟩, ⟨"parts", .list 0⟩, ⟨"name", .leaf (.primitive ⟨.string, false⟩)⟩] }
  | 1 =>
    { name := "Person"
      fields := [⟨"team", .nested 0⟩, ⟨"age", .leaf (.primitive ⟨.i64, false⟩)⟩] }

/-- Records without content; an age is a text, and a name is a number. -/
def teamTypes : RecordTypes (Fin 2) fun _ => Unit
  | 0 =>
    { name := "Team"
      fields :=
        [⟨"Name", .value ⟨.i64, false⟩ fun _ => .null⟩, ⟨"Parts", .list 0 fun _ => []⟩,
          ⟨"Lead", .nested 1 fun _ => none⟩] }
  | 1 =>
    { name := "Person"
      fields :=
        [⟨"Age", .value ⟨.string, false⟩ fun _ => .null⟩, ⟨"Team", .nested 0 fun _ => none⟩] }

/-- The clash behind the first field comes before that of the last. -/
example : agree teamShapes teamTypes 0 0 = .error (.schemaMismatch "age" "I64" "String") := by
  cbv

end Search

end BracketFilter
