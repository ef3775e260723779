import BracketFilter.Proofs.NotedTests

/-!
# Conjunctions make their tests in order

A conjunction may be nested in others to any depth. What it asks is told by its basic tests, from
left to right.

* `Predicate.Asks` — the basic tests of a nested conjunction.
* `Predicate.inOrder` — tests one after the other, up to the first that fails.
* `Predicate.naming`, `Predicate.upToFailure` — tests that note their names, and the names that are
  noted.
* `Predicate.filterEach` — candidates that are filtered by one predicate after the other.

Principal results: `Predicate.Asks.test_eq_inOrder` — however it is nested, and whatever effects
its tests have, a conjunction makes them in order; `Predicate.all_in_order` — so that it keeps what
its members keep one after the other, in every order of theirs.
-/

set_option autoImplicit false

namespace BracketFilter

namespace Predicate

/-! ## Nested conjunctions -/

section Nested

variable {m : Type → Type} [Monad m] {α : Type}

/-- The predicate is a conjunction of basic tests, which are given from left to right. A clone of a
predicate is the predicate itself. -/
inductive Asks : Predicate m α → List (Predicate m α) → Prop where
  | basic (p : Predicate m α) : Asks p [p]
  | and {p q : Predicate m α} {ps qs : List (Predicate m α)} :
      Asks p ps → Asks q qs → Asks (p.and q) (ps ++ qs)
  | all {p : Predicate m α} (members : List (Predicate m α × List (Predicate m α))) :
      (∀ member ∈ members, Asks member.1 member.2) → all (members.map Prod.fst) = some p →
      Asks p (members.flatMap Prod.snd)

/-- Tests one after the other; what follows one that fails is not made. -/
def inOrder : List (Predicate m α) → α → m Bool
  | [], _ => pure true
  | p :: ps, a => do if ← p.test a then inOrder ps a else pure false

theorem all_eq_none_iff {ps : List (Predicate m α)} : all ps = none ↔ ps = [] := by
  cases ps <;> simp [all]

variable [LawfulMonad m]

theorem inOrder_singleton (p : Predicate m α) (a : α) : inOrder [p] a = p.test a := by
  have hanswer (accepted : Bool) : (if accepted then pure true else pure false : m Bool) =
      pure accepted := by cases accepted <;> rfl
  simp [inOrder, hanswer]

theorem inOrder_append (ps qs : List (Predicate m α)) (a : α) :
    inOrder (ps ++ qs) a = (do if ← inOrder ps a then inOrder qs a else pure false) := by
  induction ps with
  | nil => simp [inOrder]
  | cons p ps ih =>
    simp only [List.cons_append, inOrder, ih, bind_assoc]
    congr 1
    funext accepted
    cases accepted <;> simp

theorem inOrder_flatMap {members : List (Predicate m α × List (Predicate m α))} {a : α}
    (h : ∀ member ∈ members, member.1.test a = inOrder member.2 a) :
    inOrder (members.map Prod.fst) a = inOrder (members.flatMap Prod.snd) a := by
  induction members with
  | nil => rfl
  | cons member members ih =>
    obtain ⟨hfirst, hothers⟩ := List.forall_mem_cons.1 h
    simp only [List.map_cons, List.flatMap_cons, inOrder_append, inOrder, hfirst, ih hothers]

theorem test_foldl_and (p : Predicate m α) (ps : List (Predicate m α)) (a : α) :
    (ps.foldl Predicate.and p).test a = inOrder (p :: ps) a := by
  induction ps generalizing p with
  | nil => exact (inOrder_singleton p a).symm
  | cons q qs ih =>
    rw [List.foldl_cons, ih]
    simp only [inOrder, Predicate.and, bind_assoc]
    congr 1
    funext accepted
    cases accepted <;> simp

theorem test_of_all {p : Predicate m α} {ps : List (Predicate m α)} (h : all ps = some p) (a : α) :
    p.test a = inOrder ps a := by
  cases ps with
  | nil => cases h
  | cons q qs =>
    cases h
    exact test_foldl_and q qs a

/-- **A nested conjunction makes its basic tests in order**, up to the first that fails. -/
theorem Asks.test_eq_inOrder {p : Predicate m α} {tests : List (Predicate m α)}
    (asks : Asks p tests) (a : α) : p.test a = inOrder tests a := by
  induction asks with
  | basic p => exact (inOrder_singleton p a).symm
  | and _ _ ihp ihq => simp only [Predicate.and, ihp, ihq, inOrder_append]
  | all members _ hall ih => rw [test_of_all hall a, inOrder_flatMap ih]

end Nested

/-! ## Tests with names -/

section Named

variable {α β : Type} (holds : β → α → Bool)

/-- A basic test that notes its name and the candidate. -/
def naming (name : β) : Predicate (StateM (List (β × α))) α :=
  ⟨fun a => do
    modify (· ++ [(name, a)])
    pure (holds name a)⟩

/-- The tests up to the first that fails, and this one. -/
def upToFailure (names : List β) (a : α) : List β :=
  names.takeWhile (holds · a) ++ (names.dropWhile (holds · a)).take 1

variable {holds}

theorem upToFailure_cons (name : β) (names : List β) (a : α) :
    upToFailure holds (name :: names) a =
      name :: if holds name a then upToFailure holds names a else [] := by
  cases h : holds name a <;> simp [upToFailure, h]

theorem run_inOrder_naming (names : List β) (a : α) (log : List (β × α)) :
    (inOrder (names.map (naming holds)) a).run log =
      (names.all (holds · a), log ++ (upToFailure holds names a).map (·, a)) := by
  induction names generalizing log with
  | nil =>
    have hnone : upToFailure holds [] a = [] := rfl
    simp only [hnone, List.map_nil, List.append_nil]
    rfl
  | cons name names ih =>
    have hstep : (inOrder ((name :: names).map (naming holds)) a).run log =
        if holds name a then
          (inOrder (names.map (naming holds)) a).run (log ++ [(name, a)])
        else (false, log ++ [(name, a)]) := by
      cases h : holds name a with
      | false =>
        simp [inOrder, naming, h]
        rfl
      | true => simp [inOrder, naming, h]
    rw [hstep, upToFailure_cons]
    cases h : holds name a with
    | true => simp [ih, h]
    | false => simp [h]

/-- **A nested conjunction notes its basic tests in order**, up to the first that fails. -/
theorem Asks.notes {p : Predicate (StateM (List (β × α))) α} {names : List β}
    (asks : Asks p (names.map (naming holds))) :
    p.Notes (fun a => names.all (holds · a)) fun a =>
      (upToFailure holds names a).map (·, a) := by
  intro a log
  rw [asks.test_eq_inOrder, run_inOrder_naming]

theorem asks_all {members : List (Predicate (StateM (List (β × α))) α × List β)}
    (asks : ∀ member ∈ members, Asks member.1 (member.2.map (naming holds)))
    {p : Predicate (StateM (List (β × α))) α} (h : all (members.map Prod.fst) = some p) :
    Asks p ((members.flatMap Prod.snd).map (naming holds)) := by
  let named := members.map fun member => (member.1, member.2.map (naming holds))
  have hnamed : ∀ member ∈ named, Asks member.1 member.2 := by
    intro member hmember
    obtain ⟨source, hsource, rfl⟩ := List.mem_map.1 hmember
    exact asks source hsource
  have hall : all (named.map Prod.fst) = some p := by
    simpa [named, Function.comp_def] using h
  have hasks := Asks.all named hnamed hall
  simpa [named, List.flatMap_map, List.map_flatMap] using hasks

/-! ## Filtering in stages -/

/-- The candidates that pass one predicate after the other. -/
def filterEach {m : Type → Type} [Monad m] (ps : List (Predicate m α)) (candidates : List α) :
    m (List α) :=
  ps.foldlM (fun kept p => p.filter kept) candidates

/-- Stages keep the candidates on which no test fails. -/
theorem run_filterEach {members : List (Predicate (StateM (List (β × α))) α × List β)}
    (asks : ∀ member ∈ members, Asks member.1 (member.2.map (naming holds)))
    (candidates : List α) (log : List (β × α)) :
    ((filterEach (members.map Prod.fst) candidates).run log).1 =
      candidates.filter fun a => (members.flatMap Prod.snd).all (holds · a) := by
  induction members generalizing candidates log with
  | nil => exact (List.filter_eq_self.2 fun _ _ => rfl).symm
  | cons member members ih =>
    obtain ⟨hfirst, hothers⟩ := List.forall_mem_cons.1 asks
    have hstage := hfirst.notes.run_filter candidates log
    have hstages (cs : List α) (log : List (β × α)) := ih hothers cs log
    simp only [filterEach, List.map_cons, List.foldlM_cons, StateT.run_bind, hstage] at hstages ⊢
    refine (hstages _ _).trans ?_
    simp [List.filter_filter, Bool.and_comm]

theorem run_keep_all {members : List (Predicate (StateM (List (β × α))) α × List β)}
    (asks : ∀ member ∈ members, Asks member.1 (member.2.map (naming holds)))
    (candidates : List α) (log : List (β × α)) :
    ((keep candidates (all (members.map Prod.fst))).run log).1 =
      candidates.filter fun a => (members.flatMap Prod.snd).all (holds · a) := by
  cases h : all (members.map Prod.fst) with
  | none =>
    rw [all_eq_none_iff, List.map_eq_nil_iff] at h
    subst h
    exact (List.filter_eq_self.2 fun _ _ => rfl).symm
  | some p => exact congrArg Prod.fst ((asks_all asks h).notes.run_filter candidates log)

end Named

/-- **A conjunction makes its tests in order and keeps what stages keep.** There is none exactly for
no members. Otherwise, whatever effects the basic tests have and however they are nested in the
members, it makes them from left to right, up to the first that fails. Where the tests only note
their names, these are noted up to that test, a candidate is accepted exactly if every member
accepts it, and what is kept of candidates is what the members keep one after the other, in every
order of the members. -/
theorem all_in_order {m : Type → Type} [Monad m] [LawfulMonad m] {α β : Type} :
    (∀ members : List (Predicate m α × List (Predicate m α)),
      (∀ member ∈ members, Asks member.1 member.2) →
        (all (members.map Prod.fst) = none ↔ members = []) ∧
        ∀ p, all (members.map Prod.fst) = some p →
          ∀ a, p.test a = inOrder (members.flatMap Prod.snd) a) ∧
    ∀ (holds : β → α → Bool) (members : List (Predicate (StateM (List (β × α))) α × List β)),
      (∀ member ∈ members, Asks member.1 (member.2.map (naming holds))) →
        (∀ p, all (members.map Prod.fst) = some p → ∀ a log,
          ((p.test a).run log).2 =
            log ++ (upToFailure holds (members.flatMap Prod.snd) a).map (·, a) ∧
          (((p.test a).run log).1 = true ↔
            ∀ member ∈ members, ((member.1.test a).run log).1 = true)) ∧
        ∀ candidates log (order : List _), order.Perm members →
          ((keep candidates (all (order.map Prod.fst))).run log).1 =
              ((filterEach (members.map Prod.fst) candidates).run log).1 ∧
            ((filterEach (order.map Prod.fst) candidates).run log).1 =
              ((filterEach (members.map Prod.fst) candidates).run log).1 := by
  constructor
  · intro members asks
    refine ⟨by rw [all_eq_none_iff, List.map_eq_nil_iff], ?_⟩
    intro p hall a
    rw [test_of_all hall a, inOrder_flatMap fun member hmember =>
      (asks member hmember).test_eq_inOrder a]
  · intro holds members asks
    constructor
    · intro p hall a log
      rw [(asks_all asks hall).notes a log]
      refine ⟨rfl, ?_⟩
      have hmember : ∀ member ∈ members, ((member.1.test a).run log).1 =
          member.2.all (holds · a) := fun member hmember =>
        congrArg Prod.fst ((asks member hmember).notes a log)
      change (members.flatMap Prod.snd).all (holds · a) = true ↔ _
      rw [List.all_flatMap, List.all_eq_true]
      exact forall₂_congr fun member h => by rw [hmember member h]
    · intro candidates log order perm
      have hasks : ∀ member ∈ order, Asks member.1 (member.2.map (naming holds)) :=
        fun member hmember => asks member (perm.mem_iff.1 hmember)
      have hsame (a : α) : (order.flatMap Prod.snd).all (holds · a) =
          (members.flatMap Prod.snd).all (holds · a) := (perm.flatMap_right _).all_eq
      simp only [run_keep_all hasks, run_filterEach asks, run_filterEach hasks, hsame, and_self]

/-- Tests on numbers, by their names: whether a number can be divided by another one. -/
def dividedBy (divisor n : Nat) : Bool := n % divisor == 0

/-- Divided by 2 and by 3, and then by 2 again. -/
def nestedDivisions : Predicate (StateM (List (Nat × Nat))) Nat :=
  ((naming dividedBy 2).and (naming dividedBy 3)).and (naming dividedBy 2)

theorem asks_nestedDivisions : Asks nestedDivisions ([2, 3, 2].map (naming dividedBy)) :=
  .and (.and (.basic _) (.basic _)) (.basic _)

/-- A number that is not divided by 3 is not asked about by what follows. -/
theorem all_in_order_divisions :
    LawfulMonad (StateM (List (Nat × Nat))) ∧
    (∀ member ∈ [(nestedDivisions, [2, 3, 2]), (naming dividedBy 5, [5])],
      Asks member.1 (member.2.map (naming dividedBy))) ∧
    (∃ p, all [nestedDivisions, naming dividedBy 5] = some p ∧
      ((p.test 8).run []).2 = [(2, 8), (3, 8)] ∧ ((p.test 60).run []).1 = true) ∧
    ((keep [60, 8, 30, 6] (all [naming dividedBy 5, nestedDivisions])).run []).1 =
      ((filterEach [nestedDivisions, naming dividedBy 5] [60, 8, 30, 6]).run []).1 ∧
    ((filterEach [nestedDivisions, naming dividedBy 5] [60, 8, 30, 6]).run []).1 = [60, 30] := by
  have hasks : ∀ member ∈ [(nestedDivisions, [2, 3, 2]), (naming dividedBy 5, [5])],
      Asks member.1 (member.2.map (naming dividedBy)) := by
    intro member hmember
    simp only [List.mem_cons, List.not_mem_nil, or_false] at hmember
    rcases hmember with rfl | rfl
    · exact asks_nestedDivisions
    · exact .basic _
  obtain ⟨-, hnamed⟩ := all_in_order (m := StateM (List (Nat × Nat))) (α := Nat) (β := Nat)
  obtain ⟨htest, hkeep⟩ := hnamed dividedBy _ hasks
  have hswapped := hkeep [60, 8, 30, 6] []
    [(naming dividedBy 5, [5]), (nestedDivisions, [2, 3, 2])] (.swap _ _ _)
  refine ⟨inferInstance, hasks, ⟨_, rfl, (htest _ rfl 8 []).1, ?_⟩, hswapped.1, rfl⟩
  refine (htest _ rfl 60 []).2.2 fun member hmember => ?_
  simp only [List.mem_cons, List.not_mem_nil, or_false] at hmember
  rcases hmember with rfl | rfl <;> rfl

end Predicate

end BracketFilter
