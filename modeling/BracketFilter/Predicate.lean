/-!
# Predicates and filtered sequences

* `Predicate` — a test on candidates. The test may have effects, in a monad `m`, so that it can be
  told which tests are evaluated, and in which order.
* `Predicate.and`, `Predicate.all` — conjunction from left to right; what follows a test that fails
  is not evaluated. Nothing to test is no predicate.
* `keep` — the candidates that a predicate accepts, in their order; without one, all of them.
* `Sift` — the same on demand: `Sift.next` evaluates no more than it needs for one candidate.
-/

set_option autoImplicit false

namespace BracketFilter

variable {m : Type → Type} {α : Type}

/-- A test on candidates. -/
structure Predicate (m : Type → Type) (α : Type) where
  test : α → m Bool

namespace Predicate

variable [Monad m]

/-- The predicate that accepts what both accept; the second is asked only if the first accepts. -/
def and (p q : Predicate m α) : Predicate m α :=
  ⟨fun a => do if ← p.test a then q.test a else pure false⟩

/-- The conjunction of predicates in their order. -/
def all : List (Predicate m α) → Option (Predicate m α)
  | [] => none
  | p :: ps => some (ps.foldl and p)

/-- The candidates that the predicate accepts, in their order. -/
def filter (p : Predicate m α) : List α → m (List α)
  | [] => pure []
  | a :: rest => do
    let accepted ← p.test a
    let kept ← p.filter rest
    pure (if accepted then a :: kept else kept)

end Predicate

/-! ## Predicates without effects -/

/-- A predicate without effects. -/
abbrev PurePredicate (α : Type) := Predicate Id α

namespace PurePredicate

/-- The predicate of a plain test. -/
def ofTest (test : α → Bool) : PurePredicate α := ⟨fun a => pure (test a)⟩

/-- Whether a candidate is accepted. -/
def accepts (p : PurePredicate α) (a : α) : Bool := (p.test a).run

@[simp] theorem accepts_ofTest (test : α → Bool) (a : α) : (ofTest test).accepts a = test a := rfl

@[simp] theorem accepts_and (p q : PurePredicate α) (a : α) :
    accepts (p.and q) a = (p.accepts a && q.accepts a) := by
  cases h : accepts p a <;> simp_all [accepts, Predicate.and]

theorem accepts_foldl_and (p : PurePredicate α) (ps : List (PurePredicate α)) (a : α) :
    accepts (ps.foldl Predicate.and p) a = (p.accepts a && ps.all (accepts · a)) := by
  induction ps generalizing p with
  | nil => simp
  | cons q qs ih => simp [ih, Bool.and_assoc]

theorem run_filter (p : PurePredicate α) (candidates : List α) :
    (p.filter candidates).run = candidates.filter p.accepts := by
  induction candidates with
  | nil => rfl
  | cons a rest ih =>
    cases h : p.accepts a <;> simp_all [Predicate.filter, accepts]

end PurePredicate

/-! ## Filtered sequences -/

/-- The candidates that an optional predicate accepts. -/
def keep [Monad m] (candidates : List α) : Option (Predicate m α) → m (List α)
  | none => pure candidates
  | some p => p.filter candidates

/-- Candidates that are still to be tested. -/
structure Sift (m : Type → Type) (α : Type) where
  predicate : Option (Predicate m α)
  candidates : List α

namespace Sift

variable [Monad m]

/-- The first candidate that is accepted, and the candidates behind it. -/
def nextFrom (predicate : Option (Predicate m α)) : List α → m (Option α × Sift m α)
  | [] => pure (none, ⟨predicate, []⟩)
  | a :: rest =>
    match predicate with
    | none => pure (some a, ⟨none, rest⟩)
    | some p => do
      if ← p.test a then pure (some a, ⟨some p, rest⟩) else nextFrom (some p) rest

/-- The next accepted candidate, and what remains behind it. -/
def next (sift : Sift m α) : m (Option α × Sift m α) := nextFrom sift.predicate sift.candidates

/-- The least and the greatest number of candidates that may still be accepted. -/
def sizeHint (sift : Sift m α) : Nat × Nat :=
  match sift.predicate with
  | none => (sift.candidates.length, sift.candidates.length)
  | some _ => (0, sift.candidates.length)

/-- The accepted candidates that remain. -/
def rest (sift : Sift m α) : m (List α) := keep sift.candidates sift.predicate

/-- The number of accepted candidates that remain. -/
def count (sift : Sift m α) : m Nat := do
  let kept ← sift.rest
  pure kept.length

/-- What remains when every candidate has been taken. -/
def exhausted (sift : Sift m α) : Sift m α := ⟨sift.predicate, []⟩

end Sift

end BracketFilter
