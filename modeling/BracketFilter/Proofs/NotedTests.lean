import BracketFilter.Predicate

/-!
# Tests that are noted

Which tests a predicate makes, and in which order, shows when the tests keep notes.

* `Predicate.Notes` — how a predicate answers, and what it notes about each candidate.
* `Predicate.noting` — a test that notes every candidate that it is asked about.

Principal result: `Predicate.Notes.run_filter` — filtering asks about the candidates one after the
other, each of them once.
-/

set_option autoImplicit false

namespace BracketFilter

namespace Predicate

variable {α τ : Type}

/-- The predicate answers as `test` does and adds `notes` to those that it finds. -/
def Notes (p : Predicate (StateM (List τ)) α) (test : α → Bool) (notes : α → List τ) : Prop :=
  ∀ a log, (p.test a).run log = (test a, log ++ notes a)

/-- A test that notes every candidate that it is asked about. -/
def noting (test : α → Bool) : Predicate (StateM (List α)) α :=
  ⟨fun a => do
    modify (· ++ [a])
    pure (test a)⟩

theorem notes_noting (test : α → Bool) : (noting test).Notes test fun a => [a] := fun _ _ => rfl

/-- **Filtering asks about each candidate once**, in their order. -/
theorem Notes.run_filter {p : Predicate (StateM (List τ)) α} {test : α → Bool}
    {notes : α → List τ} (noted : p.Notes test notes) (candidates : List α) (log : List τ) :
    (p.filter candidates).run log = (candidates.filter test, log ++ candidates.flatMap notes) := by
  induction candidates generalizing log with
  | nil =>
    rw [List.flatMap_nil, List.append_nil]
    rfl
  | cons a rest ih =>
    have hrun : (p.filter (a :: rest)).run log =
        (if test a then a :: rest.filter test else rest.filter test,
          (log ++ notes a) ++ rest.flatMap notes) := by
      simp only [Predicate.filter, StateT.run_bind, noted a log, ih, bind_pure_comp, StateT.run_map]
      rfl
    rw [hrun, List.filter_cons, List.flatMap_cons, List.append_assoc]

end Predicate

end BracketFilter
