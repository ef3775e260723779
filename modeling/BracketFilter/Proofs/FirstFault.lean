import BracketFilter.Proofs.Traversal

/-!
# The first of many faults

A fault has a place, which is a list of numbers; places are compared from the front, number by
number.

* `IsFirst` — an error is the first of some faults.
* `Reports` — a result is the first of some faults, or no error if there are none.

The lemmas on `Reports` put the faults of steps together to those of a traversal: the place of a
fault in a step is the position of the step, followed by the place in the step.
-/

set_option autoImplicit false

namespace BracketFilter

variable {α β ε : Type}

/-- An error is the first of some faults: each other one stands at a later place. -/
def IsFirst (faults : List Nat → ε → Prop) (e : ε) : Prop :=
  ∃ place, faults place e ∧
    ∀ place' e', faults place' e' → place < place' ∨ place' = place ∧ e' = e

/-- A result is the first of some faults, or no error if there are none. -/
def Reports (faults : List Nat → ε → Prop) : Except ε α → Prop
  | .ok _ => ∀ place e, ¬ faults place e
  | .error e => IsFirst faults e

theorem IsFirst.unique {faults : List Nat → ε → Prop} {e e' : ε} (h : IsFirst faults e)
    (h' : IsFirst faults e') : e = e' := by
  obtain ⟨place, hfault, hfirst⟩ := h
  obtain ⟨place', hfault', hfirst'⟩ := h'
  rcases hfirst _ _ hfault' with hlt | ⟨-, hsame⟩
  · rcases hfirst' _ _ hfault with hgt | ⟨-, hsame⟩
    · exact absurd hgt (List.lt_asymm hlt)
    · exact hsame
  · exact hsame.symm

namespace Reports

variable {faults faults' : List Nat → ε → Prop} {x : Except ε α}

theorem ok {a : α} (none : ∀ place e, ¬ faults place e) :
    Reports faults (.ok a : Except ε α) := none

/-- A fault is reported if each other one stands behind it. -/
theorem error {place : List Nat} {e : ε} (fault : faults place e)
    (first : ∀ place' e', faults place' e' → place < place' ∨ place' = place ∧ e' = e) :
    Reports faults (.error e : Except ε α) := ⟨place, fault, first⟩

theorem error_iff (h : Reports faults x) {e : ε} : x = .error e ↔ IsFirst faults e := by
  cases x with
  | ok a =>
    simp only [reduceCtorEq, false_iff]
    rintro ⟨place, hfault, -⟩
    exact h place e hfault
  | error e' =>
    rw [Except.error.injEq]
    exact ⟨fun heq => heq ▸ h, fun hfirst => IsFirst.unique h hfirst⟩

theorem fails_iff (h : Reports faults x) : (∃ e, x = .error e) ↔ ∃ place e, faults place e := by
  cases x with
  | ok a => simpa using show ∀ place e, ¬ faults place e from h
  | error e =>
    obtain ⟨place, hfault, -⟩ := h
    exact ⟨fun _ => ⟨place, e, hfault⟩, fun _ => ⟨e, rfl⟩⟩

theorem succeeds_iff (h : Reports faults x) : (∃ a, x = .ok a) ↔ ∀ place e, ¬ faults place e := by
  have hfails := h.fails_iff
  cases x with
  | ok a => simpa using hfails
  | error e => simpa using hfails

theorem congr (h : Reports faults x) (same : ∀ place e, faults place e ↔ faults' place e) :
    Reports faults' x := by
  have hfaults : faults = faults' := funext fun place => funext fun e => propext (same place e)
  exact hfaults ▸ h

theorem map (h : Reports faults x) (f : α → β) : Reports faults (x.map f) := by
  cases x with
  | ok a => exact h
  | error e => exact h

/-- **A traversal reports the faults of its steps**, those of earlier steps first. -/
theorem mapM {f : α → Except ε β} {faultsOf : Nat → α → List Nat → ε → Prop} {xs : List α}
    (each : ∀ (i : Nat) (x : α), xs[i]? = some x → Reports (faultsOf i x) (f x)) :
    Reports (fun place e => ∃ (i : Nat) (x : α) (rest : List Nat),
      xs[i]? = some x ∧ place = i :: rest ∧ faultsOf i x rest e) (xs.mapM f) := by
  cases hrun : xs.mapM f with
  | ok ys =>
    rintro _ e ⟨i, x, rest, hx, rfl, hfault⟩
    obtain ⟨y, -, hy⟩ := exists_of_mem_forall₂ (mapM_ok_iff.1 hrun) (List.mem_of_getElem? hx)
    have hreports := each i x hx
    rw [hy] at hreports
    exact hreports rest e hfault
  | error e =>
    obtain ⟨i, x, hx, hfail, hbefore⟩ := exists_of_mapM_error hrun
    have hreports := each i x hx
    rw [hfail] at hreports
    obtain ⟨place, hfault, hfirst⟩ := hreports
    refine ⟨i :: place, ⟨i, x, place, hx, rfl, hfault⟩, ?_⟩
    rintro _ e' ⟨j, y, rest, hy, rfl, hfault'⟩
    rw [List.cons_lt_cons_iff]
    rcases Nat.lt_trichotomy i j with hlt | rfl | hgt
    · exact .inl (.inl hlt)
    · obtain rfl : x = y := Option.some.inj (hx.symm.trans hy)
      rcases hfirst _ _ hfault' with hlater | ⟨rfl, rfl⟩
      · exact .inl (.inr ⟨rfl, hlater⟩)
      · exact .inr ⟨rfl, rfl⟩
    · -- A step before the one that fails has no fault.
      obtain ⟨z, hz⟩ := hbefore j hgt y hy
      have hnone := each j y hy
      rw [hz] at hnone
      exact absurd hfault' (hnone rest e')

theorem mapM_flatMap {γ : Type} {f : α → Except ε β} {g : γ → List α}
    {faultsOf : Nat → γ → List Nat → ε → Prop} {xs : List γ}
    (each : ∀ (i : Nat) (x : γ), xs[i]? = some x → Reports (faultsOf i x) ((g x).mapM f)) :
    Reports (fun place e => ∃ (i : Nat) (x : γ) (rest : List Nat),
      xs[i]? = some x ∧ place = i :: rest ∧ faultsOf i x rest e) ((xs.flatMap g).mapM f) := by
  rw [mapM_flatMap_eq]
  exact (mapM each).map _

theorem mapM_filterMap {γ : Type} {f : α → Except ε β} {g : γ → Option α}
    {faultsOf : Nat → γ → List Nat → ε → Prop} {xs : List γ}
    (value : ∀ (i : Nat) (x : γ) (y : α), xs[i]? = some x → g x = some y →
      Reports (faultsOf i x) (f y))
    (noValue : ∀ (i : Nat) (x : γ), xs[i]? = some x → g x = none →
      ∀ place e, ¬ faultsOf i x place e) :
    Reports (fun place e => ∃ (i : Nat) (x : γ) (rest : List Nat),
      xs[i]? = some x ∧ place = i :: rest ∧ faultsOf i x rest e) ((xs.filterMap g).mapM f) := by
  rw [List.filterMap_eq_flatMap_toList]
  refine mapM_flatMap fun i x hx => ?_
  cases hg : g x with
  | none => exact noValue i x hx hg
  | some y =>
    have hy := (value i x y hx hg).map fun z => [z]
    rw [Option.toList_some, mapM_cons_eq]
    cases hf : f y with
    | error e => rwa [hf] at hy
    | ok z => rwa [hf] at hy

/-- A last fault, behind all others, is reported if there is no other. -/
theorem thenLast (h : Reports faults x) (last : List Nat) (e : ε)
    (behind : ∀ place e', faults place e' → place < last) :
    Reports (fun place e' => faults place e' ∨ place = last ∧ e' = e)
      (x.bind fun _ => (.error e : Except ε β)) := by
  cases x with
  | ok a =>
    refine .error (.inr ⟨rfl, rfl⟩) fun place e' hfault => .inr ?_
    exact hfault.resolve_left (h place e')
  | error e' =>
    obtain ⟨place, hfault, hfirst⟩ := h
    refine .error (.inl hfault) ?_
    rintro place' e'' (hfault' | ⟨rfl, -⟩)
    · exact hfirst _ _ hfault'
    · exact .inl (behind _ _ hfault)

end Reports

end BracketFilter
