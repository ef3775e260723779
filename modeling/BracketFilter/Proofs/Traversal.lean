import Mathlib.Data.List.Forall2

/-!
# Lists of steps that may fail

Lemmas on `List.mapM` in `Except` and on the results that it collects.

* `mapM_ok_iff` — a traversal succeeds exactly if every step does, with the results in order;
  `mapM_error_iff` — it fails exactly at the first step that does.
* `SameUnless` — a result is another, unless that is an error of a certain kind; `mapM_sameUnless` —
  so are the results of traversals whose steps are related so.
* `SameOk` — two results succeed alike; `mapM_sameOk` — so do traversals whose steps do.
* `Matched` — two results fail with related errors or succeed with what is related; `mapM_matched` —
  so do traversals whose steps do.
* `Together` — two results fail together or succeed with what is related; `mapM_bothWays` — so do
  traversals whose steps do, in whatever order.
* `exists_sublist_forall₂` — what is related to a list restricts to every sublist of it.
* `filterMap_sublist` — a partial function with more values keeps at least as much of a list.
-/

set_option autoImplicit false

namespace BracketFilter

variable {α β ε : Type}

theorem map_ok_iff {f : α → β} {x : Except ε α} {y : β} :
    Except.map f x = .ok y ↔ ∃ a, x = .ok a ∧ f a = y := by
  cases x with
  | error e => simp [Except.map]
  | ok a => simp [Except.map]

theorem map_error_iff {f : α → β} {x : Except ε α} {e : ε} :
    Except.map f x = .error e ↔ x = .error e := by
  cases x with
  | error e' => simp [Except.map]
  | ok a => simp [Except.map]

theorem toOption_eq_some_iff {x : Except ε α} {a : α} : x.toOption = some a ↔ x = .ok a := by
  cases x <;> simp [Except.toOption]

theorem mapM_cons_eq (f : α → Except ε β) (x : α) (xs : List α) :
    (x :: xs).mapM f =
      match f x with
      | .error e => .error e
      | .ok y => (xs.mapM f).map (y :: ·) := by
  rw [List.mapM_cons]
  cases f x with
  | error e => rfl
  | ok y => cases xs.mapM f <;> rfl

/-- **A traversal succeeds exactly if every step does.** -/
theorem mapM_ok_iff {f : α → Except ε β} {xs : List α} {ys : List β} :
    xs.mapM f = .ok ys ↔ List.Forall₂ (fun x y => f x = .ok y) xs ys := by
  induction xs generalizing ys with
  | nil =>
    rw [List.mapM_nil, List.forall₂_nil_left_iff]
    exact ⟨fun h => (Except.ok.inj h).symm, fun h => h ▸ rfl⟩
  | cons x xs ih =>
    rw [mapM_cons_eq, List.forall₂_cons_left_iff]
    cases hx : f x with
    | error e => simp
    | ok y =>
      simp only [map_ok_iff, ih, Except.ok.injEq]
      constructor
      · rintro ⟨rest, hrest, rfl⟩
        exact ⟨y, rest, rfl, hrest, rfl⟩
      · rintro ⟨_, rest, rfl, hrest, rfl⟩
        exact ⟨rest, hrest, rfl⟩

theorem mapM_flatMap_eq {γ : Type} (f : α → Except ε β) (g : γ → List α) (xs : List γ) :
    (xs.flatMap g).mapM f = (xs.mapM fun x => (g x).mapM f).map List.flatten := by
  induction xs with
  | nil => rfl
  | cons x xs ih =>
    rw [List.flatMap_cons, List.mapM_append, ih, mapM_cons_eq]
    cases (g x).mapM f with
    | error e => rfl
    | ok ys => cases xs.mapM fun x => (g x).mapM f <;> rfl

/-! ## Results that are the same unless the first is an excluded error -/

/-- The second result is the first, unless the first is an error of a certain kind. -/
def SameUnless (excluded : ε → Prop) (x x' : Except ε α) : Prop :=
  (∀ e, excluded e → x ≠ .error e) → x' = x

section SameUnless

variable {excluded : ε → Prop}

theorem SameUnless.refl (x : Except ε α) : SameUnless excluded x x := fun _ => rfl

theorem SameUnless.of_excluded {e : ε} (he : excluded e) (x' : Except ε α) :
    SameUnless excluded (.error e) x' := fun h => absurd rfl (h e he)

theorem SameUnless.map {x x' : Except ε α} (h : SameUnless excluded x x') (f : α → β) :
    SameUnless excluded (x.map f) (x'.map f) := by
  intro hx
  rw [h ?_]
  rintro e he rfl
  exact hx e he rfl

/-- Traversals are the same, unless excluded errors stop them, if their steps are. -/
theorem mapM_sameUnless {f f' : α → Except ε β} {xs : List α}
    (h : ∀ x ∈ xs, SameUnless excluded (f x) (f' x)) :
    SameUnless excluded (xs.mapM f) (xs.mapM f') := by
  induction xs with
  | nil => exact .refl _
  | cons x xs ih =>
    rw [List.forall_mem_cons] at h
    rw [mapM_cons_eq, mapM_cons_eq]
    cases hx : f x with
    | error e =>
      intro hnot
      have hsame : f' x = .error e := (h.1 (by simpa [hx] using hnot)).trans hx
      rw [hsame]
    | ok y =>
      have hsame : f' x = .ok y := (h.1 (by simp [hx])).trans hx
      rw [hsame]
      exact (ih h.2).map _

theorem mapM_congr {f f' : α → Except ε β} {xs : List α} (h : ∀ x ∈ xs, f x = f' x) :
    xs.mapM f = xs.mapM f' := by
  have hsame : SameUnless (fun _ : ε => False) (xs.mapM f) (xs.mapM f') :=
    mapM_sameUnless fun x hx _ => (h x hx).symm
  exact (hsame (by simp)).symm

end SameUnless

/-! ## Related lists -/

theorem forall₂_and_mem {R : α → β → Prop} {xs : List α} {ys : List β}
    (h : List.Forall₂ R xs ys) : List.Forall₂ (fun x y => x ∈ xs ∧ R x y) xs ys := by
  induction h with
  | nil => exact .nil
  | cons hx _ ih =>
    exact .cons ⟨List.mem_cons_self, hx⟩ (ih.imp fun _ _ h => ⟨List.mem_cons_of_mem _ h.1, h.2⟩)

theorem exists_of_mem_forall₂ {R : α → β → Prop} {xs : List α} {ys : List β}
    (h : List.Forall₂ R xs ys) {x : α} (hx : x ∈ xs) : ∃ y ∈ ys, R x y := by
  induction h with
  | nil => cases hx
  | cons hr _ ih =>
    rcases List.mem_cons.1 hx with rfl | hx
    · exact ⟨_, List.mem_cons_self, hr⟩
    · obtain ⟨y, hy, hrel⟩ := ih hx
      exact ⟨y, List.mem_cons_of_mem _ hy, hrel⟩

theorem exists_forall₂_of_forall_mem {R : α → β → Prop} {xs : List α}
    (h : ∀ x ∈ xs, ∃ y, R x y) : ∃ ys, List.Forall₂ R xs ys := by
  induction xs with
  | nil => exact ⟨[], .nil⟩
  | cons x xs ih =>
    rw [List.forall_mem_cons] at h
    obtain ⟨y, hy⟩ := h.1
    obtain ⟨ys, hys⟩ := ih h.2
    exact ⟨y :: ys, .cons hy hys⟩

theorem exists_sublist_forall₂ {R : α → β → Prop} {xs xs' : List α} {ys' : List β}
    (hsub : xs.Sublist xs') (h : List.Forall₂ R xs' ys') :
    ∃ ys, ys.Sublist ys' ∧ List.Forall₂ R xs ys := by
  induction hsub generalizing ys' with
  | slnil => exact ⟨ys', List.Sublist.refl _, h⟩
  | cons x _ ih =>
    obtain ⟨y, rest, _, hrest, rfl⟩ := List.forall₂_cons_left_iff.1 h
    obtain ⟨ys, hys, hrel⟩ := ih hrest
    exact ⟨ys, hys.cons y, hrel⟩
  | cons_cons x _ ih =>
    obtain ⟨y, rest, hx, hrest, rfl⟩ := List.forall₂_cons_left_iff.1 h
    obtain ⟨ys, hys, hrel⟩ := ih hrest
    exact ⟨y :: ys, hys.cons_cons y, .cons hx hrel⟩

theorem filterMap_sublist {f g : α → Option β} (h : ∀ x y, f x = some y → g x = some y)
    (xs : List α) : (xs.filterMap f).Sublist (xs.filterMap g) := by
  induction xs with
  | nil => exact List.Sublist.refl _
  | cons x xs ih =>
    cases hf : f x with
    | some y =>
      rw [List.filterMap_cons_some hf, List.filterMap_cons_some (h x y hf)]
      exact ih.cons_cons y
    | none =>
      rw [List.filterMap_cons_none hf]
      refine ih.trans ?_
      cases hg : g x with
      | none => rw [List.filterMap_cons_none hg]
      | some y =>
        rw [List.filterMap_cons_some hg]
        exact List.sublist_cons_self y _

/-! ## Where a traversal fails -/

theorem exists_mapM_ok_iff {f : α → Except ε β} {xs : List α} :
    (∃ ys, xs.mapM f = .ok ys) ↔ ∀ x ∈ xs, ∃ y, f x = .ok y := by
  constructor
  · rintro ⟨ys, hys⟩ x hx
    obtain ⟨y, -, hy⟩ := exists_of_mem_forall₂ (mapM_ok_iff.1 hys) hx
    exact ⟨y, hy⟩
  · intro hall
    obtain ⟨ys, hys⟩ := exists_forall₂_of_forall_mem hall
    exact ⟨ys, mapM_ok_iff.2 hys⟩

/-- A traversal that fails does so at some step, behind steps that succeed. -/
theorem exists_of_mapM_error {f : α → Except ε β} {xs : List α} {e : ε}
    (h : xs.mapM f = .error e) :
    ∃ (i : Nat) (x : α), xs[i]? = some x ∧ f x = .error e ∧
      ∀ j < i, ∀ y : α, xs[j]? = some y → ∃ z, f y = .ok z := by
  induction xs with
  | nil => cases h
  | cons x xs ih =>
    rw [mapM_cons_eq] at h
    cases hx : f x with
    | error e' =>
      rw [hx] at h
      cases h
      exact ⟨0, x, rfl, hx, fun j hj => absurd hj (Nat.not_lt_zero j)⟩
    | ok y =>
      simp only [hx] at h
      obtain ⟨i, x', hx', hfail, hbefore⟩ := ih (map_error_iff.1 h)
      refine ⟨i + 1, x', hx', hfail, fun j hj y' hy' => ?_⟩
      cases j with
      | zero =>
        cases hy'
        exact ⟨y, hx⟩
      | succ j => exact hbefore j (by omega) y' hy'

theorem mapM_error_iff {f : α → Except ε β} {xs : List α} {e : ε} :
    xs.mapM f = .error e ↔ ∃ before x after, xs = before ++ x :: after ∧ f x = .error e ∧
      ∀ y ∈ before, ∃ z, f y = .ok z := by
  constructor
  · intro h
    obtain ⟨i, x, hx, hfail, hbefore⟩ := exists_of_mapM_error h
    obtain ⟨hi, hget⟩ := List.getElem?_eq_some_iff.1 hx
    refine ⟨xs.take i, x, xs.drop (i + 1), ?_, hfail, fun y hy => ?_⟩
    · rw [← hget, ← List.drop_eq_getElem_cons hi, List.take_append_drop]
    · obtain ⟨j, hj, hy⟩ := List.mem_take_iff_getElem.1 hy
      exact hbefore j (by omega) y (List.getElem?_eq_some_iff.2 ⟨_, hy⟩)
  · rintro ⟨before, x, after, rfl, hfail, hbefore⟩
    obtain ⟨ys, hys⟩ := exists_mapM_ok_iff.2 hbefore
    rw [List.mapM_append, hys, mapM_cons_eq, hfail]
    rfl

theorem mapM_append_of_error {f : α → Except ε β} {xs : List α} {e : ε}
    (h : xs.mapM f = .error e) (ys : List α) : (xs ++ ys).mapM f = .error e := by
  rw [List.mapM_append, h]
  rfl

/-! ## Results that succeed alike -/

/-- The results succeed alike: if one of them does, so does the other, with the same. Their errors
may differ. -/
def SameOk (x x' : Except ε α) : Prop := ∀ a, x = .ok a ↔ x' = .ok a

theorem SameOk.refl (x : Except ε α) : SameOk x x := fun _ => Iff.rfl

theorem SameOk.errors (e e' : ε) : SameOk (.error e : Except ε α) (.error e') := fun _ => by simp

theorem SameOk.map {x x' : Except ε α} (h : SameOk x x') (f : α → β) :
    SameOk (x.map f) (x'.map f) := by
  intro b
  simp only [map_ok_iff, h _]

theorem mapM_sameOk {f f' : α → Except ε β} {xs : List α} (h : ∀ x ∈ xs, SameOk (f x) (f' x)) :
    SameOk (xs.mapM f) (xs.mapM f') := by
  intro ys
  rw [mapM_ok_iff, mapM_ok_iff]
  constructor
  · intro hys
    exact (forall₂_and_mem hys).imp fun x y hxy => (h x hxy.1 y).1 hxy.2
  · intro hys
    exact (forall₂_and_mem hys).imp fun x y hxy => (h x hxy.1 y).2 hxy.2

/-! ## Results that match -/

/-- Both results fail, with errors that one relation relates, or both succeed, with what another
relates. -/
inductive Matched {ε' : Type} (E : ε → ε' → Prop) (R : α → β → Prop) :
    Except ε α → Except ε' β → Prop
  | ok {a : α} {b : β} (related : R a b) : Matched E R (.ok a) (.ok b)
  | error {e : ε} {e' : ε'} (related : E e e') : Matched E R (.error e) (.error e')

section Matched

variable {γ δ ε' : Type} {E : ε → ε' → Prop} {R : α → β → Prop}

theorem Matched.map {S : γ → δ → Prop} {x : Except ε α} {y : Except ε' β} (h : Matched E R x y)
    {f : α → γ} {g : β → δ} (imp : ∀ a b, R a b → S (f a) (g b)) :
    Matched E S (x.map f) (y.map g) := by
  cases h with
  | ok related => exact .ok (imp _ _ related)
  | error related => exact .error related

theorem Matched.imp {E' : ε → ε' → Prop} {R' : α → β → Prop} {x : Except ε α} {y : Except ε' β}
    (h : Matched E R x y) (errors : ∀ e e', E e e' → E' e e') (results : ∀ a b, R a b → R' a b) :
    Matched E' R' x y := by
  cases h with
  | ok related => exact .ok (results _ _ related)
  | error related => exact .error (errors _ _ related)

theorem Matched.exists_of_ok {a : α} {y : Except ε' β}
    (h : Matched E R (.ok a : Except ε α) y) : ∃ b, y = .ok b ∧ R a b := by
  cases h with
  | ok related => exact ⟨_, rfl, related⟩

/-- Results match if both match a third. -/
theorem Matched.join {ζ : Type} {E₁ : ε → ζ → Prop} {E₂ : ε' → ζ → Prop} {R₁ : α → γ → Prop}
    {R₂ : β → γ → Prop} {x : Except ε α} {y : Except ε' β} {z : Except ζ γ}
    (h₁ : Matched E₁ R₁ x z) (h₂ : Matched E₂ R₂ y z)
    (errors : ∀ e₁ e₂ e, E₁ e₁ e → E₂ e₂ e → E e₁ e₂)
    (results : ∀ a b c, R₁ a c → R₂ b c → R a b) : Matched E R x y := by
  cases h₁ with
  | ok related =>
    cases h₂ with
    | ok related' => exact .ok (results _ _ _ related related')
  | error related =>
    cases h₂ with
    | error related' => exact .error (errors _ _ _ related related')

theorem mapM_matched {f : γ → Except ε α} {f' : γ → Except ε' β} {xs : List γ}
    (h : ∀ x ∈ xs, Matched E R (f x) (f' x)) :
    Matched E (List.Forall₂ R) (xs.mapM f) (xs.mapM f') := by
  induction xs with
  | nil => exact .ok .nil
  | cons x xs ih =>
    rw [List.forall_mem_cons] at h
    rw [mapM_cons_eq, mapM_cons_eq]
    generalize f x = first, f' x = first' at h
    cases h.1 with
    | error related => exact .error related
    | ok related => exact (ih h.2).map fun _ _ hrest => .cons related hrest

theorem mapM_matched_image {f : γ → Except ε α} {f' : γ → Except ε' β} {xs : List γ} {g : α → β}
    (h : ∀ x ∈ xs, Matched E (fun a b => g a = b) (f x) (f' x)) :
    Matched E (fun as bs => as.map g = bs) (xs.mapM f) (xs.mapM f') := by
  have himage (as : List α) (bs : List β) (each : List.Forall₂ (fun a b => g a = b) as bs) :
      as.map g = bs := by
    rwa [← List.forall₂_map_left_iff (R := Eq), List.forall₂_eq_eq_eq] at each
  exact (mapM_matched h).imp (fun _ _ he => he) himage

end Matched

/-! ## Results that succeed together -/

/-- Both results fail, or both succeed, with what a relation relates. Their errors may differ. -/
inductive Together (R : α → β → Prop) : Except ε α → Except ε β → Prop
  | ok {a : α} {b : β} (related : R a b) : Together R (.ok a) (.ok b)
  | errors (e e' : ε) : Together R (.error e) (.error e')

/-- Each member of a list is related to one of the other, in both directions. -/
def BothWays (R : α → β → Prop) (xs : List α) (ys : List β) : Prop :=
  (∀ x ∈ xs, ∃ y ∈ ys, R x y) ∧ ∀ y ∈ ys, ∃ x ∈ xs, R x y

section Together

variable {γ δ : Type} {R : α → β → Prop}

/-- To succeed together is to match, whatever the errors. -/
theorem together_iff_matched {x : Except ε α} {y : Except ε β} :
    Together R x y ↔ Matched (fun _ _ => True) R x y := by
  constructor
  · rintro (related | ⟨e, e'⟩)
    · exact .ok related
    · exact .error trivial
  · rintro (related | -)
    · exact .ok related
    · exact .errors _ _

theorem Together.map {S : γ → δ → Prop} {x : Except ε α} {y : Except ε β} (h : Together R x y)
    {f : α → γ} {g : β → δ} (imp : ∀ a b, R a b → S (f a) (g b)) :
    Together S (x.map f) (y.map g) :=
  together_iff_matched.2 ((together_iff_matched.1 h).map imp)

theorem Together.ok_iff {x : Except ε α} {y : Except ε β} (h : Together R x y) :
    (∃ a, x = .ok a) ↔ ∃ b, y = .ok b := by
  cases h with
  | ok related => simp
  | errors e e' => simp

theorem Together.related {x : Except ε α} {y : Except ε β} (h : Together R x y) {a : α} {b : β}
    (hx : x = .ok a) (hy : y = .ok b) : R a b := by
  cases h with
  | ok related =>
    cases hx
    cases hy
    exact related
  | errors e e' => cases hx

theorem Together.of_ok_iff {x : Except ε α} {y : Except ε β}
    (ok : (∃ a, x = .ok a) ↔ ∃ b, y = .ok b) (related : ∀ a b, x = .ok a → y = .ok b → R a b) :
    Together R x y := by
  cases x with
  | ok a =>
    obtain ⟨b, rfl⟩ := ok.1 ⟨a, rfl⟩
    exact .ok (related a b rfl rfl)
  | error e =>
    cases y with
    | error e' => exact .errors e e'
    | ok b =>
      obtain ⟨a, ha⟩ := ok.2 ⟨b, rfl⟩
      cases ha

/-- Results that succeed alike succeed together, with what is related to itself. -/
theorem SameOk.together {R : α → α → Prop} {x x' : Except ε α} (h : SameOk x x')
    (refl : ∀ a, R a a) : Together R x x' := by
  refine .of_ok_iff (exists_congr h) fun a b hx hx' => ?_
  cases ((h a).1 hx).symm.trans hx'
  exact refl a

theorem mapM_together {f : γ → Except ε α} {f' : γ → Except ε β} {xs : List γ}
    (h : ∀ x ∈ xs, Together R (f x) (f' x)) :
    Together (List.Forall₂ R) (xs.mapM f) (xs.mapM f') :=
  together_iff_matched.2 (mapM_matched fun x hx => together_iff_matched.1 (h x hx))

/-- Traversals of lists in different orders succeed together if their steps do, each with one of the
other list. -/
theorem mapM_bothWays {f : γ → Except ε α} {f' : δ → Except ε β} {xs : List γ} {xs' : List δ}
    (h : BothWays (fun x x' => Together R (f x) (f' x')) xs xs') :
    Together (BothWays R) (xs.mapM f) (xs'.mapM f') := by
  obtain ⟨hthere, hback⟩ := h
  refine .of_ok_iff ?_ fun ys ys' hys hys' => ?_
  · rw [exists_mapM_ok_iff, exists_mapM_ok_iff]
    constructor
    · intro hall x' hx'
      obtain ⟨x, hx, htogether⟩ := hback x' hx'
      exact htogether.ok_iff.1 (hall x hx)
    · intro hall x hx
      obtain ⟨x', hx', htogether⟩ := hthere x hx
      exact htogether.ok_iff.2 (hall x' hx')
  · rw [mapM_ok_iff] at hys hys'
    constructor
    · intro y hy
      obtain ⟨x, hx, hxy⟩ := exists_of_mem_forall₂ hys.flip hy
      obtain ⟨x', hx', htogether⟩ := hthere x hx
      obtain ⟨y', hy', hxy'⟩ := exists_of_mem_forall₂ hys' hx'
      exact ⟨y', hy', htogether.related hxy hxy'⟩
    · intro y' hy'
      obtain ⟨x', hx', hxy'⟩ := exists_of_mem_forall₂ hys'.flip hy'
      obtain ⟨x, hx, htogether⟩ := hback x' hx'
      obtain ⟨y, hy, hxy⟩ := exists_of_mem_forall₂ hys hx
      exact ⟨y, hy, htogether.related hxy hxy'⟩

end Together

end BracketFilter
