import Mathlib.Data.List.Forall2
import Mathlib.Data.List.Nodup

/-!
# Lists whose members have sources

* `Accounted asks items` — every member of a list comes from a source of its own, and every source
  that asks for a member has it in the list.

The lemmas build such lists from smaller ones: `append`, `flatten`, `map`, and `ofAnswers` for the
answers to a list of questions.
-/

set_option autoImplicit false

namespace BracketFilter

variable {α β γ : Type}

/-- The items can be labelled in their order with sources, no source twice, so that a source labels
an item exactly if it asks for it. -/
def Accounted (asks : α → β → Prop) (items : List β) : Prop :=
  ∃ sources : List (α × β), sources.map Prod.snd = items ∧ (sources.map Prod.fst).Nodup ∧
    ∀ a b, (a, b) ∈ sources ↔ asks a b

namespace Accounted

variable {asks asks' : α → β → Prop} {items items' : List β}

theorem congr (h : Accounted asks items) (same : ∀ a b, asks a b ↔ asks' a b) :
    Accounted asks' items := by
  obtain ⟨sources, hitems, hnodup, hmem⟩ := h
  exact ⟨sources, hitems, hnodup, fun a b => (hmem a b).trans (same a b)⟩

theorem nil (h : ∀ a b, ¬ asks a b) : Accounted asks [] :=
  ⟨[], rfl, List.nodup_nil, fun a b => by simp [h a b]⟩

theorem single (a₀ : α) (b₀ : β) : Accounted (fun a b => a = a₀ ∧ b = b₀) [b₀] :=
  ⟨[(a₀, b₀)], rfl, List.nodup_singleton a₀, fun a b => by simp⟩

/-- Two lists are joined if no source asks for members of both. -/
theorem append (h : Accounted asks items) (h' : Accounted asks' items')
    (apart : ∀ a b b', asks a b → ¬ asks' a b') :
    Accounted (fun a b => asks a b ∨ asks' a b) (items ++ items') := by
  obtain ⟨sources, rfl, hnodup, hmem⟩ := h
  obtain ⟨sources', rfl, hnodup', hmem'⟩ := h'
  refine ⟨sources ++ sources', by simp, ?_, fun a b => by simp [hmem, hmem']⟩
  rw [List.map_append, List.nodup_append]
  refine ⟨hnodup, hnodup', ?_⟩
  rintro a ha _ ha' rfl
  obtain ⟨⟨_, b⟩, hb, rfl⟩ := List.mem_map.1 ha
  obtain ⟨⟨_, b'⟩, hb', hsame⟩ := List.mem_map.1 ha'
  simp only at hsame
  subst hsame
  exact apart _ b b' ((hmem _ _).1 hb) ((hmem' _ _).1 hb')

theorem flatten {asksOf : γ → α → β → Prop} {xs : List γ} {parts : List (List β)}
    (each : List.Forall₂ (fun x part => Accounted (asksOf x) part) xs parts)
    (apart : xs.Pairwise fun x y => ∀ a b b', asksOf x a b → ¬ asksOf y a b') :
    Accounted (fun a b => ∃ x ∈ xs, asksOf x a b) parts.flatten := by
  induction each with
  | nil => exact nil fun a b => by simp
  | cons hx _ ih =>
    rw [List.pairwise_cons] at apart
    refine ((hx.append (ih apart.2) ?_).congr fun a b => by simp)
    rintro a b b' hb ⟨y, hy, hb'⟩
    exact apart.1 y hy a b b' hb hb'

theorem map (h : Accounted asks items) (f : β → γ) :
    Accounted (fun a c => ∃ b, asks a b ∧ c = f b) (items.map f) := by
  obtain ⟨sources, rfl, hnodup, hmem⟩ := h
  refine ⟨sources.map fun s => (s.1, f s.2), by simp, by simpa [Function.comp_def] using hnodup, ?_⟩
  intro a c
  simp only [List.mem_map, Prod.exists, Prod.mk.injEq, hmem]
  constructor
  · rintro ⟨a', b, hb, rfl, rfl⟩
    exact ⟨b, hb, rfl⟩
  · rintro ⟨b, hb, rfl⟩
    exact ⟨a, b, hb, rfl, rfl⟩

/-- Questions that have one result each account for the results that are answers. -/
theorem ofAnswers {Result : α × γ → Option β → Prop}
    (unique : ∀ question r r', Result question r → Result question r' → r = r')
    {questions : List (α × γ)} {results : List (Option β)}
    (each : List.Forall₂ Result questions results) (nodup : (questions.map Prod.fst).Nodup) :
    Accounted (fun a b => ∃ c, (a, c) ∈ questions ∧ Result (a, c) (some b))
      (results.filterMap id) := by
  induction each with
  | nil => exact nil fun a b => by simp
  | @cons question result questions results hresult _ ih =>
    obtain ⟨a₀, c₀⟩ := question
    rw [List.map_cons, List.nodup_cons] at nodup
    have ih := ih nodup.2
    cases result with
    | none =>
      rw [List.filterMap_cons_none rfl]
      refine ih.congr fun a b => ?_
      constructor
      · rintro ⟨c, hc, hb⟩
        exact ⟨c, List.mem_cons_of_mem _ hc, hb⟩
      · rintro ⟨c, hc, hb⟩
        rcases List.mem_cons.1 hc with heq | hc
        · cases heq
          cases unique _ _ _ hresult hb
        · exact ⟨c, hc, hb⟩
    | some b₀ =>
      show Accounted _ ([b₀] ++ results.filterMap id)
      refine ((single a₀ b₀).append ih ?_).congr fun a b => ?_
      · rintro a b b' ⟨rfl, rfl⟩ ⟨c, hc, -⟩
        exact nodup.1 (List.mem_map.2 ⟨_, hc, rfl⟩)
      · constructor
        · rintro (⟨rfl, rfl⟩ | ⟨c, hc, hb⟩)
          · exact ⟨c₀, List.mem_cons_self, hresult⟩
          · exact ⟨c, List.mem_cons_of_mem _ hc, hb⟩
        · rintro ⟨c, hc, hb⟩
          rcases List.mem_cons.1 hc with heq | hc
          · cases heq
            exact .inl ⟨rfl, Option.some.inj (unique _ _ _ hb hresult)⟩
          · exact .inr ⟨c, hc, hb⟩

end Accounted

end BracketFilter
