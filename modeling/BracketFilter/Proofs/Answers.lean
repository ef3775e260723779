import BracketFilter.Proofs.BindingSteps
import Mathlib.Data.List.TakeWhile

/-!
# What a raw value asks for

* `Target` — what a value is given for: a parameter, or an operation on a leaf or on one of its
  members, of a kind.
* `Item` — what a tree holds for it: the value of the parameter, or the operation with its operands.
* `Answers` — the item that a raw value asks for at a target.
* `Target.ListsNothing` — a membership operation whose value holds nothing but commas and spaces.

Principal results: `answers_iff_of_read` — a raw value that is read for an operation is read as what
it asks for; `answered_of_read` — it asks for something unless it lists nothing.
-/

set_option autoImplicit false

namespace BracketFilter

open BracketFilter.Text

/-- What a value is given for. -/
inductive Target where
  | parameter (kind : Kind)
  | operation (member : Option String) (kind : Kind) (operation : Operation)

/-- What stands at a place of a tree. -/
inductive Item where
  | parameter (value : Value)
  | operation (applied : Applied)
  deriving DecidableEq

/-- The item that a raw value asks for at a target. -/
inductive Answers (coercer : Coercer) : Target → String → Item → Prop
  | parameter {kind : Kind} {raw : String} {value : Value} (read : coercer raw kind = .ok value) :
      Answers coercer (.parameter kind) raw (.parameter value)
  | comparison {member : Option String} {kind : Kind} {op : Operation} {raw : String}
      {value : Value} (family : op.family = .comparison) (read : coercer raw kind = .ok value) :
      Answers coercer (.operation member kind op) raw (.operation ⟨op, [value], false, member⟩)
  | text {member : Option String} {kind : Kind} {op : Operation} {raw : String}
      (family : op.family = .text) (isText : kind.isText = true) :
      Answers coercer (.operation member kind op) raw
        (.operation ⟨op, [.string raw], false, member⟩)
  | membership {member : Option String} {kind : Kind} {op : Operation} {raw : String}
      {values : List Value} (family : op.family = .membership) (listed : values ≠ [])
      (read : List.Forall₂ (fun token value => coercer token kind = .ok value) (Leaf.tokens raw)
        values) :
      Answers coercer (.operation member kind op) raw (.operation ⟨op, values, true, member⟩)

/-- A membership operation whose value holds nothing but commas and spaces. -/
inductive Target.ListsNothing : Target → String → Prop
  | mk {member : Option String} {kind : Kind} {op : Operation} {raw : String}
      (family : op.family = .membership) (blank : ∀ c ∈ raw.toList, c = ',' ∨ c = ' ') :
      ListsNothing (.operation member kind op) raw

/-! ## Lists of tokens -/

theorem Text.trimBoth_eq_nil_iff {inClass : Char → Bool} {cs : List Char} :
    trimBoth inClass cs = [] ↔ ∀ c ∈ cs, inClass c = true := by
  unfold trimBoth
  rw [List.reverse_eq_nil_iff, List.dropWhile_eq_nil_iff]
  constructor
  · intro h
    have hnil : cs.dropWhile inClass = [] := by
      cases hdrop : cs.dropWhile inClass with
      | nil => rfl
      | cons d rest =>
        have hd : inClass d = true := h d (by simp [hdrop])
        have hfirst := List.head?_dropWhile_not inClass cs
        rw [hdrop] at hfirst
        simp only [List.head?_cons] at hfirst
        rw [hd] at hfirst
        cases hfirst
    exact List.dropWhile_eq_nil_iff.1 hnil
  · intro h c hc
    exact h c ((List.dropWhile_sublist inClass).subset (List.mem_reverse.1 hc))

/-- What holds of all pieces between separators holds of all characters but the separators. -/
theorem Text.forall_mem_splitOn_iff {P : Char → Prop} {sep : Char} {cs : List Char} :
    (∀ piece ∈ cs.splitOn sep, ∀ c ∈ piece, P c) ↔ ∀ c ∈ cs, c = sep ∨ P c := by
  unfold List.splitOn
  induction cs with
  | nil => simp
  | cons c cs ih =>
    obtain ⟨first, others, hsplit⟩ :=
      List.exists_cons_of_ne_nil (List.splitOnP_ne_nil (· == sep) cs)
    rw [List.splitOnP_cons_eq_if_modifyHead]
    rw [hsplit] at ih ⊢
    by_cases hc : c = sep
    · subst hc
      simp only [beq_self_eq_true, if_true, List.forall_mem_cons, true_or, true_and]
      simpa using ih
    · have hbeq : (c == sep) = false := by simpa using hc
      simp only [hbeq, Bool.false_eq_true, if_false, List.modifyHead_cons, List.forall_mem_cons, hc,
        false_or, ← ih, and_assoc]

theorem Leaf.tokens_eq_nil_iff {raw : String} :
    tokens raw = [] ↔ ∀ c ∈ raw.toList, c = ',' ∨ c = ' ' := by
  rw [← Text.forall_mem_splitOn_iff]
  unfold tokens
  rw [List.map_eq_nil_iff, List.filter_eq_nil_iff]
  simp only [List.forall_mem_map, decide_eq_true_eq, ne_eq, not_not, Text.trimBoth_eq_nil_iff,
    beq_iff_eq]

/-! ## Reading a raw value -/

theorem Site.coerce_ok_iff {site : Site} {member : Option String} {kind : Kind} {raw : String}
    {value : Value} :
    site.coerce member kind raw = .ok value ↔ site.coercer raw kind = .ok value := by
  unfold Site.coerce
  cases site.coercer raw kind <;> simp

/-- What has been read for an operation is an operation, unless nothing was listed. -/
theorem Leaf.read_ok_cases {site : Site} {member : Option String} {kind : Kind} {op : Operation}
    {raw : String} {answer : Option Applied} (h : read site member kind op raw = .ok answer) :
    (∃ applied, answer = some applied ∧
        Answers site.coercer (.operation member kind op) raw (.operation applied)) ∨
      answer = none ∧ op.family = .membership ∧ tokens raw = [] := by
  unfold read at h
  split at h
  · rename_i hfamily
    split at h
    · cases h
    · rename_i value hvalue
      cases h
      exact .inl ⟨_, rfl, .comparison hfamily (Site.coerce_ok_iff.1 hvalue)⟩
  · rename_i hfamily
    split at h
    · rename_i htext
      cases h
      exact .inl ⟨_, rfl, .text hfamily htext⟩
    · cases h
  · rename_i hfamily
    simp only at h
    split at h
    · cases h
    · split at h
      · rename_i hnil
        cases h
        exact .inr ⟨rfl, hfamily, hnil⟩
      · rename_i hsome
        split at h
        · cases h
        · rename_i values hvalues
          cases h
          have hread := mapM_ok_iff.1 hvalues
          refine .inl ⟨_, rfl, .membership hfamily ?_ (hread.imp fun _ _ => Site.coerce_ok_iff.1)⟩
          rintro rfl
          exact hsome (List.forall₂_nil_right_iff.1 hread)

theorem Answers.unique {coercer : Coercer} {target : Target} {raw : String} {item item' : Item}
    (h : Answers coercer target raw item) (h' : Answers coercer target raw item') :
    item = item' := by
  have clash {a b : Family} {op : Operation} (ha : op.family = a) (hb : op.family = b)
      (hab : a ≠ b) : False := hab (ha.symm.trans hb)
  cases h with
  | parameter read =>
    cases h' with
    | parameter read' => rw [Except.ok.inj (read.symm.trans read')]
  | comparison family read =>
    cases h' with
    | comparison _ read' => rw [Except.ok.inj (read.symm.trans read')]
    | text family' => exact (clash family family' (by decide)).elim
    | membership family' => exact (clash family family' (by decide)).elim
  | text family =>
    cases h' with
    | comparison family' => exact (clash family family' (by decide)).elim
    | text => rfl
    | membership family' => exact (clash family family' (by decide)).elim
  | membership family _ read =>
    cases h' with
    | comparison family' => exact (clash family family' (by decide)).elim
    | text family' => exact (clash family family' (by decide)).elim
    | membership _ _ read' =>
      have hsame := List.right_unique_forall₂' (fun _ _ _ hb hc => Except.ok.inj (hb.symm.trans hc))
        read read'
      rw [hsame]

/-- **A raw value that is read for an operation is read as what it asks for.** -/
theorem answers_iff_of_read {site : Site} {member : Option String} {kind : Kind} {op : Operation}
    {raw : String} {answer : Option Applied}
    (h : Leaf.read site member kind op raw = .ok answer) {item : Item} :
    Answers site.coercer (.operation member kind op) raw item ↔
      ∃ applied, answer = some applied ∧ item = .operation applied := by
  rcases Leaf.read_ok_cases h with ⟨applied, rfl, hasks⟩ | ⟨rfl, hfamily, hnil⟩
  · constructor
    · intro hitem
      exact ⟨applied, rfl, hitem.unique hasks⟩
    · rintro ⟨_, hsome, rfl⟩
      cases hsome
      exact hasks
  · constructor
    · intro hitem
      cases hitem with
      | comparison family => rw [family] at hfamily; cases hfamily
      | text family => rw [family] at hfamily; cases hfamily
      | membership _ listed read =>
        rw [hnil, List.forall₂_nil_left_iff] at read
        exact absurd read listed
    · rintro ⟨_, hsome, -⟩
      cases hsome

/-- **A raw value that is read for an operation asks for something, unless it lists nothing.** -/
theorem answered_of_read {site : Site} {member : Option String} {kind : Kind} {op : Operation}
    {raw : String} {answer : Option Applied}
    (h : Leaf.read site member kind op raw = .ok answer) :
    (∃ item, Answers site.coercer (.operation member kind op) raw item) ∨
      (Target.operation member kind op).ListsNothing raw := by
  rcases Leaf.read_ok_cases h with ⟨applied, -, hasks⟩ | ⟨-, hfamily, hnil⟩
  · exact .inl ⟨_, hasks⟩
  · exact .inr ⟨hfamily, Leaf.tokens_eq_nil_iff.1 hnil⟩

end BracketFilter
