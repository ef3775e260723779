import BracketFilter.Proofs.BindingReads
import BracketFilter.Proofs.FirstFault

/-!
# The faults of a query

What is wrong with a query for a filter, said without a run of the binding.

* `Position`, `Visited` — the shapes that a query asks for, within the limits, each with the path
  and the depth at which it stands.
* `Refused`, `OwnFault`, `FaultAt` — what is wrong with a value, with a field, and with a position
  apart from the positions below it.
* `Fault` — what is wrong at the visited positions.

A fault has a place: the index of the field, then, as far as there is one, the index of the list
entry, of the operand, of the lookup and of the listed value, or the place below the field.

Principal result: `fault_iff` — the faults at a position and below it are those of its fields.
-/

set_option autoImplicit false

namespace BracketFilter

open BracketFilter.Text

variable {ι : Type}

/-! ## Positions -/

/-- A shape that is asked for at a path, at a depth below the root. -/
structure Position (ι : Type) where
  shape : Shape ι
  path : Path
  depth : Nat

/-- The path of a field. -/
def Position.fieldPath (pos : Position ι) (field : FieldShape ι) : Path :=
  pos.path ++ [.named field.name]

/-- The positions that a field opens, at a path and a depth: an embedded filter if it is mentioned,
and the entries of a list up to the first that is not. -/
inductive Opens (limits : Limits) (shapes : ι → Shape ι) (q : Query) (here : Path) (depth : Nat) :
    Role ι → List Nat → Position ι → Prop
  | nested {target : ι} (within : depth < limits.maxDepth) (mentioned : q.Mentions here) :
      Opens limits shapes q here depth (.nested target) [] ⟨shapes target, here, depth + 1⟩
  | list {target : ι} {i : Nat} (within : depth < limits.maxDepth)
      (mentioned : ∀ j ≤ i, q.Mentions (here ++ [.index j])) (short : i < limits.maxListItems) :
      Opens limits shapes q here depth (.list target) [i]
        ⟨shapes target, here ++ [.index i], depth + 1⟩

/-- The positions right below a position. -/
def Below (limits : Limits) (shapes : ι → Shape ι) (q : Query) (pos : Position ι) (place : List Nat)
    (pos' : Position ι) : Prop :=
  ∃ n field rest, pos.shape.fields[n]? = some field ∧ place = n :: rest ∧
    Opens limits shapes q (pos.fieldPath field) pos.depth field.role rest pos'

/-- The positions that a query asks for, from a root on. -/
inductive Visited (limits : Limits) (shapes : ι → Shape ι) (q : Query) (root : Position ι) :
    List Nat → Position ι → Prop
  | root : Visited limits shapes q root [] root
  | down {place move : List Nat} {pos pos' : Position ι}
      (visited : Visited limits shapes q root place pos)
      (step : Below limits shapes q pos move pos') :
      Visited limits shapes q root (place ++ move) pos'

/-! ## Faults -/

/-- What is wrong with a raw value for an operation on an operand of a kind. -/
inductive Refused (site : Site) (member : Option String) (kind : Kind) (op : Operation)
    (raw : String) : List Nat → BindError → Prop
  | comparison {source : CoercionError} (family : op.family = .comparison)
      (refused : site.coercer raw kind = .error source) :
      Refused site member kind op raw [] (.coercion (site.target member) source)
  | text (family : op.family = .text) (other : kind ≠ .string) :
      Refused site member kind op raw [] (.unsupportedOperation (site.target member) op kind)
  | tooMany (family : op.family = .membership)
      (many : site.maxInValues < (Leaf.tokens raw).length) :
      Refused site member kind op raw []
        (site.tooManyValues member op (Leaf.tokens raw).length)
  | token {i : Nat} {token : String} {source : CoercionError} (family : op.family = .membership)
      (listed : (Leaf.tokens raw)[i]? = some token)
      (refused : site.coercer token kind = .error source) :
      Refused site member kind op raw [i] (.coercion (site.target member) source)

section Refused

variable {site : Site} {member : Option String} {kind : Kind} {op : Operation} {raw : String}
  {place : List Nat} {e : BindError}

theorem refused_comparison_iff (family : op.family = .comparison) :
    Refused site member kind op raw place e ↔ place = [] ∧
      ∃ source, site.coercer raw kind = .error source ∧
        e = .coercion (site.target member) source := by
  constructor
  · rintro (⟨-, refused⟩ | ⟨family', -⟩ | ⟨family', -⟩ | ⟨family', -, -⟩)
    · exact ⟨rfl, _, refused, rfl⟩
    all_goals simp [family] at family'
  · rintro ⟨rfl, source, refused, rfl⟩
    exact .comparison family refused

theorem refused_text_iff (family : op.family = .text) :
    Refused site member kind op raw place e ↔
      kind ≠ .string ∧ place = [] ∧ e = .unsupportedOperation (site.target member) op kind := by
  constructor
  · rintro (⟨family', -⟩ | ⟨-, other⟩ | ⟨family', -⟩ | ⟨family', -, -⟩)
    · simp [family] at family'
    · exact ⟨other, rfl, rfl⟩
    all_goals simp [family] at family'
  · rintro ⟨other, rfl, rfl⟩
    exact .text family other

theorem refused_membership_iff (family : op.family = .membership) :
    Refused site member kind op raw place e ↔
      site.maxInValues < (Leaf.tokens raw).length ∧ place = [] ∧
          e = site.tooManyValues member op (Leaf.tokens raw).length ∨
        ∃ i token source, (Leaf.tokens raw)[i]? = some token ∧ place = [i] ∧
          site.coercer token kind = .error source ∧ e = .coercion (site.target member) source := by
  constructor
  · rintro (⟨family', -⟩ | ⟨family', -⟩ | ⟨-, many⟩ | ⟨-, listed, refused⟩)
    · simp [family] at family'
    · simp [family] at family'
    · exact .inl ⟨many, rfl, rfl⟩
    · exact .inr ⟨_, _, _, listed, rfl, refused, rfl⟩
  · rintro (⟨many, rfl, rfl⟩ | ⟨i, token, source, listed, rfl, refused, rfl⟩)
    · exact .tooMany family many
    · exact .token family listed refused

end Refused

/-- What is wrong with a field, apart from the positions that it opens. -/
inductive OwnFault (b : Binder) (q : Query) (here : Path) (depth : Nat) :
    Role ι → List Nat → BindError → Prop
  | nestedTooDeep {target : ι} (mentioned : q.Mentions here) (deep : b.limits.maxDepth ≤ depth) :
      OwnFault b q here depth (.nested target) [] (b.tooDeep here)
  | listTooDeep {target : ι} (mentioned : q.Mentions here) (deep : b.limits.maxDepth ≤ depth) :
      OwnFault b q here depth (.list target) [] (b.tooDeep here)
  | tooLong {target : ι} (within : depth < b.limits.maxDepth)
      (mentioned : ∀ i ≤ b.limits.maxListItems, q.Mentions (here ++ [.index i])) :
      OwnFault b q here depth (.list target) [b.limits.maxListItems] (b.tooLong here)
  | scalar {type : ValueType} {raw : String} {source : CoercionError}
      (found : q.get? here none = some raw) (refused : b.coercer raw type.kind = .error source) :
      OwnFault b q here depth (.scalar type) [] (.coercion (Key.renderPath here) source)
  | leaf {type : LeafType} {m r : Nat} {member : Option String} {path : Path}
      {lookup : Option Operation} {operand : ValueType} {raw : String} {place : List Nat}
      {e : BindError} (about : (operands here type)[m]? = some (member, path))
      (typed : Leaf.operandType? type member = some operand) (asked : lookups[r]? = some lookup)
      (found : q.get? path lookup = some raw)
      (refused : Refused (b.site here) member operand.kind (lookup.getD .eq) raw place e) :
      OwnFault b q here depth (.leaf type) (m :: r :: place) e

/-- What is wrong at a position, apart from the positions below it. -/
def FaultAt (b : Binder) (q : Query) (pos : Position ι) (place : List Nat) (e : BindError) : Prop :=
  ∃ n field rest, pos.shape.fields[n]? = some field ∧ place = n :: rest ∧
    OwnFault b q (pos.fieldPath field) pos.depth field.role rest e

/-- What is wrong at the positions that a query asks for, from a root on. -/
def Fault (b : Binder) (shapes : ι → Shape ι) (q : Query) (root : Position ι) (place : List Nat)
    (e : BindError) : Prop :=
  ∃ above pos rest, Visited b.limits shapes q root above pos ∧ FaultAt b q pos rest e ∧
    place = above ++ rest

/-- What is wrong with a field, and below it. -/
def FieldFault (b : Binder) (shapes : ι → Shape ι) (q : Query) (here : Path) (depth : Nat)
    (role : Role ι) (place : List Nat) (e : BindError) : Prop :=
  OwnFault b q here depth role place e ∨
    ∃ move pos rest, Opens b.limits shapes q here depth role move pos ∧
      Fault b shapes q pos rest e ∧ place = move ++ rest

/-! ## Faults, field by field -/

variable {limits : Limits} {b : Binder} {shapes : ι → Shape ι} {q : Query} {root pos : Position ι}
  {place : List Nat} {e : BindError}

theorem Visited.below_root {pos' : Position ι} {move : List Nat}
    (step : Below limits shapes q root move pos)
    (visited : Visited limits shapes q pos place pos') :
    Visited limits shapes q root (move ++ place) pos' := by
  induction visited with
  | root => simpa using Visited.down .root step
  | down _ step' ih =>
    rw [← List.append_assoc]
    exact .down ih step'

theorem visited_iff : Visited limits shapes q root place pos ↔
    place = [] ∧ pos = root ∨
      ∃ move pos' rest, Below limits shapes q root move pos' ∧
        Visited limits shapes q pos' rest pos ∧ place = move ++ rest := by
  constructor
  · intro h
    induction h with
    | root => exact .inl ⟨rfl, rfl⟩
    | down _ step ih =>
      right
      rcases ih with ⟨rfl, rfl⟩ | ⟨move, pos', rest, hbelow, hrest, rfl⟩
      · exact ⟨_, _, [], step, .root, by simp⟩
      · exact ⟨move, pos', _, hbelow, .down hrest step, List.append_assoc ..⟩
  · rintro (⟨rfl, rfl⟩ | ⟨move, pos', rest, hbelow, hrest, rfl⟩)
    · exact .root
    · exact .below_root hbelow hrest

theorem fault_iff_below : Fault b shapes q root place e ↔
    FaultAt b q root place e ∨
      ∃ move pos rest, Below b.limits shapes q root move pos ∧ Fault b shapes q pos rest e ∧
        place = move ++ rest := by
  constructor
  · rintro ⟨above, pos, rest, hvisited, hfault, rfl⟩
    rcases visited_iff.1 hvisited with ⟨rfl, rfl⟩ | ⟨move, pos', above', hbelow, hvisited', rfl⟩
    · exact .inl hfault
    · exact .inr ⟨move, pos', _, hbelow, ⟨above', pos, rest, hvisited', hfault, rfl⟩,
        List.append_assoc ..⟩
  · rintro (hfault | ⟨move, pos, _, hbelow, ⟨above, pos', rest, hvisited, hfault, rfl⟩, rfl⟩)
    · exact ⟨[], root, place, .root, hfault, rfl⟩
    · exact ⟨_, pos', rest, .below_root hbelow hvisited, hfault, (List.append_assoc ..).symm⟩

/-- **The faults at a position and below it are those of its fields.** -/
theorem fault_iff : Fault b shapes q pos place e ↔
    ∃ n field rest, pos.shape.fields[n]? = some field ∧ place = n :: rest ∧
      FieldFault b shapes q (pos.fieldPath field) pos.depth field.role rest e := by
  rw [fault_iff_below]
  constructor
  · rintro (⟨n, field, rest, hfield, rfl, hown⟩ |
      ⟨_, pos', rest, ⟨n, field, move, hfield, rfl, hopens⟩, hfault, rfl⟩)
    · exact ⟨n, field, rest, hfield, rfl, .inl hown⟩
    · exact ⟨n, field, move ++ rest, hfield, rfl, .inr ⟨move, pos', rest, hopens, hfault, rfl⟩⟩
  · rintro ⟨n, field, _, hfield, rfl, hown | ⟨move, pos', rest, hopens, hfault, rfl⟩⟩
    · exact .inl ⟨n, field, _, hfield, rfl, hown⟩
    · exact .inr ⟨n :: move, pos', rest, ⟨n, field, move, hfield, rfl, hopens⟩, hfault, rfl⟩

end BracketFilter
