import BracketFilter.Proofs.Resolution

/-!
# What a bound leaf holds

* `askers` — the entries of a query that ask for an operation at a path; `leafAskers` — those that
  ask for one on a leaf or on a member of it.

Principal results: `mem_leafAskers_iff` — an entry asks for an operation on a leaf exactly if its
full path leads there; `exact_of_bindLeaf` and `exact_of_bindScalar` — a bound leaf, and a bound
parameter, holds exactly what is asked for.
-/

set_option autoImplicit false

namespace BracketFilter

open BracketFilter.Text

variable {ι : Type}

/-! ## Who asks for what -/

/-- The entries that ask for an operation at a path, in the order in which they are looked up. -/
def askers (q : Query) (path : Path) : List ((Key × String) × Operation) :=
  Operation.all.filterMap
      (fun op => (q.entryAt? (path ++ [.field op.tag])).map fun entry => (entry, op)) ++
    (q.entryAt? path).toList.map fun entry => (entry, .eq)

/-- The entries that ask for an operation on a leaf, with the member that it is about. -/
def leafAskers (q : Query) (path : Path) :
    LeafType → List ((Key × String) × Option String × Operation)
  | .primitive _ => (askers q path).map fun x => (x.1, none, x.2)
  | .composite type =>
    type.members.flatMap fun m =>
      (askers q (path ++ [.named m.name])).map fun x => (x.1, some m.name, x.2)

theorem requests_eq_askers {q : Query} (settled : q.Settled) (parent : Path) (name : String) :
    Binder.requests q (parent ++ [.named name]) =
      (askers q (parent ++ [.named name])).map fun x => (x.2, x.1.2) := by
  have hpath : parent ++ [Segment.named name] ≠ [] := by simp
  unfold Binder.requests askers
  simp only [Query.get?_operation settled hpath, Query.get?_bare settled, List.map_append,
    List.map_filterMap, Option.map_map, Function.comp_def, Option.toList_map, List.map_map]

theorem leafRequests_eq_askers {q : Query} (settled : q.Settled) (parent : Path) (name : String)
    (type : LeafType) :
    Binder.leafRequests q (parent ++ [.named name]) type =
      (leafAskers q (parent ++ [.named name]) type).map fun x => (x.2.1, x.2.2, x.1.2) := by
  cases type with
  | primitive type =>
    simp only [Binder.leafRequests, leafAskers, requests_eq_askers settled, List.map_map,
      Function.comp_def]
  | composite type =>
    simp only [Binder.leafRequests, leafAskers, requests_eq_askers settled, List.map_flatMap,
      List.map_map, Function.comp_def]

/-- An entry asks for the operation that its full path ends in, or for equality. -/
theorem mem_askers_iff {q : Query} (settled : q.Settled) {path : Path} {entry : Key × String}
    {op : Operation} :
    (entry, op) ∈ askers q path ↔ entry ∈ q.entries ∧
      (entry.1.full = path ++ [.field op.tag] ∨ op = .eq ∧ entry.1.full = path) := by
  unfold askers
  simp only [List.mem_append, List.mem_filterMap, Option.map_eq_some_iff, Prod.mk.injEq,
    List.mem_map, Option.mem_toList, Query.entryAt?_eq_some_iff settled]
  constructor
  · rintro (⟨_, -, _, ⟨hmem, hfull⟩, rfl, rfl⟩ | ⟨_, ⟨hmem, hfull⟩, rfl, rfl⟩)
    · exact ⟨hmem, .inl hfull⟩
    · exact ⟨hmem, .inr ⟨rfl, hfull⟩⟩
  · rintro ⟨hmem, hfull | ⟨rfl, hfull⟩⟩
    · exact .inl ⟨op, op.mem_all, entry, ⟨hmem, hfull⟩, rfl, rfl⟩
    · exact .inr ⟨entry, ⟨hmem, hfull⟩, rfl, rfl⟩

theorem isPrefix_of_mem_askers {q : Query} (settled : q.Settled) {path : Path}
    {entry : Key × String} (h : entry ∈ (askers q path).map Prod.fst) : path <+: entry.1.full := by
  obtain ⟨⟨_, op⟩, hmem, rfl⟩ := List.mem_map.1 h
  rcases ((mem_askers_iff settled).1 hmem).2 with hfull | ⟨-, hfull⟩
  · exact hfull ▸ List.prefix_append _ _
  · exact hfull ▸ List.prefix_refl _

theorem nodup_askers {q : Query} (settled : q.Settled) (path : Path) :
    ((askers q path).map Prod.fst).Nodup := by
  unfold askers
  rw [List.map_append, List.nodup_append]
  refine ⟨?_, ?_, ?_⟩
  · rw [List.map_filterMap]
    refine List.Nodup.filterMap ?_ (by decide : Operation.all.Nodup)
    intro op op' entry hop hop'
    simp only [Option.map_map, Function.comp_def, Option.map_id', Option.mem_def,
      Query.entryAt?_eq_some_iff settled] at hop hop'
    have htag := List.append_cancel_left (hop.2.symm.trans hop'.2)
    simp only [List.cons.injEq, Segment.field.injEq, and_true] at htag
    have := congrArg Operation.ofTag? htag
    rw [Operation.ofTag?_tag, Operation.ofTag?_tag] at this
    exact Option.some.inj this
  · cases q.entryAt? path <;> simp
  · intro entry hentry entry' hentry' heq
    simp only [List.map_filterMap, List.mem_filterMap, Option.map_map, Function.comp_def,
      Option.map_id', Query.entryAt?_eq_some_iff settled] at hentry
    simp only [List.map_map, Function.comp_def, List.map_id', Option.mem_toList,
      Query.entryAt?_eq_some_iff settled] at hentry'
    obtain ⟨op, -, -, hfull⟩ := hentry
    have hlength := congrArg List.length (hfull.symm.trans (heq ▸ hentry'.2))
    simp at hlength

theorem not_isPrefix_of_ne {path full : Path} {a b : String} (h : lowerAscii a ≠ lowerAscii b)
    (ha : path ++ [.named a] <+: full) : ¬ path ++ [.named b] <+: full := by
  intro hb
  have heq := (List.prefix_of_prefix_length_le ha hb (by simp)).eq_of_length (by simp)
  have := List.append_cancel_left heq
  simp only [Segment.named, List.cons.injEq, Segment.field.injEq, and_true] at this
  exact h this

theorem nodup_leafAskers {q : Query} (settled : q.Settled) (path : Path) {type : LeafType}
    (distinct : ∀ composite, type = .composite composite →
      (composite.members.map fun m => lowerAscii m.name).Nodup) :
    ((leafAskers q path type).map Prod.fst).Nodup := by
  cases type with
  | primitive type => simpa [leafAskers, Function.comp_def] using nodup_askers settled path
  | composite type =>
    simp only [leafAskers, List.map_flatMap, List.map_map, Function.comp_def]
    rw [List.nodup_flatMap]
    refine ⟨fun m _ => nodup_askers settled _, ?_⟩
    have hnames := distinct type rfl
    rw [List.nodup_iff_pairwise_ne, List.pairwise_map] at hnames
    refine hnames.imp fun {m m'} hne => ?_
    intro entry hentry hentry'
    exact not_isPrefix_of_ne hne (isPrefix_of_mem_askers settled hentry)
      (isPrefix_of_mem_askers settled hentry')

/-! ## Leaves and parameters -/

theorem Composite.member?_of_mem {type : Composite}
    (distinct : (type.members.map fun m => lowerAscii m.name).Nodup) {m : Member}
    (hm : m ∈ type.members) : type.member? m.name = some m := by
  unfold Composite.member?
  cases hfind : type.members.find? fun other => sameName other.name m.name with
  | none =>
    rw [List.find?_eq_none] at hfind
    exact absurd (sameName_iff.2 rfl) (hfind m hm)
  | some other =>
    have hsame : lowerAscii other.name = lowerAscii m.name := by
      simpa [sameName_iff] using List.find?_some hfind
    rw [List.inj_on_of_nodup_map distinct (List.mem_of_find?_eq_some hfind) hm hsame]

/-- The kind of the operands of a leaf, or of a member of it. -/
def LeafType.operandKind? (type : LeafType) (member : Option String) : Option Kind :=
  (Leaf.operandType? type member).map ValueType.kind

theorem Leaf.answer_eq_read {site : Site} {type : LeafType} {member : Option String} {kind : Kind}
    (h : type.operandKind? member = some kind) (op : Operation) (raw : String) :
    answer site type (member, op, raw) = read site member kind op raw := by
  obtain ⟨operand, hoperand, rfl⟩ := Option.map_eq_some_iff.1 h
  simp only [answer, hoperand]

section Leaves

variable {shapes : ι → Shape ι} {q : Query} {type : LeafType} {here : Path}
  (distinct : ∀ composite, type = .composite composite →
    (composite.members.map fun m => lowerAscii m.name).Nodup)

include distinct

theorem Leads.of_leaf {full place : Path} {goal : Target}
    (h : Leads shapes q (.leaf type) here full place goal) :
    place = here ∧ ∃ member kind op, goal = .operation member kind op ∧
      type.operandKind? member = some kind := by
  cases h with
  | equality => exact ⟨rfl, _, _, _, rfl, rfl⟩
  | operation => exact ⟨rfl, _, _, _, rfl, rfl⟩
  | memberEquality mem =>
    refine ⟨rfl, _, _, _, rfl, ?_⟩
    simp [LeafType.operandKind?, Leaf.operandType?,
      Composite.member?_of_mem (distinct _ rfl) mem]
  | memberOperation mem =>
    refine ⟨rfl, _, _, _, rfl, ?_⟩
    simp [LeafType.operandKind?, Leaf.operandType?,
      Composite.member?_of_mem (distinct _ rfl) mem]

/-- An entry asks for an operation on a leaf exactly if its full path leads there. -/
theorem mem_leafAskers_iff (settled : q.Settled) {entry : Key × String} {member : Option String}
    {op : Operation} :
    (entry, member, op) ∈ leafAskers q here type ↔ entry ∈ q.entries ∧
      ∃ kind, type.operandKind? member = some kind ∧
        Leads shapes q (.leaf type) here entry.1.full here (.operation member kind op) := by
  cases type with
  | primitive type =>
    simp only [leafAskers, List.mem_map]
    constructor
    · rintro ⟨⟨_, _⟩, hasks, heq⟩
      cases heq
      obtain ⟨hmem, hfull | ⟨rfl, hfull⟩⟩ := (mem_askers_iff settled).1 hasks
      · exact ⟨hmem, _, rfl, hfull ▸ .operation⟩
      · exact ⟨hmem, _, rfl, hfull ▸ .equality⟩
    · rintro ⟨hmem, kind, -, hleads⟩
      generalize hfull : entry.1.full = full at hleads
      cases hleads with
      | equality =>
        exact ⟨_, (mem_askers_iff settled).2 ⟨hmem, .inr ⟨rfl, hfull⟩⟩, rfl⟩
      | operation => exact ⟨_, (mem_askers_iff settled).2 ⟨hmem, .inl hfull⟩, rfl⟩
  | composite type =>
    simp only [leafAskers, List.mem_flatMap, List.mem_map]
    constructor
    · rintro ⟨m, hm, ⟨_, _⟩, hasks, heq⟩
      cases heq
      have hkind : LeafType.operandKind? (.composite type) (some m.name) = some m.type.kind := by
        simp [LeafType.operandKind?, Leaf.operandType?,
          Composite.member?_of_mem (distinct _ rfl) hm]
      obtain ⟨hmem, hfull | ⟨rfl, hfull⟩⟩ := (mem_askers_iff settled).1 hasks
      · exact ⟨hmem, _, hkind, hfull ▸ .memberOperation hm⟩
      · exact ⟨hmem, _, hkind, hfull ▸ .memberEquality hm⟩
    · rintro ⟨hmem, kind, -, hleads⟩
      generalize hfull : entry.1.full = full at hleads
      cases hleads with
      | memberEquality hm =>
        exact ⟨_, hm, _, (mem_askers_iff settled).2 ⟨hmem, .inr ⟨rfl, hfull⟩⟩, rfl⟩
      | memberOperation hm =>
        exact ⟨_, hm, _, (mem_askers_iff settled).2 ⟨hmem, .inl hfull⟩, rfl⟩

/-- Whoever leads to a bound leaf is among those who ask on it, and its value has been read. -/
theorem exists_read_of_leads (settled : q.Settled) {site : Site}
    {answers : List (Option Applied)}
    (hasked : List.Forall₂ (fun (x : (Key × String) × Option String × Operation) a =>
      Leaf.answer site type (x.2.1, x.2.2, x.1.2) = .ok a) (leafAskers q here type) answers)
    {entry : Key × String} (hentry : entry ∈ q.entries) {place : Path} {goal : Target}
    (hleads : Leads shapes q (.leaf type) here entry.1.full place goal) :
    place = here ∧ ∃ member kind op answer, goal = .operation member kind op ∧
      (entry, member, op) ∈ leafAskers q here type ∧ type.operandKind? member = some kind ∧
      Leaf.read site member kind op entry.2 = .ok answer := by
  obtain ⟨rfl, member, kind, op, rfl, hkind⟩ := hleads.of_leaf distinct
  have hmem := (mem_leafAskers_iff distinct settled).2 ⟨hentry, kind, hkind, hleads⟩
  obtain ⟨answer, -, hanswer⟩ := exists_of_mem_forall₂ hasked hmem
  rw [Leaf.answer_eq_read hkind] at hanswer
  exact ⟨rfl, member, kind, op, answer, rfl, hmem, hkind, hanswer⟩

/-- A bound leaf holds exactly what is asked for on it. -/
theorem exact_of_bindLeaf {b : Binder} (settled : q.Settled) {parent : Path} {name : String}
    {entry : Option (Entry ι)} (hhere : here = parent ++ [.named name])
    (h : b.bindLeaf q here type = .ok entry) :
    Exact b.coercer q (Leads shapes q (.leaf type) here) (optionItems here entry) := by
  obtain ⟨answers, hanswers, rfl⟩ := Binder.bindLeaf_ok_iff.1 h
  have hasked : List.Forall₂ (fun (x : (Key × String) × Option String × Operation) a =>
      Leaf.answer (b.site here) type (x.2.1, x.2.2, x.1.2) = .ok a)
      (leafAskers q here type) answers := by
    rw [hhere, leafRequests_eq_askers settled, List.forall₂_map_left_iff, ← hhere] at hanswers
    exact hanswers
  rw [optionItems_leafEntry]
  constructor
  · refine ((Accounted.ofAnswers ?_ hasked (nodup_leafAskers settled here distinct)).map
      fun applied => (here, Item.operation applied)).congr ?_
    · intro question r r' hr hr'
      exact Except.ok.inj (hr.symm.trans hr')
    · rintro x ⟨place, item⟩
      constructor
      · rintro ⟨applied, ⟨⟨member, op⟩, hmem, hanswer⟩, heq⟩
        cases heq
        have hleads : x ∈ q.entries ∧ ∃ kind, type.operandKind? member = some kind ∧
            Leads shapes q (.leaf type) here x.1.full here (.operation member kind op) :=
          (mem_leafAskers_iff distinct settled).1 hmem
        obtain ⟨hx, kind, hkind, hleads⟩ := hleads
        rw [Leaf.answer_eq_read hkind] at hanswer
        exact ⟨hx, _, hleads, (answers_iff_of_read hanswer).2 ⟨applied, rfl, rfl⟩⟩
      · rintro ⟨hx, goal, hleads, hasks⟩
        obtain ⟨rfl, member, kind, op, answer, rfl, hmem, hkind, hread⟩ :=
          exists_read_of_leads distinct settled hasked hx hleads
        obtain ⟨applied, rfl, rfl⟩ := (answers_iff_of_read hread).1 hasks
        rw [← Leaf.answer_eq_read hkind] at hread
        exact ⟨applied, ⟨_, hmem, hread⟩, rfl⟩
  · intro x hx place goal hleads
    obtain ⟨-, member, kind, op, answer, rfl, -, -, hread⟩ :=
      exists_read_of_leads distinct settled hasked hx hleads
    exact answered_of_read hread

end Leaves

theorem exact_of_bindScalar {b : Binder} {shapes : ι → Shape ι} {q : Query} {type : ValueType}
    {here parent : Path} {name : String} {entry : Option (Entry ι)} (settled : q.Settled)
    (hhere : here = parent ++ [.named name]) (h : b.bindScalar q here type = .ok entry) :
    Exact b.coercer q (Leads shapes q (.scalar type) here) (optionItems here entry) := by
  have hget : q.get? here none = (q.entryAt? here).map Prod.snd :=
    hhere ▸ Query.get?_bare settled parent name
  rcases Binder.bindScalar_ok_iff.1 h with ⟨hnone, rfl⟩ | ⟨raw, value, hsome, hread, rfl⟩
  · refine Exact.nil fun x hx place goal hleads => ?_
    generalize hfull : x.1.full = full at hleads
    cases hleads
    rw [hget, (Query.entryAt?_eq_some_iff settled).2 ⟨hx, hfull⟩] at hnone
    cases hnone
  · rw [hget, Option.map_eq_some_iff] at hsome
    obtain ⟨found, hfound, rfl⟩ := hsome
    have only {x : Key × String} (hx : x ∈ q.entries) (hfull : x.1.full = here) : x = found := by
      rw [(Query.entryAt?_eq_some_iff settled).2 ⟨hx, hfull⟩] at hfound
      exact Option.some.inj hfound
    obtain ⟨hmem, hfull⟩ := (Query.entryAt?_eq_some_iff settled).1 hfound
    constructor
    · refine (Accounted.single found (here, Item.parameter value)).congr fun x y => ?_
      obtain ⟨place, item⟩ := y
      constructor
      · rintro ⟨rfl, heq⟩
        cases heq
        exact ⟨hmem, .parameter type.kind, hfull ▸ .parameter, .parameter hread⟩
      · rintro ⟨hx, goal, hleads, hasks⟩
        generalize hxfull : x.1.full = full at hleads
        cases hleads
        obtain rfl := only hx hxfull
        exact ⟨rfl, Prod.ext rfl (hasks.unique (.parameter hread))⟩
    · intro x hx place goal hleads
      generalize hxfull : x.1.full = full at hleads
      cases hleads
      obtain rfl := only hx hxfull
      exact .inl ⟨_, .parameter hread⟩

end BracketFilter
