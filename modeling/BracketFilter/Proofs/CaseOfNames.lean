import BracketFilter.Proofs.CompileSteps
import BracketFilter.Proofs.LoweredBinding

/-!
# The case of declared names is irrelevant

* `CompilesLike` — two compilations fail with one error, but for the case of letters in the field
  that it names, or give one predicate.

Principal results: `compile_lowered` — a tree with its names in small letters compiles to the very
predicate of the tree, on record types whose names are in small letters; `recased_alike` — a filter
and a record type may be declared with other capitals, each in its own way, and neither the binding
of a query nor the compiled predicate changes.
-/

set_option autoImplicit false

namespace BracketFilter

open BracketFilter.Text

variable {ι κ : Type} {C : κ → Type}

/-- Both compilations fail with one error, but for the case of letters, or succeed with the same. -/
abbrev CompilesLike {α : Type} (x x' : Except CompileError α) : Prop :=
  Matched CompileError.Recased Eq x x'

theorem CompilesLike.map {α β : Type} {x x' : Except CompileError α} (h : CompilesLike x x')
    (f : α → β) : CompilesLike (x.map f) (x'.map f) :=
  Matched.map h fun _ _ ha => congrArg f ha

theorem CompilesLike.mapM {α β γ : Type} {f : α → Except CompileError γ}
    {f' : β → Except CompileError γ} {lower : α → β} {xs : List α}
    (h : ∀ x ∈ xs, CompilesLike (f x) (f' (lower x))) :
    CompilesLike (xs.mapM f) ((xs.map lower).mapM f') := by
  rw [List.mapM_map]
  exact (mapM_matched h).imp (fun _ _ he => he) fun as bs has => List.forall₂_eq_eq_eq ▸ has

theorem CompilesLike.mismatch {α : Type} {name name' : String}
    (same : lowerAscii name = lowerAscii name') (expected found : String) :
    CompilesLike (.error (.schemaMismatch name expected found) : Except CompileError α)
      (.error (.schemaMismatch name' expected found)) := by
  refine .error ?_
  simp only [CompileError.Recased, CompileError.lowered, same]

/-! ## Leaves -/

theorem Test.ofApplied_lowered {field field' : String} (same : lowerAscii field = lowerAscii field')
    (applied : Applied) :
    CompilesLike (ofApplied field applied) (ofApplied field' applied.lowered) := by
  unfold ofApplied
  rw [show ofApplied? applied.lowered = ofApplied? applied from rfl]
  cases ofApplied? applied with
  | some test => exact .ok rfl
  | none =>
    refine .error ?_
    simp only [CompileError.Recased, CompileError.lowered, same]
    rfl

theorem compileValue_lowered {R : Type} {field field' : String}
    (same : lowerAscii field = lowerAscii field') (read : R → Value) (applied : Applied) :
    CompilesLike (compileValue field read applied) (compileValue field' read applied.lowered) :=
  (Test.ofApplied_lowered same applied).map _

theorem compileElements_lowered {R : Type} {field field' : String}
    (same : lowerAscii field = lowerAscii field') (read : R → List Value) (applied : Applied) :
    CompilesLike (compileElements field read applied)
      (compileElements field' read applied.lowered) :=
  (Test.ofApplied_lowered same applied).map _

/-- The member of a composite field is found under its name in small letters, and read alike. -/
theorem compileMember_lowered {R : Type} {field field' : String}
    (same : lowerAscii field = lowerAscii field') (composite : String)
    (members : List (MemberAccess R)) (applied : Applied) :
    CompilesLike (compileMember field composite members applied)
      (compileMember field' composite (members.map MemberAccess.lowered) applied.lowered) := by
  unfold compileMember
  rw [show applied.lowered.member = applied.member.map lowerAscii from rfl]
  cases applied.member with
  | none => exact .mismatch same _ _
  | some member =>
    have hname : lowerAscii (field ++ "." ++ member) =
        lowerAscii (field' ++ "." ++ lowerAscii member) := by
      simp only [lowerAscii_append, same, lowerAscii_lowerAscii]
    simp only [Option.map_some, memberAccess?_lowered]
    cases memberAccess? members member with
    | none => exact .mismatch hname _ _
    | some found =>
      simp only [Option.map_some]
      rw [show kindConflict? applied.lowered found.lowered.type = kindConflict? applied found.type
        from rfl]
      cases kindConflict? applied found.type with
      | some kind => exact .mismatch hname _ _
      | none => exact compileValue_lowered hname found.read applied

theorem checkPrimitive_lowered {field field' : String}
    (same : lowerAscii field = lowerAscii field') (leaf : Leaf) (type : ValueType)
    (provided : String) :
    CompilesLike (checkPrimitive field leaf type provided)
      (checkPrimitive field' leaf.lowered type provided) := by
  unfold checkPrimitive
  rw [show leaf.lowered.type = leaf.type.lowered from rfl]
  cases leaf.type with
  | composite declared => exact .mismatch same _ _
  | primitive declared =>
    simp only [LeafType.lowered]
    split
    · exact .ok rfl
    · exact .mismatch same _ _

/-- A leaf compiles alike on a field whose members are named in small letters. -/
theorem compileAccess_lowered {R : Type} {name name' : String}
    (same : lowerAscii name = lowerAscii name') (leaf : Leaf) (access : Access κ C R) :
    CompilesLike (compileAccess name leaf access)
      (compileAccess name' leaf.lowered access.lowered) := by
  have hmismatch (provided : String) : CompilesLike
      (.error (.schemaMismatch name leaf.type.name provided) :
        Except CompileError (List (PurePredicate R)))
      (.error (.schemaMismatch name' leaf.type.lowered.name provided)) := by
    rw [LeafType.name_lowered]
    exact .mismatch same _ _
  cases access with
  | value type read =>
    have hfits := checkPrimitive_lowered same leaf type type.name
    simp only [compileAccess, Access.lowered, Access.describe]
    generalize checkPrimitive name leaf type _ = fits,
      checkPrimitive name' _ type _ = fits' at hfits
    cases hfits with
    | error related => exact .error related
    | ok _ => exact .mapM fun applied _ => compileValue_lowered same read applied
  | values type read =>
    have hfits := checkPrimitive_lowered same leaf type ("[" ++ type.name ++ "]")
    simp only [compileAccess, Access.lowered, Access.describe]
    generalize checkPrimitive name leaf type _ = fits,
      checkPrimitive name' _ type _ = fits' at hfits
    cases hfits with
    | error related => exact .error related
    | ok _ => exact .mapM fun applied _ => compileElements_lowered same read applied
  | composite composite members =>
    exact .mapM fun applied _ => compileMember_lowered same composite members applied
  | nested target read => exact hmismatch _
  | list target read => exact hmismatch _

/-! ## Trees -/

theorem compileEntries_lowered {types : RecordTypes κ C} {k : κ} {entries : List (String × Entry ι)}
    (h : ∀ e ∈ entries, CompilesLike (compileEntry types k e.1 e.2)
      (compileEntry (fun k => (types k).lowered) k (lowerAscii e.1) e.2.lowered)) :
    CompilesLike (compileEntries types k entries)
      (compileEntries (fun k => (types k).lowered) k (loweredEntries entries)) := by
  induction entries with
  | nil => exact .ok rfl
  | cons e rest ih =>
    obtain ⟨name, entry⟩ := e
    rw [List.forall_mem_cons] at h
    have hfirst := h.1
    simp only [compileEntries, loweredEntries]
    generalize compileEntry types k name entry = first,
      compileEntry (fun k => (types k).lowered) k _ _ = first' at hfirst
    cases hfirst with
    | error related => exact .error related
    | ok related =>
      subst related
      exact (ih h.2).map _

theorem compileItems_lowered {types : RecordTypes κ C} {k : κ} {items : List (Node ι)}
    (h : ∀ item ∈ items, CompilesLike (compile types k item)
      (compile (fun k => (types k).lowered) k item.lowered)) :
    CompilesLike (compileItems types k items)
      (compileItems (fun k => (types k).lowered) k (loweredItems items)) := by
  induction items with
  | nil => exact .ok rfl
  | cons item rest ih =>
    rw [List.forall_mem_cons] at h
    have hfirst := h.1
    simp only [compileItems, loweredItems]
    generalize compile types k item = first,
      compile (fun k => (types k).lowered) k _ = first' at hfirst
    cases hfirst with
    | error related => exact .error related
    | ok related =>
      subst related
      exact (ih h.2).map _

theorem compileEntry_lowered (types : RecordTypes κ C) (k : κ) (name : String) (entry : Entry ι)
    (children : ∀ child ∈ entry.children, ∀ target, CompilesLike (compile types target child)
      (compile (fun k => (types k).lowered) target child.lowered)) :
    CompilesLike (compileEntry types k name entry)
      (compileEntry (fun k => (types k).lowered) k (lowerAscii name) entry.lowered) := by
  have hname : lowerAscii name = lowerAscii (lowerAscii name) := (lowerAscii_lowerAscii name).symm
  cases entry with
  | scalar value => exact .ok rfl
  | leaf leaf =>
    simp only [compileEntry, Entry.lowered, RecordType.field?_lowered]
    cases (types k).field? name with
    | none => exact .ok rfl
    | some field => exact compileAccess_lowered hname leaf field.access
  | nested child =>
    simp only [compileEntry, Entry.lowered, RecordType.field?_lowered]
    cases (types k).field? name with
    | none => exact .ok rfl
    | some field =>
      obtain ⟨_, access⟩ := field
      cases access with
      | nested target read => exact (children child (List.mem_singleton.2 rfl) target).map _
      | _ => exact .mismatch hname _ _
  | list items =>
    simp only [compileEntry, Entry.lowered, RecordType.field?_lowered]
    cases (types k).field? name with
    | none => exact .ok rfl
    | some field =>
      obtain ⟨_, access⟩ := field
      cases access with
      | list target read =>
        exact (compileItems_lowered fun item hitem => children item hitem target).map _
      | _ => exact .mismatch hname _ _

/-- **A tree compiles alike under names in small letters**, to the very predicate. -/
theorem compile_lowered (types : RecordTypes κ C) (k : κ) (node : Node ι) :
    CompilesLike (compile types k node) (compile (fun k => (types k).lowered) k node.lowered) := by
  induction node using Node.induct generalizing k with
  | step node ih =>
    obtain ⟨shape, entries⟩ := node
    simp only [compile, Node.lowered]
    refine CompilesLike.map (compileEntries_lowered fun e he => ?_) _
    exact compileEntry_lowered types k e.1 e.2 fun child hchild target =>
      ih e he child hchild target

/-! ## Recased filters and record types -/

/-- **The case of declared names is irrelevant.** Let the names of fields and members be declared
with other capitals, in a filter and in the filters embedded in it, and independently in the record
types. Then a query is refused by both filters, with one error but for the case of letters, or bound
by both, to trees that differ in the case of names alone; and these trees are refused by both
record types, or compile to the same predicate. -/
theorem recased_alike (b : Binder) {shapes shapes' : ι → Shape ι}
    (recasedShapes : ∀ i, (shapes i).Recased (shapes' i)) {types types' : RecordTypes κ C}
    (recasedTypes : ∀ k, (types k).Recased (types' k)) {shape shape' : Shape ι}
    (recased : shape.Recased shape') (q : Query) (path : Path) (k : κ) :
    Matched BindError.Recased
      (fun node node' => node.Recased node' ∧
        Matched CompileError.Recased Eq (compile types k node) (compile types' k node'))
      (b.build shapes shape q path) (b.build shapes' shape' q path) := by
  have hshapes : (fun i => (shapes i).lowered) = fun i => (shapes' i).lowered :=
    funext recasedShapes
  have htypes : (fun k => (types k).lowered) = fun k => (types' k).lowered := funext recasedTypes
  have hbound := b.buildNode_lowered shapes q shape path 0
  have hbound' := b.buildNode_lowered shapes' q shape' path 0
  rw [hshapes, show shape.lowered = shape'.lowered from recased] at hbound
  refine hbound.join hbound' ?_ ?_
  · intro e e' low he he'
    exact he.trans he'.symm
  · rintro node node' low hnode hnode'
    have hsame : node.lowered = node'.lowered := hnode.trans hnode'.symm
    refine ⟨hsame, ?_⟩
    have hcompiled := compile_lowered types k node
    have hcompiled' := compile_lowered types' k node'
    rw [htypes, hsame] at hcompiled
    refine hcompiled.join hcompiled' ?_ ?_
    · intro e e' low he he'
      exact he.trans he'.symm
    · rintro p p' _ hp hp'
      exact hp.trans hp'.symm

/-- Orders with their lines and the first of them, under names in some spelling. -/
def orderShapes (spell : String → String) : Bool → Shape Bool
  | false =>
    { name := "Orders"
      fields :=
        [⟨spell "Title", .leaf (.primitive ⟨.string, false⟩)⟩, ⟨spell "Lines", .list true⟩,
          ⟨spell "First", .nested true⟩] }
  | true =>
    { name := "Lines"
      fields :=
        [⟨spell "Price", .leaf (.composite
          ⟨"Money", [⟨spell "Amount", ⟨.i64, false⟩⟩, ⟨spell "Currency", ⟨.string, false⟩⟩]⟩)⟩] }

/-- An order is a title with its lines, a line an amount with its currency. -/
def OrderRecord : Bool → Type
  | false => String × List (Int64 × String)
  | true => Int64 × String

/-- Orders and lines as records, under names in some spelling. -/
def orderTypes (spell : String → String) : RecordTypes Bool OrderRecord
  | false =>
    { name := "Order"
      fields :=
        [⟨spell "Title", .value ⟨.string, false⟩ fun r => .string r.1⟩,
          ⟨spell "First", .nested true fun r => r.2.head?⟩,
          ⟨spell "Lines", .list true fun r => r.2⟩] }
  | true =>
    { name := "Line"
      fields :=
        [⟨spell "Price", .composite "Money"
          [⟨spell "Currency", ⟨.string, false⟩, fun r => .string r.2⟩,
            ⟨spell "Amount", ⟨.i64, false⟩, fun r => .i64 r.1⟩]⟩] }

theorem recased_orderTypes (k : Bool) : (orderTypes id k).Recased (orderTypes lowerAscii k) := by
  cases k <;>
    simp [RecordType.Recased, orderTypes, RecordType.lowered, RecordField.lowered, Access.lowered,
      MemberAccess.lowered, lowerAscii_lowerAscii]

/-- A text in capitals. -/
def capitals (s : String) : String := String.ofList (s.toList.map Char.toUpper)

/-- Members and fields in other capitals again. -/
def orderQuery : Query :=
  Query.ofPairs [("title[sw]", "a"), ("lines[0][price][Amount][gte]", "10"),
    ("LINES[0][pRICE][currency]", "EUR"), ("First[price][amount][in]", "12,13")]

/-- A filter in capitals and record types in small letters keep the orders that they keep as
declared, through trees with other names. -/
theorem recased_alike_orders :
    (∀ i, (orderShapes id i).Recased (orderShapes capitals i)) ∧
      (∀ k, (orderTypes id k).Recased (orderTypes lowerAscii k)) ∧
      ∃ node node' p,
        Binder.build {} (orderShapes id) (orderShapes id false) orderQuery [] = .ok node ∧
        Binder.build {} (orderShapes capitals) (orderShapes capitals false) orderQuery [] =
          .ok node' ∧
        node.entries.map Prod.fst = ["Title", "Lines", "First"] ∧ node.Recased node' ∧
        compile (orderTypes id) false node = .ok (some p) ∧
        compile (orderTypes lowerAscii) false node' = .ok (some p) ∧
        p.accepts ("Ab", [(12, "EUR"), (3, "USD")]) = true ∧
        p.accepts ("Ab", [(12, "USD"), (30, "USD")]) = false := by
  have hshapes : ∀ i, (orderShapes id i).Recased (orderShapes capitals i) := by decide +kernel
  have halike := recased_alike {} hshapes recased_orderTypes (hshapes false) orderQuery [] false
  have hrun : ((Binder.build {} (orderShapes id) (orderShapes id false) orderQuery []).toOption.bind
      fun node => (compile (orderTypes id) false node).toOption.bind fun compiled =>
        compiled.map fun p =>
          (node.entries.map Prod.fst, p.accepts ("Ab", [(12, "EUR"), (3, "USD")]),
            p.accepts ("Ab", [(12, "USD"), (30, "USD")]))) =
      some (["Title", "Lines", "First"], true, false) := by decide +kernel
  obtain ⟨node, hnode, hcompile⟩ := Option.bind_eq_some_iff.1 hrun
  obtain ⟨compiled, hcompiled, hp⟩ := Option.bind_eq_some_iff.1 hcompile
  obtain ⟨p, rfl, hanswers⟩ := Option.map_eq_some_iff.1 hp
  simp only [Prod.mk.injEq] at hanswers
  rw [toOption_eq_some_iff] at hnode hcompiled
  rw [hnode] at halike
  obtain ⟨node', hnode', hrecased, hsame⟩ := halike.exists_of_ok
  rw [hcompiled] at hsame
  obtain ⟨_, hcompiled', rfl⟩ := hsame.exists_of_ok
  exact ⟨hshapes, recased_orderTypes, node, node', p, hnode, hnode', hanswers.1, hrecased,
    hcompiled, hcompiled', hanswers.2⟩

end BracketFilter
