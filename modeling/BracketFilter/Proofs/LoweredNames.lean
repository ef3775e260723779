import BracketFilter.Record
import BracketFilter.Tree

/-!
# Names in small letters

* `Shape.lowered`, `RecordType.lowered` — a filter shape and a record type with the names of all
  fields and members in small letters. The names of types are kept.
* `Node.lowered` — a tree with the names of its fields, and the members that its operations are on,
  in small letters.
* `BindError.lowered`, `CompileError.lowered` — errors with the field that they name in small
  letters.
* `Recased` — two of them differ in the case of ASCII letters in names alone.

Principal results: `member?_lowered`, `field?_lowered`, `memberAccess?_lowered` — members and fields
are found under names in small letters where they are found under the names themselves.
-/

set_option autoImplicit false

namespace BracketFilter

open BracketFilter.Text

variable {ι κ : Type} {C : κ → Type}

/-! ## Texts -/

theorem Text.lowerAscii_append (a b : String) :
    lowerAscii (a ++ b) = lowerAscii a ++ lowerAscii b := by
  apply String.toList_inj.1
  simp only [String.toList_append, toList_lowerAscii, List.map_append]

@[simp] theorem Text.sameName_lowerAscii (a b : String) :
    sameName (lowerAscii a) (lowerAscii b) = sameName a b := by
  simp only [sameName, lowerAscii_lowerAscii]

/-! ## Filter shapes -/

/-- A member with its name in small letters. -/
def Member.lowered (m : Member) : Member := ⟨lowerAscii m.name, m.type⟩

/-- A composite with the names of its members in small letters. -/
def Composite.lowered (composite : Composite) : Composite :=
  ⟨composite.name, composite.members.map Member.lowered⟩

/-- A leaf's type with the names of members in small letters. -/
def LeafType.lowered : LeafType → LeafType
  | .primitive type => .primitive type
  | .composite type => .composite type.lowered

/-- A role with the names of members in small letters. -/
def Role.lowered : Role ι → Role ι
  | .leaf type => .leaf type.lowered
  | role => role

/-- A field of a filter with its names in small letters. -/
def FieldShape.lowered (field : FieldShape ι) : FieldShape ι :=
  ⟨lowerAscii field.name, field.role.lowered⟩

/-- A filter with the names of its fields and of their members in small letters. -/
def Shape.lowered (shape : Shape ι) : Shape ι := ⟨shape.name, shape.fields.map FieldShape.lowered⟩

/-- Two filters differ in the case of ASCII letters in the names of fields and members alone. -/
def Shape.Recased (shape shape' : Shape ι) : Prop := shape.lowered = shape'.lowered

instance [DecidableEq ι] (shape shape' : Shape ι) : Decidable (shape.Recased shape') :=
  inferInstanceAs (Decidable (_ = _))

@[simp] theorem LeafType.name_lowered (type : LeafType) : type.lowered.name = type.name := by
  cases type <;> rfl

theorem Composite.member?_lowered (composite : Composite) (name : String) :
    composite.lowered.member? (lowerAscii name) = (composite.member? name).map Member.lowered := by
  simp only [member?, lowered, List.find?_map, Function.comp_def, Member.lowered,
    sameName_lowerAscii]

/-- The type of an operand does not depend on the case of names. -/
theorem Leaf.operandType?_lowered (type : LeafType) (member : Option String) :
    operandType? type.lowered (member.map lowerAscii) = operandType? type member := by
  cases type with
  | primitive type => cases member <;> rfl
  | composite type =>
    cases member with
    | none => rfl
    | some name =>
      simp only [operandType?, LeafType.lowered, Option.map_some, Composite.member?_lowered,
        Option.map_map]
      rfl

/-! ## Record types -/

/-- A member of a composite field with its name in small letters. -/
def MemberAccess.lowered {R : Type} (m : MemberAccess R) : MemberAccess R :=
  ⟨lowerAscii m.name, m.type, m.read⟩

/-- How a field is read, with the names of members in small letters. -/
def Access.lowered {R : Type} : Access κ C R → Access κ C R
  | .composite name members => .composite name (members.map MemberAccess.lowered)
  | access => access

/-- A field of a record type with its names in small letters. -/
def RecordField.lowered {R : Type} (field : RecordField κ C R) : RecordField κ C R :=
  ⟨lowerAscii field.name, field.access.lowered⟩

/-- A record type with the names of its fields and of their members in small letters. Fields are
read from the records as before. -/
def RecordType.lowered {R : Type} (type : RecordType κ C R) : RecordType κ C R :=
  ⟨type.name, type.fields.map RecordField.lowered⟩

/-- Two record types differ in the case of ASCII letters in the names of fields and members
alone. -/
def RecordType.Recased {R : Type} (type type' : RecordType κ C R) : Prop :=
  type.lowered = type'.lowered

theorem memberAccess?_lowered {R : Type} (members : List (MemberAccess R)) (name : String) :
    memberAccess? (members.map MemberAccess.lowered) (lowerAscii name) =
      (memberAccess? members name).map MemberAccess.lowered := by
  simp only [memberAccess?, List.find?_map, Function.comp_def, MemberAccess.lowered,
    sameName_lowerAscii]

theorem RecordType.field?_lowered {R : Type} (type : RecordType κ C R) (name : String) :
    type.lowered.field? (lowerAscii name) = (type.field? name).map RecordField.lowered := by
  simp only [field?, lowered, List.find?_map, Function.comp_def, RecordField.lowered,
    sameName_lowerAscii]

/-! ## Trees -/

/-- An operation with the name of its member in small letters. -/
def Applied.lowered (applied : Applied) : Applied :=
  { applied with member := applied.member.map lowerAscii }

/-- A leaf with the names of members in small letters. -/
def Leaf.lowered (leaf : Leaf) : Leaf :=
  ⟨leaf.type.lowered, leaf.operations.map Applied.lowered⟩

mutual

/-- A tree with the names of fields and members in small letters. -/
def Node.lowered : Node ι → Node ι
  | .mk shape entries => .mk shape.lowered (loweredEntries entries)

/-- Entries with all names in small letters. -/
def loweredEntries : List (String × Entry ι) → List (String × Entry ι)
  | [] => []
  | (name, entry) :: rest => (lowerAscii name, entry.lowered) :: loweredEntries rest

/-- An entry with all names in small letters. -/
def Entry.lowered : Entry ι → Entry ι
  | .scalar value => .scalar value
  | .leaf leaf => .leaf leaf.lowered
  | .nested child => .nested child.lowered
  | .list items => .list (loweredItems items)

/-- The filters of a list with all names in small letters. -/
def loweredItems : List (Node ι) → List (Node ι)
  | [] => []
  | item :: rest => item.lowered :: loweredItems rest

end

/-- Two trees differ in the case of ASCII letters in names alone. -/
def Node.Recased (node node' : Node ι) : Prop := node.lowered = node'.lowered

/-- A named entry with all names in small letters. -/
def lowerNamed (e : String × Entry ι) : String × Entry ι := (lowerAscii e.1, e.2.lowered)

theorem loweredEntries_eq_map (entries : List (String × Entry ι)) :
    loweredEntries entries = entries.map lowerNamed := by
  induction entries with
  | nil => rfl
  | cons e rest ih =>
    rw [loweredEntries, ih]
    rfl

theorem loweredItems_eq_map (items : List (Node ι)) :
    loweredItems items = items.map Node.lowered := by
  induction items with
  | nil => rfl
  | cons item rest ih => rw [loweredItems, ih, List.map_cons]

/-! ## Errors -/

/-- An error with the text that names its field in small letters. -/
def BindError.lowered : BindError → BindError
  | .coercion field source => .coercion (lowerAscii field) source
  | .unsupportedOperation field op kind => .unsupportedOperation (lowerAscii field) op kind
  | .limitExceeded detail => .limitExceeded (lowerAscii detail)

/-- Two errors differ in the case of ASCII letters in the field that they name alone. -/
def BindError.Recased (e e' : BindError) : Prop := e.lowered = e'.lowered

/-- An error with the field that it names in small letters. -/
def CompileError.lowered : CompileError → CompileError
  | .schemaMismatch field expected found => .schemaMismatch (lowerAscii field) expected found
  | .unsupportedOperation field op => .unsupportedOperation (lowerAscii field) op

/-- Two errors differ in the case of ASCII letters in the field that they name alone. -/
def CompileError.Recased (e e' : CompileError) : Prop := e.lowered = e'.lowered

end BracketFilter
