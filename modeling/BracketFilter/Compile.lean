import BracketFilter.Predicate
import BracketFilter.Record
import BracketFilter.Text.LowerCase
import BracketFilter.Tree

/-!
# Compiling filters to predicates

* `Test.ofApplied` — the test on one value that an operation makes.
* `compileLeaf` — the predicate of a leaf on candidates of which one value is read.
* `compile` — the predicate of a tree on the records of a type; there is none if nothing is asked
  for on the fields that the records have.

The parts of a predicate are conjoined. An operation on a collection of values asks for some value,
or, if it is negated, for all of them. A filter on an embedded record asks for the record to be
there; each filter on a list asks for some entry that satisfies the whole of it. Parameters and
fields that the records lack are passed over.
-/

set_option autoImplicit false

namespace BracketFilter

open BracketFilter.Text

/-! ## Tests on values -/

namespace Test

/-- Whether an order, if there is one, is what a comparison asks for. -/
def acceptsOrder (op : Operation) (order : Option Ordering) : Bool :=
  match op with
  | .eq => order == some .eq
  | .ne => order != some .eq
  | .gt => order == some .gt
  | .gte => order == some .gt || order == some .eq
  | .lt => order == some .lt
  | .lte => order == some .lt || order == some .eq
  | _ => false

/-- Whether a text occurs in another. -/
def occursIn (needle : List Char) : List Char → Bool
  | [] => needle.isEmpty
  | c :: rest => needle.isPrefixOf (c :: rest) || occursIn needle rest

/-- Whether a text stands where a text operation, negated or not, looks for it. -/
def finds (op : Operation) (needle haystack : List Char) : Bool :=
  match op with
  | .startsWith | .notStartsWith => needle.isPrefixOf haystack
  | .endsWith | .notEndsWith => needle.isSuffixOf haystack
  | _ => occursIn needle haystack

/-- Whether an operation takes its operands in the number that it has. -/
def fitsArity (applied : Applied) : Bool :=
  if applied.operation.isMultiValued then applied.multiValued && !applied.values.isEmpty
  else !applied.multiValued && applied.values.length == 1

/-- The test on one value that an operation makes: `none` if its operands do not fit it. Texts are
compared in lower case; an absent value holds no text, is in no list and has no order. -/
def ofApplied? (applied : Applied) : Option (Value → Bool) :=
  let op := applied.operation
  if fitsArity applied then
    match op.family with
    | .comparison =>
      applied.values.head?.map fun operand value => acceptsOrder op (value.compare? operand)
    | .text =>
      (applied.values.head?.bind Value.text?).map fun operand value =>
        let needle := lower operand.toList
        let found :=
          match value.text? with
          | some text => finds op needle (lower text.toList)
          | none => false
        found != op.isNegated
    | .membership => some fun value => applied.values.any (value.isEqualTo ·) != op.isNegated
  else none

/-- The test on one value that an operation on a field makes. -/
def ofApplied (field : String) (applied : Applied) : Except CompileError (Value → Bool) :=
  match ofApplied? applied with
  | some test => .ok test
  | none => .error (.unsupportedOperation field applied.operation)

/-- A test on a collection of values: some value passes, or, if it is negated, all do. -/
def onElements (op : Operation) (test : Value → Bool) (values : List Value) : Bool :=
  if op.isNegated then values.all test else values.any test

end Test

/-! ## Leaves -/

/-- The predicate of an operation on the value of a field. -/
def compileValue {R : Type} (field : String) (read : R → Value) (applied : Applied) :
    Except CompileError (PurePredicate R) :=
  (Test.ofApplied field applied).map fun test => .ofTest fun r => test (read r)

/-- The predicate of an operation on a collection of values. -/
def compileElements {R : Type} (field : String) (read : R → List Value) (applied : Applied) :
    Except CompileError (PurePredicate R) :=
  (Test.ofApplied field applied).map fun test =>
    .ofTest fun r => Test.onElements applied.operation test (read r)

/-- Whether an operand is of another kind than the member it is compared with. Text operations
compare texts, whatever the kind. -/
def kindConflict? (applied : Applied) (type : ValueType) : Option Kind :=
  if applied.operation.family = .text then none
  else (applied.values.head?.bind Value.kind?).filter (· ≠ type.kind)

/-- The predicate of an operation on a member of a composite. -/
def compileMember {R : Type} (field composite : String) (members : List (MemberAccess R))
    (applied : Applied) : Except CompileError (PurePredicate R) :=
  match applied.member with
  | none => .error (.schemaMismatch field "primitive value" composite)
  | some member =>
    let name := field ++ "." ++ member
    match memberAccess? members member with
    | none => .error (.schemaMismatch name "member" "nothing")
    | some found =>
      match kindConflict? applied found.type with
      | some kind => .error (.schemaMismatch name kind.name found.type.name)
      | none => compileValue name found.read applied

/-- A leaf on values asks for a primitive type of the same kind. -/
def checkPrimitive (field : String) (leaf : Leaf) (type : ValueType) (provided : String) :
    Except CompileError Unit :=
  match leaf.type with
  | .primitive declared =>
    if declared.compatible type then .ok ()
    else .error (.schemaMismatch field declared.name provided)
  | .composite declared => .error (.schemaMismatch field declared.name provided)

/-- The predicate of an operation on candidates of which one value is read. -/
def compileSingle {α : Type} (field : String) (read : α → Value) (applied : Applied) :
    Except CompileError (PurePredicate α) :=
  match applied.member with
  | some member =>
    .error (.schemaMismatch (field ++ "." ++ member) "member accessor" "single value accessor")
  | none => compileValue field read applied

/-- The predicate of a leaf on candidates of which one value is read. -/
def compileLeaf {α : Type} (field : String) (leaf : Leaf) (read : α → Value) :
    Except CompileError (Option (PurePredicate α)) :=
  (leaf.operations.mapM (compileSingle field read)).map Predicate.all

/-! ## Trees -/

section Trees

variable {ι κ : Type} {C : κ → Type}

/-- The predicates of a leaf on a field. -/
def compileAccess {R : Type} (name : String) (leaf : Leaf) (access : Access κ C R) :
    Except CompileError (List (PurePredicate R)) :=
  match access with
  | .value type read =>
    match checkPrimitive name leaf type access.describe with
    | .error e => .error e
    | .ok _ => leaf.operations.mapM (compileValue name read)
  | .values type read =>
    match checkPrimitive name leaf type access.describe with
    | .error e => .error e
    | .ok _ => leaf.operations.mapM (compileElements name read)
  | .composite composite members => leaf.operations.mapM (compileMember name composite members)
  | other => .error (.schemaMismatch name leaf.type.name other.describe)

/-- The predicate that some embedded record is there and accepted. -/
def onNested {R S : Type} (read : R → Option S) (p : PurePredicate S) : PurePredicate R :=
  .ofTest fun r => (read r).any p.accepts

/-- The predicate that some entry of a list is accepted. -/
def onList {R S : Type} (read : R → List S) (p : PurePredicate S) : PurePredicate R :=
  .ofTest fun r => (read r).any p.accepts

mutual

/-- The predicate of a tree on the records of a type. -/
def compile (types : RecordTypes κ C) (k : κ) :
    Node ι → Except CompileError (Option (PurePredicate (C k)))
  | .mk _ entries => (compileEntries types k entries).map Predicate.all

/-- The predicates of entries, in their order. -/
def compileEntries (types : RecordTypes κ C) (k : κ) :
    List (String × Entry ι) → Except CompileError (List (PurePredicate (C k)))
  | [] => .ok []
  | (name, entry) :: rest =>
    match compileEntry types k name entry with
    | .error e => .error e
    | .ok parts => (compileEntries types k rest).map (parts ++ ·)

/-- The predicates of an entry: none if the records lack its field. -/
def compileEntry (types : RecordTypes κ C) (k : κ) (name : String) :
    Entry ι → Except CompileError (List (PurePredicate (C k)))
  | .scalar _ => .ok []
  | .leaf leaf =>
    match (types k).field? name with
    | none => .ok []
    | some field => compileAccess name leaf field.access
  | .nested child =>
    match (types k).field? name with
    | none => .ok []
    | some field =>
      match field.access with
      | .nested target read =>
        (compile types target child).map fun p => (p.map (onNested read)).toList
      | other => .error (.schemaMismatch name "nested filter" other.describe)
  | .list items =>
    match (types k).field? name with
    | none => .ok []
    | some field =>
      match field.access with
      | .list target read =>
        (compileItems types target items).map fun ps => ps.map (onList read)
      | other => .error (.schemaMismatch name "filter list" other.describe)

/-- The predicates of the filters of a list, without those that ask for nothing. -/
def compileItems (types : RecordTypes κ C) (k : κ) :
    List (Node ι) → Except CompileError (List (PurePredicate (C k)))
  | [] => .ok []
  | item :: rest =>
    match compile types k item with
    | .error e => .error e
    | .ok p => (compileItems types k rest).map (p.toList ++ ·)

end

end Trees

end BracketFilter
