import BracketFilter.Coercion
import BracketFilter.Operation

/-!
# Errors

* `BindError` — a request that cannot be bound to a filter; it is the client's fault.
* `CompileError` — a filter that does not fit a record type; it is the program's fault.

`message` gives the wording, `BindError.code` and `BindError.status` what a client is answered.
-/

set_option autoImplicit false

namespace BracketFilter

/-- A request that cannot be bound. -/
inductive BindError where
  | coercion (field : String) (source : CoercionError)
  | unsupportedOperation (field : String) (operation : Operation) (kind : Kind)
  | limitExceeded (detail : String)
  deriving DecidableEq, Repr

namespace BindError

/-- The wording of the error. -/
def message : BindError → String
  | coercion field source => "invalid value for filter '" ++ field ++ "': " ++ source.message
  | unsupportedOperation field operation kind =>
    "operation '" ++ operation.tag ++ "' is not supported on field '" ++ field ++ "' of type " ++
      kind.name
  | limitExceeded detail => "filter limit exceeded: " ++ detail

/-- The code of the error in an answer. -/
def code : BindError → String
  | coercion .. => "filter_errors.invalid_value.v1"
  | unsupportedOperation .. => "filter_errors.unsupported_operation.v1"
  | limitExceeded _ => "filter_errors.limit_exceeded.v1"

/-- The status of the answer: the content cannot be processed. -/
def status (_ : BindError) : Nat := 422

/-- The field that the error is about. -/
def field? : BindError → Option String
  | coercion field _ => some field
  | unsupportedOperation field _ _ => some field
  | limitExceeded _ => none

end BindError

/-- A filter that does not fit a record type. -/
inductive CompileError where
  | schemaMismatch (field : String) (expected : String) (found : String)
  | unsupportedOperation (field : String) (operation : Operation)
  deriving DecidableEq, Repr

/-- The wording of the error. -/
def CompileError.message : CompileError → String
  | schemaMismatch field expected found =>
    "field '" ++ field ++ "': filter expects " ++ expected ++ ", record provides " ++ found
  | unsupportedOperation field operation =>
    "field '" ++ field ++ "': stored values do not fit operation '" ++ operation.tag ++ "'"

end BracketFilter
