/-!
References to types, as they stand behind a field or an argument. A reference may come from outside as an
arbitrary value; such a value is kept as `malformed` and is refused only where its type is written.
-/

namespace SchemaScribe

/-- The kind of a value that was handed in where something else was expected. -/
inductive ValueKind
  | text
  | null
  | integer
  | fraction
  | boolean
  | array
  | mapping
  | plain
  deriving DecidableEq

def ValueKind.label : ValueKind → String
  | .text => "str"
  | .null => "NoneType"
  | .integer => "int"
  | .fraction => "float"
  | .boolean => "bool"
  | .array => "list"
  | .mapping => "dict"
  | .plain => "object"

/-- Either the thing that was asked for, or some other value. -/
inductive Candidate (α : Type)
  | given (value : α)
  | foreign (found : ValueKind)

inductive TypeRef
  | named (name : String) (required : Bool)
  | list (element : TypeRef) (required : Bool)
  | malformed (found : ValueKind)
  deriving DecidableEq

namespace TypeRef

/-- The value that stands in the place of the innermost name, if it is not a name. -/
def fault? : TypeRef → Option ValueKind
  | named .. => none
  | list element _ => element.fault?
  | malformed found => some found

def WellFormed (ref : TypeRef) : Prop :=
  ref.fault? = none

/-- The same reference, followed by an exclamation mark. -/
def require : TypeRef → TypeRef
  | named name _ => named name true
  | list element _ => list element true
  | malformed found => malformed found

end TypeRef

end SchemaScribe
