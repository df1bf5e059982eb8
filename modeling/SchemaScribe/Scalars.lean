import SchemaScribe.Schema.Roots

/-!
Scala types for schema types. A name goes through a table of scalars, a list becomes a `List`, and whatever may
be missing becomes an `Option`.
-/

namespace SchemaScribe

/-- Scala types by scalar name; a name without an entry stands for itself. -/
abbrev Scalars := Table String

namespace Scalars

def builtin : Scalars :=
  [("Int", "Int"), ("Float", "Double"), ("String", "String"), ("Boolean", "Boolean"), ("ID", "String")]

/-- The built-in scalars, overridden by the mappings. -/
def ofMappings (mappings : Table String) : Scalars :=
  builtin.insertAll mappings

def resolve (scalars : Scalars) (name : String) : String :=
  (scalars.find? name).getD name

end Scalars

namespace TypeRef

def optionUnless (required : Bool) (expression : String) : String :=
  if required then expression else "Option[" ++ expression ++ "]"

/-- The Scala type. A malformed reference has none; whoever writes one asks for `fault?` first. -/
def expression (scalars : Scalars) : TypeRef → String
  | named name required => optionUnless required (scalars.resolve name)
  | list element required => optionUnless required ("List[" ++ element.expression scalars ++ "]")
  | malformed _ => ""

end TypeRef

/-- The value, unless some type reference that it is made of is malformed. -/
def unlessMalformed (fault : Option ValueKind) (value : α) : Except WriteError α :=
  match fault with
  | some found => .error (.malformedType found)
  | none => .ok value

def TypeRef.write (scalars : Scalars) (ref : TypeRef) : Except WriteError String :=
  unlessMalformed ref.fault? (ref.expression scalars)

end SchemaScribe
