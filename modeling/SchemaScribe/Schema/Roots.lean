import SchemaScribe.Schema.Basic

/-!
The object types that serve the root operations, and the errors of a schema whose names lead nowhere. A root that
the schema names has to exist; without a name, the default one serves if there is an object type of that name.
-/

namespace SchemaScribe

/-- Why no Scala source can be written. -/
inductive WriteError
  | unknownType (name context : String)
  | conflictingDeclarations (name : String)
  | malformedType (found : ValueKind)
  | unsupportedDefinition (found : ValueKind)
  deriving DecidableEq

def WriteError.message : WriteError → String
  | .unknownType name context => s!"Unknown type '{name}' referenced by {context}"
  | .conflictingDeclarations name =>
    s!"Conflicting declarations named '{name}': rename one of the fields or types that produce it"
  | .malformedType found => s!"Expected a type reference, got {found.label}"
  | .unsupportedDefinition found => s!"Unsupported definition: {found.label}"

structure Roots where
  query : Option RecordType := none
  mutation : Option RecordType := none
  subscription : Option RecordType := none

/-- The names of the roots, in the order query, mutation, subscription. -/
def Roots.names (roots : Roots) : List String :=
  [roots.query, roots.mutation, roots.subscription].filterMap fun root => root.map (·.name)

namespace Schema

/-- The object type of that name, asked for by the place that `context` describes. -/
def requireObject (schema : Schema) (name context : String) : Except WriteError RecordType :=
  match schema.objectType? name with
  | some type => .ok type
  | none => .error (.unknownType name context)

def root (schema : Schema) (operation : Operation) : Except WriteError (Option RecordType) :=
  match (schema.rootNames.getD {}).get operation with
  | some name => (schema.requireObject name ("the schema " ++ operation.keyword ++ " root")).map some
  | none => .ok (schema.objectType? operation.defaultRoot)

def roots (schema : Schema) : Except WriteError Roots := do
  let query ← schema.root .query
  let mutation ← schema.root .mutation
  let subscription ← schema.root .subscription
  return { query, mutation, subscription }

end Schema

end SchemaScribe
