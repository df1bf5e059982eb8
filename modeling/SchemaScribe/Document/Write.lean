import SchemaScribe.Document.Basic
import SchemaScribe.Declaration.Emission

/-!
Writing a schema as a document. Definitions are visited in order, each after the argument classes of its fields;
of several declarations of one name the first is kept, and the others have to have its shape. Roots and members
of unions are declared elsewhere, so only their argument classes are data types.
-/

namespace SchemaScribe

/-- Adds a declaration unless one of its name and shape is there already. -/
def addDeclaration (collected : List Declaration) (declaration : Declaration) :
    Except WriteError (List Declaration) :=
  match collected.find? (·.name = declaration.name) with
  | none => .ok (collected ++ [declaration])
  | some known =>
    if known.shape = declaration.shape then .ok collected
    else .error (.conflictingDeclarations declaration.name)

def addDeclarations (collected : List Declaration) (declarations : List Declaration) :
    Except WriteError (List Declaration) :=
  declarations.foldlM addDeclaration collected

/-- What a definition adds to the data types; `nested` are the names of the types that are declared elsewhere. -/
def Definition.typeDeclarations (schema : Schema) (scalars : Scalars) (nested : List String)
    (definition : Definition) : Except WriteError (List Declaration) := do
  let (declaration, argumentClasses) ← definition.write schema scalars
  let arguments := argumentClasses.map Declaration.caseClass
  return if definition.object?.isSome && nested.contains definition.name then arguments
    else arguments ++ [declaration]

namespace Schema

/-- The object types that are declared outside the group of data types. -/
def nestedNames (schema : Schema) (roots : Roots) : List String :=
  roots.names ++ schema.unionMembers

def typeDeclarations (schema : Schema) (scalars : Scalars) (nested : List String) :
    Except WriteError (List Declaration) :=
  schema.definitions.foldlM (fun collected definition => do
    addDeclarations collected (← definition.typeDeclarations schema scalars nested)) []

def write (schema : Schema) (context : WriteContext) (packageName : Option String := none) :
    Except WriteError Document := do
  let roots ← schema.roots
  let types ← schema.typeDeclarations context.scalars (schema.nestedNames roots)
  let query ← roots.query.mapM (·.writeOperation context)
  let mutation ← roots.mutation.mapM (·.writeOperation context)
  let subscription ← roots.subscription.mapM (·.writeSubscription context)
  return { packageName, types, query, mutation, subscription }

end Schema

end SchemaScribe
