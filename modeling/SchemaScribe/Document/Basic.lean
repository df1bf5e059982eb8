import SchemaScribe.Declaration.Basic

/-!
A whole Scala file: the data types in one group, the root operations in another. The imports follow from what
the groups hold.
-/

namespace SchemaScribe

open Text (joinWith)

structure Document where
  packageName : Option String := none
  types : List Declaration := []
  query : Option CaseClass := none
  mutation : Option CaseClass := none
  subscription : Option CaseClass := none
  deriving DecidableEq

inductive Import
  | types
  | annotations
  | streams
  deriving DecidableEq

def Import.text : Import → String
  | .types => "import Types._"
  | .annotations => "import caliban.schema.Annotations._"
  | .streams => "import zio.stream.ZStream"

namespace Document

def operations (document : Document) : List CaseClass :=
  [document.query, document.mutation, document.subscription].filterMap id

def isEmpty (document : Document) : Bool :=
  document.types.isEmpty && document.operations.isEmpty

def imports (document : Document) : List Import :=
  (if document.types.isEmpty || document.operations.isEmpty then [] else [.types]) ++
    (if document.types.any Declaration.hasAnnotations then [.annotations] else []) ++
    (if document.subscription.isSome then [.streams] else [])

def packageClause (document : Document) : String :=
  match document.packageName with
  | some name => if name = "" then "" else "package " ++ name ++ "\n\n"
  | none => ""

/-- The import lines and an empty line, or nothing. -/
def importClauses (document : Document) : String :=
  let lines := document.imports.map fun clause => clause.text ++ "\n"
  if lines.isEmpty then "" else joinWith "" lines ++ "\n"

def typesGroup (document : Document) : String :=
  if document.types.isEmpty then ""
  else "object Types \x7b\n\n" ++ joinWith "" (document.types.map fun declaration => declaration.text ++ "\n") ++
    "\n\x7d\n"

def operationsGroup (document : Document) : String :=
  if document.operations.isEmpty then ""
  else "object Operations \x7b\n\n" ++
    joinWith "" (document.operations.map fun declaration => declaration.text ++ "\n\n") ++ "\x7d\n"

def groupSeparator (document : Document) : String :=
  if document.types.isEmpty || document.operations.isEmpty then "" else "\n"

/-- A document without declarations is a single empty line. -/
def text (document : Document) : String :=
  if document.isEmpty then "\n"
  else document.packageClause ++ document.importClauses ++ document.typesGroup ++ document.groupSeparator ++
    document.operationsGroup

end Document

end SchemaScribe
