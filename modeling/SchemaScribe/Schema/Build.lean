import SchemaScribe.Source.Grammar
import SchemaScribe.Text.Blank

/-!
Building a schema from documents. Definitions are appended in their order, except that an object type is merged
with an object type of its name that is already there: fields of the definition come first, and of several
fields of one name the first is kept.
-/

namespace SchemaScribe

open Source (Statement SyntaxError)

/-- Why something handed in as source is not part of a schema. -/
inductive SourceError
  | unreadable (source : String) (cause : SyntaxError)
  | unsupportedType (found : ValueKind)
  deriving DecidableEq

def SourceError.message : SourceError → String
  | .unreadable source cause => s!"Error parsing {source}: {cause.message}"
  | .unsupportedType found => s!"Unsupported type reference: {found.label}"

def TypeRef.ofCandidate : Candidate TypeRef → Except SourceError TypeRef
  | .given ref => .ok ref
  | .foreign found => .error (.unsupportedType found)

def Field.isIn (field : Field) (fields : List Field) : Bool :=
  fields.any (·.name = field.name)

/-- The fields followed by those of the extension whose names are new. -/
def extendFields (fields extension : List Field) : List Field :=
  extension.foldl (fun known field => if field.isIn known then known else known ++ [field]) fields

namespace RecordType

def extend (type : RecordType) (extension : List Field) : RecordType :=
  { type with fields := extendFields type.fields extension }

/-- The definition takes the lead over what extensions have given so far. -/
def define (type : RecordType) (definition : RecordType) : RecordType :=
  { type with
    fields := definition.fields ++ type.fields.filter (!·.isIn definition.fields)
    description := if isDescribed definition.description then definition.description else type.description }

end RecordType

/-- Changes the first definition of that name, provided that it is an object type. -/
def updateObject? (name : String) (update : RecordType → RecordType) : List Definition → Option (List Definition)
  | [] => none
  | definition :: rest =>
    if definition.name = name then definition.object?.map fun type => .object (update type) :: rest
    else (updateObject? name update rest).map (definition :: ·)

namespace Schema

/-- Changes the object type of that name, or adds one. -/
def updateOrAdd (schema : Schema) (update : RecordType → RecordType) (fresh : RecordType) : Schema :=
  match updateObject? fresh.name update schema.definitions with
  | some definitions => { schema with definitions }
  | none => schema.add (.object fresh)

/-- Extensions of input types, enums, unions and roots add nothing. -/
def apply (schema : Schema) : Statement → Schema
  | .object type => schema.updateOrAdd (·.define type) type
  | .extendObject name fields => schema.updateOrAdd (·.extend fields) { name, fields }
  | .input type => schema.add (.input type)
  | .enum type => schema.add (.enum type)
  | .union type => schema.add (.union type)
  | .roots names =>
    let known := schema.rootNames.getD {}
    { schema with rootNames := some (names.foldl (fun known (operation, root) => known.set operation root) known) }
  | .extendInput .. | .extendEnum .. | .extendUnion .. | .extendRoots _ | .unmodelled => schema

def applyAll (schema : Schema) (statements : List Statement) : Schema :=
  statements.foldl apply schema

/-- Adds a document to the schema. A blank one adds nothing, and one with an error adds nothing either. -/
def addSource (schema : Schema) (source text : String) : Except SourceError Schema :=
  if Text.isBlankText text then .ok schema
  else match Source.parseDocument text with
    | .ok statements => .ok (schema.applyAll statements)
    | .error cause => .error (.unreadable source cause)

def ofText (text : String) (source : String := "<string>") : Except SourceError Schema :=
  addSource {} source text

end Schema

end SchemaScribe
