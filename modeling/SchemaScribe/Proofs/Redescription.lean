import SchemaScribe.Proofs.Emission
import SchemaScribe.Proofs.Tables

/-! Descriptions changed throughout a schema or a document. Emission hands descriptions on and never looks at them, so
it does not matter whether they are changed before or after it. -/

namespace SchemaScribe

section Definitions
variable (change : Option String → Option String)

def Argument.redescribe (argument : Argument) : Argument :=
  { argument with description := change argument.description }

def Field.redescribe (field : Field) : Field :=
  { field with arguments := field.arguments.map (·.redescribe change), description := change field.description }

def EnumValue.redescribe (value : EnumValue) : EnumValue :=
  { value with description := change value.description }

def RecordType.redescribe (type : RecordType) : RecordType :=
  { type with fields := type.fields.map (·.redescribe change), description := change type.description }

def EnumType.redescribe (type : EnumType) : EnumType :=
  { type with values := type.values.map (·.redescribe change), description := change type.description }

def UnionType.redescribe (type : UnionType) : UnionType :=
  { type with description := change type.description }

def Definition.redescribe : Definition → Definition
  | .object type => .object (type.redescribe change)
  | .input type => .input (type.redescribe change)
  | .enum type => .enum (type.redescribe change)
  | .union type => .union (type.redescribe change)

def Schema.redescribe (schema : Schema) : Schema :=
  { schema with definitions := schema.definitions.map (·.redescribe change) }

def Parameter.redescribe (parameter : Parameter) : Parameter :=
  { parameter with description := change parameter.description }

def CaseClass.redescribe (declaration : CaseClass) : CaseClass :=
  { declaration with
    parameters := declaration.parameters.map (·.redescribe change)
    description := change declaration.description }

def CaseObject.redescribe (declaration : CaseObject) : CaseObject :=
  { declaration with description := change declaration.description }

def Variant.redescribe : Variant → Variant
  | .caseObject variant => .caseObject (variant.redescribe change)
  | .caseClass variant => .caseClass (variant.redescribe change)

def SealedTrait.redescribe (declaration : SealedTrait) : SealedTrait :=
  { declaration with
    variants := declaration.variants.map (·.redescribe change)
    description := change declaration.description }

def Declaration.redescribe : Declaration → Declaration
  | .caseClass declaration => .caseClass (declaration.redescribe change)
  | .sealedTrait declaration => .sealedTrait (declaration.redescribe change)

def Document.redescribe (document : Document) : Document :=
  { document with
    types := document.types.map (·.redescribe change)
    query := document.query.map (·.redescribe change)
    mutation := document.mutation.map (·.redescribe change)
    subscription := document.subscription.map (·.redescribe change) }

end Definitions

variable {change : Option String → Option String} {schema : Schema} {scalars : Scalars}

@[simp] theorem Definition.name_redescribe (definition : Definition) :
    (definition.redescribe change).name = definition.name := by
  cases definition <;> rfl

@[simp] theorem Declaration.name_redescribe (declaration : Declaration) :
    (declaration.redescribe change).name = declaration.name := by
  cases declaration <;> rfl

/-- Which declarations are kept depends on their names only. -/
theorem firstOfEachName_redescribe (declarations : List Declaration) :
    firstOfEachName (declarations.map (·.redescribe change)) =
      (firstOfEachName declarations).map (·.redescribe change) := by
  induction declarations with
  | nil => rfl
  | cons head rest ih =>
    simp only [List.map_cons, firstOfEachName, ih, List.filter_map, Declaration.name_redescribe, Function.comp_def]

section Emission

namespace Field

theorem signature_redescribe (field : Field) (result : String) :
    (field.redescribe change).signature result = field.signature result := by
  simp [signature, redescribe]

theorem parameter_redescribe (field : Field) :
    (field.redescribe change).parameter scalars = (field.parameter scalars).redescribe change := by
  rw [parameter, signature_redescribe]
  rfl

theorem operationParameter_redescribe (silent : change none = none) (wrap : String → String) (field : Field) :
    (field.redescribe change).operationParameter scalars wrap =
      (field.operationParameter scalars wrap).redescribe change := by
  rw [operationParameter, signature_redescribe, operationParameter, Parameter.redescribe, silent]
  rfl

theorem argumentClass?_redescribe (silent : change none = none) (field : Field) :
    (field.redescribe change).argumentClass? scalars =
      (field.argumentClass? scalars).map (·.redescribe change) := by
  cases given : field.arguments with
  | nil => simp [argumentClass?, redescribe, given]
  | cons first rest =>
    simp [argumentClass?, redescribe, given, CaseClass.redescribe, silent, Argument.parameter, Argument.redescribe,
      Parameter.redescribe]

end Field

namespace RecordType

theorem caseClass_redescribe (parent : Option String) (type : RecordType) :
    (type.redescribe change).caseClass scalars parent = (type.caseClass scalars parent).redescribe change := by
  simp [caseClass, redescribe, CaseClass.redescribe, Field.parameter_redescribe, Function.comp_def]

theorem inputClass_redescribe (type : RecordType) :
    (type.redescribe change).inputClass scalars = (type.inputClass scalars).redescribe change := by
  simp [inputClass, redescribe, CaseClass.redescribe, Field.inputParameter, Field.redescribe, Parameter.redescribe]

theorem operationClass_redescribe (silent : change none = none) (wrap : String → String) (type : RecordType) :
    (type.redescribe change).operationClass scalars wrap = (type.operationClass scalars wrap).redescribe change := by
  simp [operationClass, redescribe, CaseClass.redescribe, Field.operationParameter_redescribe silent, silent,
    Function.comp_def]

theorem argumentClasses_redescribe (silent : change none = none) (type : RecordType) :
    (type.redescribe change).argumentClasses scalars =
      (type.argumentClasses scalars).map (·.redescribe change) := by
  rw [argumentClasses, argumentClasses, redescribe, List.filterMap_map, List.map_filterMap]
  exact congrArg (List.filterMap · type.fields) (funext fun field => field.argumentClass?_redescribe silent)

end RecordType

theorem EnumType.sealedTrait_redescribe (type : EnumType) :
    (type.redescribe change).sealedTrait = type.sealedTrait.redescribe change := by
  simp [sealedTrait, redescribe, SealedTrait.redescribe, Variant.redescribe, CaseObject.redescribe,
    EnumValue.redescribe]

namespace Schema

theorem objectType?_redescribe (schema : Schema) (name : String) :
    (schema.redescribe change).objectType? name = (schema.objectType? name).map (·.redescribe change) := by
  rw [objectType?, definition?, redescribe, List.find?_map]
  simp only [Function.comp_def, Definition.name_redescribe, objectType?, definition?]
  cases schema.definitions.find? (·.name = name) with
  | none => rfl
  | some definition => cases definition <;> rfl

theorem rootType?_redescribe (schema : Schema) (operation : Operation) :
    (schema.redescribe change).rootType? operation = (schema.rootType? operation).map (·.redescribe change) :=
  schema.objectType?_redescribe _

theorem names_rootTypes_redescribe (schema : Schema) :
    (schema.redescribe change).rootTypes.names = schema.rootTypes.names := by
  simp only [rootTypes, rootType?_redescribe, Roots.names, List.filterMap_cons, List.filterMap_nil, Option.map_map,
    Function.comp_def]
  rfl

end Schema

theorem Schema.unions_redescribe (schema : Schema) :
    (schema.redescribe change).unions = schema.unions.map (Prod.map id (·.redescribe change)) := by
  have union? (definition : Definition) :
      (definition.redescribe change).union? = definition.union?.map (·.redescribe change) := by
    cases definition <;> rfl
  rw [unions, unions, Table.ofEntries, Table.ofEntries, ← Table.insertAll_map]
  simp only [redescribe, List.filterMap_map, List.map_filterMap, Function.comp_def, union?, Option.map_map]
  rfl

theorem Schema.nestedNames_redescribe (schema : Schema) :
    (schema.redescribe change).nestedNames (schema.redescribe change).rootTypes =
      schema.nestedNames schema.rootTypes := by
  have members : (schema.redescribe change).unionMembers = schema.unionMembers := by
    rw [unionMembers, unionMembers, unions_redescribe]
    simp [Table.values, UnionType.redescribe, List.flatMap_map]
  rw [nestedNames, nestedNames, names_rootTypes_redescribe, members]

theorem UnionType.objects_redescribe (schema : Schema) (type : UnionType) :
    (type.redescribe change).objects (schema.redescribe change) =
      (type.objects schema).map (·.redescribe change) := by
  rw [objects, objects, List.map_filterMap, ← funext schema.objectType?_redescribe]
  rfl

theorem UnionType.sealedTrait_redescribe (schema : Schema) (type : UnionType) :
    (type.redescribe change).sealedTrait (schema.redescribe change) scalars =
      (type.sealedTrait schema scalars).redescribe change := by
  rw [sealedTrait, objects_redescribe, List.map_map]
  simp only [Function.comp_def, RecordType.caseClass_redescribe, sealedTrait, SealedTrait.redescribe, List.map_map]
  rfl

namespace Definition

theorem declaration_redescribe (schema : Schema) (definition : Definition) :
    (definition.redescribe change).declaration (schema.redescribe change) scalars =
      (definition.declaration schema scalars).redescribe change := by
  cases definition with
  | object type => exact congrArg Declaration.caseClass (type.caseClass_redescribe none)
  | input type => exact congrArg Declaration.caseClass type.inputClass_redescribe
  | enum type => exact congrArg Declaration.sealedTrait type.sealedTrait_redescribe
  | union type => exact congrArg Declaration.sealedTrait (type.sealedTrait_redescribe schema)

theorem argumentClasses_redescribe (silent : change none = none) (schema : Schema) (definition : Definition) :
    (definition.redescribe change).argumentClasses (schema.redescribe change) scalars =
      (definition.argumentClasses schema scalars).map (·.redescribe change) := by
  cases definition with
  | object type => exact type.argumentClasses_redescribe silent
  | input type => rfl
  | enum type => rfl
  | union type =>
    simp only [redescribe, argumentClasses, UnionType.objects_redescribe, List.flatMap_map, List.map_flatMap,
      RecordType.argumentClasses_redescribe silent]

theorem isTopLevel_redescribe (schema : Schema) (definition : Definition) :
    (definition.redescribe change).isTopLevel (schema.redescribe change) = definition.isTopLevel schema := by
  rw [isTopLevel, isTopLevel, Schema.nestedNames_redescribe, name_redescribe]
  cases definition <;> rfl

theorem emitted_redescribe (silent : change none = none) (schema : Schema) (definition : Definition) :
    (definition.redescribe change).emitted (schema.redescribe change) scalars =
      (definition.emitted schema scalars).map (·.redescribe change) := by
  rw [emitted, emitted, argumentClasses_redescribe silent, isTopLevel_redescribe, declaration_redescribe,
    List.map_append, List.map_map, List.map_map]
  cases definition.isTopLevel schema <;> rfl

end Definition

theorem Schema.emitted_redescribe (silent : change none = none) (schema : Schema) (scalars : Scalars) :
    (schema.redescribe change).emitted scalars = (schema.emitted scalars).map (·.redescribe change) := by
  rw [emitted, emitted, redescribe, List.flatMap_map, List.map_flatMap]
  exact congrArg (schema.definitions.flatMap ·) (funext fun definition => definition.emitted_redescribe silent schema)

/-- The document of a schema with other descriptions is the document with other descriptions. -/
theorem Schema.document_redescribe (silent : change none = none) (schema : Schema) (context : WriteContext)
    (packageName : Option String) :
    (schema.redescribe change).document context packageName =
      (schema.document context packageName).redescribe change := by
  simp only [document, emitted_redescribe silent, firstOfEachName_redescribe, rootTypes, rootType?_redescribe,
    Option.map_map, Function.comp_def, RecordType.operationClass_redescribe silent, Document.redescribe]

end Emission

end SchemaScribe
