import SchemaScribe.Proofs.Redescription
import SchemaScribe.Proofs.Writing

/-! Writing a schema whose descriptions are changed. No step of it but the comparison of shapes looks at a description,
so every other step gives the same result or the same error, with the descriptions changed in what it gives. -/

namespace SchemaScribe

variable {change : Option String → Option String}

theorem unlessMalformed_map (fault : Option ValueKind) (value : α) (f : α → β) :
    unlessMalformed fault (f value) = (unlessMalformed fault value).map f := by
  cases fault <;> rfl

theorem Field.faults_redescribe (field : Field) : (field.redescribe change).faults = field.faults := by
  simp only [faults, argumentFaults, redescribe, List.filterMap_map]
  rfl

namespace RecordType

theorem fault?_redescribe (type : RecordType) : (type.redescribe change).fault? = type.fault? := by
  simp only [fault?, redescribe, List.flatMap_map, Field.faults_redescribe]

theorem resultFault?_redescribe (type : RecordType) : (type.redescribe change).resultFault? = type.resultFault? := by
  simp only [resultFault?, redescribe, List.filterMap_map]
  rfl

theorem writeObject_redescribe (silent : change none = none) (scalars : Scalars) (parent : Option String)
    (type : RecordType) :
    (type.redescribe change).writeObject scalars parent =
      (type.writeObject scalars parent).map (Prod.map (·.redescribe change) (List.map (·.redescribe change))) := by
  rw [writeObject, writeObject, ← unlessMalformed_map, fault?_redescribe, caseClass_redescribe,
    argumentClasses_redescribe silent]
  rfl

theorem writeInput_redescribe (scalars : Scalars) (type : RecordType) :
    (type.redescribe change).writeInput scalars = (type.writeInput scalars).map (·.redescribe change) := by
  rw [writeInput, writeInput, ← unlessMalformed_map, resultFault?_redescribe, inputClass_redescribe]

theorem writeOperation_redescribe (silent : change none = none) (context : WriteContext) (type : RecordType) :
    (type.redescribe change).writeOperation context = (type.writeOperation context).map (·.redescribe change) := by
  rw [writeOperation, writeOperation, ← unlessMalformed_map, resultFault?_redescribe, operationClass_redescribe silent]

theorem writeSubscription_redescribe (silent : change none = none) (context : WriteContext) (type : RecordType) :
    (type.redescribe change).writeSubscription context =
      (type.writeSubscription context).map (·.redescribe change) := by
  rw [writeSubscription, writeSubscription, ← unlessMalformed_map, resultFault?_redescribe,
    operationClass_redescribe silent]

end RecordType

theorem Schema.requireObject_redescribe (schema : Schema) (name context : String) :
    (schema.redescribe change).requireObject name context =
      (schema.requireObject name context).map (·.redescribe change) := by
  rw [requireObject, requireObject, objectType?_redescribe]
  cases schema.objectType? name <;> rfl

theorem UnionType.writeMember_redescribe (silent : change none = none) (schema : Schema) (scalars : Scalars)
    (type : UnionType) (member : String) :
    (type.redescribe change).writeMember (schema.redescribe change) scalars member =
      (type.writeMember schema scalars member).map
        (Prod.map (·.redescribe change) (List.map (·.redescribe change))) := by
  have sameName : (type.redescribe change).name = type.name := rfl
  rw [writeMember, writeMember, Schema.requireObject_redescribe, sameName]
  cases schema.requireObject member ("union '" ++ type.name ++ "'") with
  | error error => rfl
  | ok object => exact object.writeObject_redescribe silent scalars (some type.name)

/-- What is done to each result may as well be done to all results in the end. -/
theorem mapM_map_result {read : α → Except ε β} {other : α → Except ε γ} {f : β → γ}
    (each : ∀ item, other item = (read item).map f) (items : List α) :
    items.mapM other = (items.mapM read).map (List.map f) := by
  induction items with
  | nil => rfl
  | cons first rest ih =>
    rw [List.mapM_cons, List.mapM_cons, each, ih]
    cases read first with
    | error error => rfl
    | ok value => cases rest.mapM read <;> rfl

theorem UnionType.write_redescribe (silent : change none = none) (schema : Schema) (scalars : Scalars)
    (type : UnionType) :
    (type.redescribe change).write (schema.redescribe change) scalars =
      (type.write schema scalars).map (Prod.map (·.redescribe change) (List.map (·.redescribe change))) := by
  have members : (type.redescribe change).members = type.members := rfl
  rw [write, write, members, mapM_map_result (type.writeMember_redescribe silent schema scalars)]
  cases type.members.mapM (type.writeMember schema scalars) with
  | error error => rfl
  | ok written =>
    refine congrArg Except.ok (Prod.ext ?_ ?_)
    · simp [SealedTrait.redescribe, redescribe, Variant.redescribe]
    · simp [List.flatMap_map, List.map_flatMap]

namespace Definition

theorem write_redescribe (silent : change none = none) (schema : Schema) (scalars : Scalars)
    (definition : Definition) :
    (definition.redescribe change).write (schema.redescribe change) scalars =
      (definition.write schema scalars).map (Prod.map (·.redescribe change) (List.map (·.redescribe change))) := by
  cases definition with
  | object type =>
    rw [redescribe, write, write, type.writeObject_redescribe silent]
    cases type.writeObject scalars none <;> rfl
  | input type =>
    rw [redescribe, write, write, type.writeInput_redescribe]
    cases type.writeInput scalars <;> rfl
  | enum type =>
    rw [redescribe, write, type.sealedTrait_redescribe]
    rfl
  | union type =>
    rw [redescribe, write, write, type.write_redescribe silent]
    cases type.write schema scalars <;> rfl

theorem added_redescribe (silent : change none = none) (schema : Schema) (scalars : Scalars)
    (definition : Definition) :
    (definition.redescribe change).added (schema.redescribe change) scalars =
      (definition.added schema scalars).map (List.map (·.redescribe change)) := by
  have kind : (definition.redescribe change).object?.isSome = definition.object?.isSome := by
    cases definition <;> rfl
  rw [added, added, typeDeclarations, typeDeclarations, write_redescribe silent, Schema.nestedNames_redescribe, kind,
    name_redescribe]
  cases definition.write schema scalars with
  | error error => rfl
  | ok written =>
    refine congrArg Except.ok ?_
    dsimp only [Prod.map]
    split <;> simp [Declaration.redescribe]

end Definition

def Roots.redescribe (change : Option String → Option String) (roots : Roots) : Roots :=
  { query := roots.query.map (·.redescribe change)
    mutation := roots.mutation.map (·.redescribe change)
    subscription := roots.subscription.map (·.redescribe change) }

theorem Schema.root_redescribe (schema : Schema) (operation : Operation) :
    (schema.redescribe change).root operation =
      (schema.root operation).map (Option.map (·.redescribe change)) := by
  have names : (schema.redescribe change).rootNames = schema.rootNames := rfl
  rw [root, root, names]
  cases (schema.rootNames.getD {}).get operation with
  | none => exact congrArg Except.ok (schema.objectType?_redescribe _)
  | some name =>
    dsimp only
    rw [requireObject_redescribe]
    cases schema.requireObject name ("the schema " ++ operation.keyword ++ " root") <;> rfl

theorem Schema.roots_redescribe (schema : Schema) :
    (schema.redescribe change).roots = schema.roots.map (·.redescribe change) := by
  rw [roots, roots, root_redescribe, root_redescribe, root_redescribe]
  cases schema.root .query with
  | error error => rfl
  | ok query =>
    cases schema.root .mutation with
    | error error => rfl
    | ok mutation => cases schema.root .subscription <;> rfl

end SchemaScribe
