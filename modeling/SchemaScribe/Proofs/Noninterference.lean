import SchemaScribe.Proofs.OpenEffect

/-! What has no influence on a document. Default values of arguments are never written, and a root that no union lists
is written as an operation only, without its description and those of its fields. The effect is seen around results
only. -/

namespace SchemaScribe
open Source (bind_eq_ok)

def Argument.withoutDefault (argument : Argument) : Argument :=
  { argument with defaultText := none }

/-- The field without the default values of its arguments and, if it is `silent`, without its description. -/
def Field.visible (silent : Bool) (field : Field) : Field :=
  { field with
    arguments := field.arguments.map (·.withoutDefault)
    description := if silent then none else field.description }

def RecordType.visible (silent : Bool) (type : RecordType) : RecordType :=
  { type with
    fields := type.fields.map (·.visible silent)
    description := if silent then none else type.description }

def UnionType.lists (type : UnionType) (name : String) : Bool :=
  type.members.contains name

/-- The name of a root that no union lists. -/
def Schema.isPureRoot (schema : Schema) (name : String) : Bool :=
  schema.rootTypes.names.contains name && !schema.definitions.any (·.union?.any (·.lists name))

def RecordType.visibleIn (schema : Schema) (type : RecordType) : RecordType :=
  type.visible (schema.isPureRoot type.name)

def Roots.visibleIn (schema : Schema) (roots : Roots) : Roots :=
  { query := roots.query.map (·.visibleIn schema)
    mutation := roots.mutation.map (·.visibleIn schema)
    subscription := roots.subscription.map (·.visibleIn schema) }

def Definition.visible (schema : Schema) : Definition → Definition
  | .object type => .object (type.visibleIn schema)
  | .input type => .input (type.visible false)
  | .enum type => .enum type
  | .union type => .union type

/-- The schema without all default values, and without the descriptions of pure roots and of their fields. -/
def Schema.visible (schema : Schema) : Schema :=
  { schema with definitions := schema.definitions.map (·.visible schema) }

variable {schema : Schema} {scalars : Scalars}

section Records

variable (silent : Bool)

namespace Field

theorem isEmpty_arguments_visible (field : Field) :
    (field.visible silent).arguments.isEmpty = field.arguments.isEmpty :=
  List.isEmpty_map

theorem argumentClass?_visible (field : Field) :
    (field.visible silent).argumentClass? scalars = field.argumentClass? scalars := by
  rw [argumentClass?, argumentClass?, isEmpty_arguments_visible, visible, List.map_map]
  rfl

theorem signature_visible (field : Field) (result : String) :
    (field.visible silent).signature result = field.signature result := by
  rw [signature, signature, isEmpty_arguments_visible]
  rfl

theorem parameter_visible (field : Field) : (field.visible false).parameter scalars = field.parameter scalars := by
  rw [parameter, signature_visible]
  rfl

theorem operationParameter_visible (wrap : String → String) (field : Field) :
    (field.visible silent).operationParameter scalars wrap = field.operationParameter scalars wrap := by
  rw [operationParameter, signature_visible]
  rfl

theorem faults_visible (field : Field) : (field.visible silent).faults = field.faults := by
  rw [faults, faults, argumentFaults, argumentFaults, visible, List.filterMap_map]
  rfl

end Field

namespace RecordType

theorem caseClass_visible (parent : Option String) (type : RecordType) :
    (type.visible false).caseClass scalars parent = type.caseClass scalars parent := by
  simp [caseClass, visible, Field.parameter_visible, Function.comp_def]

theorem inputClass_visible (type : RecordType) : (type.visible false).inputClass scalars = type.inputClass scalars := by
  simp [inputClass, visible, Field.inputParameter, Field.visible]

theorem operationClass_visible (wrap : String → String) (type : RecordType) :
    (type.visible silent).operationClass scalars wrap = type.operationClass scalars wrap := by
  simp [operationClass, visible, Field.operationParameter_visible, Function.comp_def]

theorem argumentClasses_visible (type : RecordType) :
    (type.visible silent).argumentClasses scalars = type.argumentClasses scalars := by
  rw [argumentClasses, visible, List.filterMap_map]
  exact congrArg (type.fields.filterMap ·) (funext (Field.argumentClass?_visible silent))

theorem fault?_visible (type : RecordType) : (type.visible silent).fault? = type.fault? := by
  simp [fault?, visible, List.flatMap_map, Field.faults_visible]

theorem resultFault?_visible (type : RecordType) : (type.visible silent).resultFault? = type.resultFault? := by
  rw [resultFault?, visible, List.filterMap_map]
  rfl

end RecordType

end Records

namespace RecordType

theorem visibleIn_eq {type : RecordType} (shown : schema.isPureRoot type.name = false) :
    type.visibleIn schema = type.visible false := by
  rw [visibleIn, shown]

theorem writeOperation_visibleIn (context : WriteContext) (type : RecordType) :
    (type.visibleIn schema).writeOperation context = type.writeOperation context := by
  rw [writeOperation, visibleIn, resultFault?_visible, operationClass_visible]
  rfl

theorem writeSubscription_visibleIn (context : WriteContext) (type : RecordType) :
    (type.visibleIn schema).writeSubscription context = type.writeSubscription context := by
  rw [writeSubscription, visibleIn, resultFault?_visible, operationClass_visible]
  rfl

/-- Where an object type is shown with its description, nothing of it changes. -/
theorem writeObject_visibleIn {type : RecordType} (shown : schema.isPureRoot type.name = false)
    (parent : Option String) :
    (type.visibleIn schema).writeObject scalars parent = type.writeObject scalars parent := by
  rw [writeObject, visibleIn_eq shown, fault?_visible, caseClass_visible, argumentClasses_visible]
  rfl

end RecordType

namespace Schema

theorem isPureRoot_of_listed {type : UnionType} {name : String} (defined : .union type ∈ schema.definitions)
    (listed : name ∈ type.members) : schema.isPureRoot name = false := by
  have found : schema.definitions.any (·.union?.any (·.lists name)) :=
    List.any_eq_true.mpr ⟨.union type, defined, List.contains_iff_mem.mpr listed⟩
  rw [isPureRoot, found, Bool.not_true, Bool.and_false]

theorem objectType?_visible (schema : Schema) (name : String) :
    schema.visible.objectType? name = (schema.objectType? name).map (·.visibleIn schema) := by
  have sameName (definition : Definition) : (definition.visible schema).name = definition.name := by
    cases definition <;> rfl
  rw [objectType?, definition?, visible, List.find?_map]
  simp only [Function.comp_def, sameName, objectType?, definition?]
  cases schema.definitions.find? (·.name = name) with
  | none => rfl
  | some definition => cases definition <;> rfl

theorem requireObject_visible (schema : Schema) (name context : String) :
    schema.visible.requireObject name context = (schema.requireObject name context).map (·.visibleIn schema) := by
  rw [requireObject, requireObject, objectType?_visible]
  cases schema.objectType? name <;> rfl

theorem root_visible (schema : Schema) (operation : Operation) :
    schema.visible.root operation = (schema.root operation).map (Option.map (·.visibleIn schema)) := by
  have names : schema.visible.rootNames = schema.rootNames := rfl
  rw [root, root, names]
  cases (schema.rootNames.getD {}).get operation with
  | none => exact congrArg Except.ok (schema.objectType?_visible _)
  | some name =>
    dsimp only
    rw [requireObject_visible]
    cases schema.requireObject name ("the schema " ++ operation.keyword ++ " root") <;> rfl

theorem nestedNames_visible (schema : Schema) :
    schema.visible.nestedNames schema.visible.rootTypes = schema.nestedNames schema.rootTypes := by
  have union? (definition : Definition) : (definition.visible schema).union? = definition.union? := by
    cases definition <;> rfl
  have members : schema.visible.unionMembers = schema.unionMembers := by
    simp only [unionMembers, unions, visible, List.filterMap_map, Function.comp_def, union?]
  have names : schema.visible.rootTypes.names = schema.rootTypes.names := by
    simp only [rootTypes, rootType?, objectType?_visible, Roots.names, List.filterMap_cons, List.filterMap_nil,
      Option.map_map]
    rfl
  rw [nestedNames, nestedNames, names, members]

theorem nestedNames_contains_of_isPureRoot {name : String} (pure : schema.isPureRoot name) :
    (schema.nestedNames schema.rootTypes).contains name := by
  obtain ⟨root, -⟩ := Bool.and_eq_true_iff.mp pure
  exact List.contains_iff_mem.mpr (List.mem_append_left _ (List.contains_iff_mem.mp root))

end Schema

/-- A member of a union is shown with its description, even if it is a root. -/
theorem UnionType.write_visible {type : UnionType} (defined : .union type ∈ schema.definitions) :
    type.write schema.visible scalars = type.write schema scalars := by
  refine UnionType.write_congr fun member listed => ?_
  rw [writeMember, writeMember, Schema.requireObject_visible]
  cases found : schema.requireObject member ("union '" ++ type.name ++ "'") with
  | error error => rfl
  | ok object =>
    have sameName := Schema.name_of_objectType? (Schema.requireObject_eq_ok.mp found)
    have shown : schema.isPureRoot object.name = false := by
      rw [sameName]
      exact Schema.isPureRoot_of_listed defined listed
    exact RecordType.writeObject_visibleIn shown (some type.name)

namespace Definition

theorem write_visible {definition : Definition} (defined : definition ∈ schema.definitions)
    (shown : ∀ type, definition = .object type → schema.isPureRoot type.name = false) :
    (definition.visible schema).write schema.visible scalars = definition.write schema scalars := by
  cases definition with
  | object type => rw [visible, write, write, RecordType.writeObject_visibleIn (shown type rfl)]
  | input type =>
    rw [visible, write, write, RecordType.writeInput, RecordType.resultFault?_visible, RecordType.inputClass_visible]
    rfl
  | enum type => rfl
  | union type => rw [visible, write, write, UnionType.write_visible defined]

/-- Of a pure root only the argument classes are data types, and these hold no description of its own. -/
theorem added_visible_of_pure {type : RecordType} (pure : schema.isPureRoot type.name) :
    ((Definition.object type).visible schema).added schema.visible scalars =
      (Definition.object type).added schema scalars := by
  have nested := Schema.nestedNames_contains_of_isPureRoot pure
  have sameName : (type.visibleIn schema).name = type.name := rfl
  simp only [added, typeDeclarations, visible, write, Schema.nestedNames_visible, RecordType.writeObject, name, object?,
    sameName, nested, Option.isSome_some, Bool.and_self, if_true]
  rw [RecordType.visibleIn, RecordType.fault?_visible, RecordType.argumentClasses_visible]
  cases type.fault? <;> rfl

theorem added_visible {definition : Definition} (defined : definition ∈ schema.definitions) :
    (definition.visible schema).added schema.visible scalars = definition.added schema scalars := by
  by_cases pure : ∃ type, definition = .object type ∧ schema.isPureRoot type.name
  · obtain ⟨type, rfl, pure⟩ := pure
    exact added_visible_of_pure pure
  · have shown (type : RecordType) (same : definition = .object type) : schema.isPureRoot type.name = false :=
      Bool.eq_false_iff.mpr fun isPure => pure ⟨type, same, isPure⟩
    have kind : (definition.visible schema).object?.isSome = definition.object?.isSome := by
      cases definition <;> rfl
    have sameName : (definition.visible schema).name = definition.name := by
      cases definition <;> rfl
    rw [added, added, typeDeclarations, typeDeclarations, write_visible defined shown, Schema.nestedNames_visible, kind,
      sameName]

end Definition

namespace Schema

theorem mapM_visibleIn {write : RecordType → Except WriteError CaseClass}
    (each : ∀ type : RecordType, write (type.visibleIn schema) = write type) (root : Option RecordType) :
    (root.map (·.visibleIn schema)).mapM write = root.mapM write := by
  cases root with
  | none => rfl
  | some type =>
    change (write (type.visibleIn schema) >>= fun value => pure (some value)) = _
    rw [each]
    rfl

theorem roots_visible (schema : Schema) : schema.visible.roots = schema.roots.map (·.visibleIn schema) := by
  rw [roots, roots, root_visible, root_visible, root_visible]
  cases schema.root .query with
  | error error => rfl
  | ok query =>
    cases schema.root .mutation with
    | error error => rfl
    | ok mutation => cases schema.root .subscription <;> rfl

/-- What is left out of the visible schema has no part in any document or error. -/
theorem write_visible (schema : Schema) (context : WriteContext) (packageName : Option String) :
    schema.visible.write context packageName = schema.write context packageName := by
  rw [write, write, roots_visible]
  cases rooted : schema.roots with
  | error error => rfl
  | ok roots =>
    obtain ⟨-, rfl⟩ := roots_eq_ok_iff.mp rooted
    have sameRoots : schema.rootTypes.visibleIn schema = schema.visible.rootTypes := by
      simp only [Roots.visibleIn, rootTypes, rootType?, objectType?_visible]
      rfl
    have types : schema.visible.typeDeclarations context.scalars
          (schema.visible.nestedNames (schema.rootTypes.visibleIn schema)) =
        schema.typeDeclarations context.scalars (schema.nestedNames schema.rootTypes) := by
      rw [sameRoots, typeDeclarations_eq_collect, typeDeclarations_eq_collect]
      exact collect_congr (fun _ => Definition.added_visible) []
    have operation (root : Option RecordType) :
        (root.map (·.visibleIn schema)).mapM (·.writeOperation context) = root.mapM (·.writeOperation context) :=
      mapM_visibleIn (fun type => type.writeOperation_visibleIn context) root
    have subscription (root : Option RecordType) :
        (root.map (·.visibleIn schema)).mapM (·.writeSubscription context) = root.mapM (·.writeSubscription context) :=
      mapM_visibleIn (fun type => type.writeSubscription_visibleIn context) root
    change (schema.visible.typeDeclarations _ _ >>= _) = (schema.typeDeclarations _ _ >>= _)
    rw [types]
    simp only [Roots.visibleIn, operation, subscription]

end Schema

namespace Settings

/-- Two effects lead to the same error, or to documents that differ in the name in front of the brackets around the
results of queries and mutations alone. Schemas that differ in default values, or in what is said of pure roots and
their fields, lead to the same error or to the same document. -/
theorem write_noninterference (settings : Settings) :
    (∀ (schema : Schema) (first second : String), first ≠ "" → second ≠ "" →
      (∃ error, settings.write schema first = .error error ∧ settings.write schema second = .error error) ∨
      ∃ roots document other, schema.roots = .ok roots ∧
        settings.write schema first = .ok document ∧ settings.write schema second = .ok other ∧
        document.packageClause = other.packageClause ∧ document.importClauses = other.importClauses ∧
        document.typesGroup = other.typesGroup ∧ document.subscription = other.subscription ∧
        RootsAlike settings.scalars first second roots.query document.query other.query ∧
        RootsAlike settings.scalars first second roots.mutation document.mutation other.mutation ∧
        AlikeButEffect settings.scalars first second roots.effectFields document.text other.text) ∧
    ∀ (first second : Schema) (effect : Option String), first.visible = second.visible →
      settings.write first effect = settings.write second effect := by
  constructor
  · intro schema first second given otherGiven
    have context {effect : String} (given : effect ≠ "") :
        settings.context effect = { scalars := settings.scalars, effect } := by
      rw [Settings.context, effectFor, if_neg given]
    rw [write, write, context given, context otherGiven, Schema.write_eq_check, Schema.write_eq_check]
    cases checked : schema.check settings.scalars with
    | error error => exact Or.inl ⟨error, rfl, rfl⟩
    | ok done =>
      obtain ⟨roots, rooted, -⟩ := bind_eq_ok checked
      obtain ⟨-, rfl⟩ := Schema.roots_eq_ok_iff.mp rooted
      have same := schema.document_sameButEffect settings.scalars settings.packageName first second
      exact Or.inr ⟨_, _, _, rooted, rfl, rfl, same.packageClause_eq, same.importClauses_eq, same.typesGroup_eq,
        same.subscription, same.query, same.mutation, same.text_alike⟩
  · intro first second effect same
    rw [write, write, ← Schema.write_visible, same, Schema.write_visible]

def berth (description defaultText : Option String) : Field :=
  { name := "berth", type := .named "Int" true, description
    arguments := [{ name := "at", type := .named "Int" true, defaultText }] }

/-- A root and a member of a union that have a field in common. -/
def marina (description defaultText : Option String) : Schema :=
  { definitions :=
      [.object { name := "Query", fields := [berth description defaultText], description },
       .union { name := "Ship", members := ["Sloop"] },
       .object { name := "Sloop", fields := [berth (some "The place") none], description := some "A boat" }] }

/-- The root may say of itself what it likes, and the member stays described. -/
theorem write_noninterference_marina :
    let described := marina (some "All ships") (some "1")
    described ≠ marina none none ∧ described.visible = (marina none none).visible ∧
      ({} : Settings).write described = ({} : Settings).write (marina none none) ∧
      ∃ document other, ({} : Settings).write described "zio.UIO" = .ok document ∧
        ({} : Settings).write described "zio.Task" = .ok other ∧ document.imports.contains .annotations ∧
        document.text ≠ other.text ∧ document.typesGroup = other.typesGroup ∧
        AlikeButEffect ({} : Settings).scalars "zio.UIO" "zio.Task" [berth (some "All ships") (some "1")] document.text
          other.text := by
  intro described
  obtain ⟨effects, hidden⟩ := write_noninterference {}
  refine ⟨by decide, by decide, hidden described (marina none none) none (by decide), ?_⟩
  rcases effects described "zio.UIO" "zio.Task" (by decide) (by decide) with
    ⟨error, failed, -⟩ | ⟨roots, document, other, rooted, written, otherWritten, -, -, types, -, -, -, alike⟩
  · cases failed
  · cases rooted
    cases written
    cases otherWritten
    exact ⟨_, _, rfl, rfl, by decide +kernel, by decide +kernel, types, alike⟩

end Settings

end SchemaScribe
