import SchemaScribe.Document.Write
import SchemaScribe.Source.Progress
import SchemaScribe.Proofs.Collection
import SchemaScribe.Proofs.Resolution

/-! What a schema emits, as plain lists. Writing can only fail or give these lists, so that all later questions about
a document are questions about the emitted declarations and not about the order in which errors are found. -/

namespace SchemaScribe
open Source (bind_eq_ok map_eq_ok)

def Field.WellTyped (field : Field) : Prop :=
  field.type.WellFormed ∧ ∀ argument ∈ field.arguments, argument.type.WellFormed

/-- No field and no argument has a malformed type. -/
def Schema.WellTyped (schema : Schema) : Prop :=
  ∀ definition ∈ schema.definitions, ∀ field ∈ definition.fields, field.WellTyped

instance (field : Field) : Decidable field.WellTyped :=
  inferInstanceAs (Decidable (field.type.fault? = none ∧ ∀ argument ∈ field.arguments, argument.type.fault? = none))

instance (schema : Schema) : Decidable schema.WellTyped :=
  inferInstanceAs (Decidable (∀ definition ∈ schema.definitions, ∀ field ∈ definition.fields, field.WellTyped))

namespace UnionType

/-- The object types that the members lead to. -/
def objects (schema : Schema) (type : UnionType) : List RecordType :=
  type.members.filterMap schema.objectType?

def sealedTrait (schema : Schema) (scalars : Scalars) (type : UnionType) : SealedTrait :=
  { name := type.name
    variants := (type.objects schema).map fun object => .caseClass (object.caseClass scalars (some type.name))
    description := type.description }

end UnionType

namespace Definition

/-- The declaration of the definition itself. -/
def declaration (schema : Schema) (scalars : Scalars) : Definition → Declaration
  | .object type => .caseClass (type.caseClass scalars none)
  | .input type => .caseClass (type.inputClass scalars)
  | .enum type => .sealedTrait type.sealedTrait
  | .union type => .sealedTrait (type.sealedTrait schema scalars)

def argumentClasses (schema : Schema) (scalars : Scalars) : Definition → List CaseClass
  | .object type => type.argumentClasses scalars
  | .input _ => []
  | .enum _ => []
  | .union type => (type.objects schema).flatMap (·.argumentClasses scalars)

/-- The definition is declared among the data types, and not as a root or inside a union. -/
def isTopLevel (schema : Schema) (definition : Definition) : Bool :=
  !(definition.object?.isSome && (schema.nestedNames schema.rootTypes).contains definition.name)

/-- The argument classes, and behind them the declaration unless it stands elsewhere. -/
def emitted (schema : Schema) (scalars : Scalars) (definition : Definition) : List Declaration :=
  (definition.argumentClasses schema scalars).map .caseClass ++
    if definition.isTopLevel schema then [definition.declaration schema scalars] else []

/-- Every member is an object type, if the definition is a union. -/
def MembersResolve (schema : Schema) (definition : Definition) : Prop :=
  ∀ type, definition = .union type → ∀ member ∈ type.members, schema.Resolves member

end Definition

namespace Schema

def emitted (schema : Schema) (scalars : Scalars) : List Declaration :=
  schema.definitions.flatMap (·.emitted schema scalars)

/-- The document, provided that there is one. -/
def document (schema : Schema) (context : WriteContext) (packageName : Option String) : Document :=
  { packageName
    types := firstOfEachName (schema.emitted context.scalars)
    query := schema.rootTypes.query.map (·.operationClass context.scalars (effectOf context.effect))
    mutation := schema.rootTypes.mutation.map (·.operationClass context.scalars (effectOf context.effect))
    subscription := schema.rootTypes.subscription.map (·.operationClass context.scalars streamOf) }

end Schema

variable {schema : Schema} {scalars : Scalars}

theorem unlessMalformed_eq_ok {fault : Option ValueKind} {value result : α} :
    unlessMalformed fault value = .ok result ↔ fault = none ∧ result = value := by
  cases fault with
  | none => exact ⟨fun same => ⟨rfl, (Except.ok.inj same).symm⟩, fun ⟨_, same⟩ => congrArg Except.ok same.symm⟩
  | some found => exact ⟨nofun, nofun⟩

theorem Field.faults_eq_nil {field : Field} (wellTyped : field.WellTyped) : field.faults = [] := by
  have arguments : field.argumentFaults = [] := by
    rw [argumentFaults, List.filterMap_eq_nil_iff]
    exact wellTyped.2
  rw [faults, arguments, show field.type.fault? = none from wellTyped.1]
  rfl

theorem RecordType.fault?_eq_none {type : RecordType} (wellTyped : ∀ field ∈ type.fields, field.WellTyped) :
    type.fault? = none := by
  rw [fault?, List.head?_eq_none_iff, List.flatMap_eq_nil_iff]
  exact fun field member => Field.faults_eq_nil (wellTyped field member)

theorem RecordType.resultFault?_eq_none {type : RecordType} (wellTyped : ∀ field ∈ type.fields, field.WellTyped) :
    type.resultFault? = none := by
  rw [resultFault?, List.head?_eq_none_iff, List.filterMap_eq_nil_iff]
  exact fun field member => (wellTyped field member).1

theorem Field.argumentClass?_eq_some_iff {field : Field} {arguments : CaseClass} :
    field.argumentClass? scalars = some arguments ↔ field.arguments ≠ [] ∧
      arguments = { name := argumentsName field.name, parameters := field.arguments.map (·.parameter scalars) } := by
  cases given : field.arguments with
  | nil => simp [argumentClass?, given]
  | cons first rest => simp [argumentClass?, given, eq_comm]

theorem RecordType.mem_argumentClasses_iff {type : RecordType} {arguments : CaseClass} :
    arguments ∈ type.argumentClasses scalars ↔
      ∃ field ∈ type.fields, field.argumentClass? scalars = some arguments :=
  List.mem_filterMap

theorem UnionType.mem_objects_iff {type : UnionType} {object : RecordType} :
    object ∈ type.objects schema ↔ ∃ member ∈ type.members, schema.objectType? member = some object :=
  List.mem_filterMap

theorem Definition.isTopLevel_object_iff {type : RecordType} :
    (Definition.object type).isTopLevel schema ↔ type.name ∉ schema.nestedNames schema.rootTypes := by
  simp [isTopLevel, object?, name]

namespace UnionType

theorem writeMember_eq_ok {type : UnionType} {member : String} {result : CaseClass × List CaseClass} :
    type.writeMember schema scalars member = .ok result ↔
      ∃ object, schema.objectType? member = some object ∧ object.fault? = none ∧
        result = (object.caseClass scalars (some type.name), object.argumentClasses scalars) := by
  constructor
  · intro written
    obtain ⟨object, found, written⟩ := bind_eq_ok written
    exact ⟨object, Schema.requireObject_eq_ok.mp found, unlessMalformed_eq_ok.mp written⟩
  · rintro ⟨object, found, written⟩
    rw [writeMember, Schema.requireObject_eq_ok.mpr found]
    exact unlessMalformed_eq_ok.mpr written

theorem writeMembers_eq_ok {type : UnionType} {members : List String} {results : List (CaseClass × List CaseClass)}
    (written : members.mapM (type.writeMember schema scalars) = .ok results) :
    (∀ member ∈ members, schema.Resolves member) ∧
      results = (members.filterMap schema.objectType?).map fun object =>
        (object.caseClass scalars (some type.name), object.argumentClasses scalars) := by
  induction members generalizing results with
  | nil =>
    cases written
    exact ⟨nofun, rfl⟩
  | cons first rest ih =>
    rw [List.mapM_cons] at written
    obtain ⟨head, headWritten, written⟩ := bind_eq_ok written
    obtain ⟨tail, tailWritten, done⟩ := bind_eq_ok written
    obtain ⟨object, found, -, rfl⟩ := writeMember_eq_ok.mp headWritten
    obtain ⟨resolve, rfl⟩ := ih tailWritten
    cases done
    refine ⟨fun member inside => ?_, by rw [List.filterMap_cons_some found, List.map_cons]⟩
    rcases List.mem_cons.mp inside with rfl | later
    · exact Schema.resolves_iff.mpr ⟨object, found⟩
    · exact resolve member later

theorem writeMembers_of_resolved {type : UnionType} {members : List String} (wellTyped : schema.WellTyped)
    (resolve : ∀ member ∈ members, schema.Resolves member) :
    ∃ results, members.mapM (type.writeMember schema scalars) = .ok results := by
  induction members with
  | nil => exact ⟨[], rfl⟩
  | cons first rest ih =>
    obtain ⟨object, found⟩ := Schema.resolves_iff.mp (resolve first (List.mem_cons_self ..))
    obtain ⟨tail, written⟩ := ih fun member inside => resolve member (List.mem_cons_of_mem _ inside)
    have sound := RecordType.fault?_eq_none (wellTyped (.object object) (Schema.mem_of_objectType? found))
    have head : type.writeMember schema scalars first = .ok _ := writeMember_eq_ok.mpr ⟨object, found, sound, rfl⟩
    rw [List.mapM_cons, head, written]
    exact ⟨_, rfl⟩

/-- The first member that leads nowhere is reported, whatever comes after it. -/
theorem writeMembers_of_unresolved {type : UnionType} {earlier later : List String} {member : String}
    (wellTyped : schema.WellTyped) (resolve : ∀ member ∈ earlier, schema.Resolves member)
    (unresolved : ¬schema.Resolves member) :
    (earlier ++ member :: later).mapM (type.writeMember schema scalars) =
      .error (.unknownType member ("union '" ++ type.name ++ "'")) := by
  obtain ⟨results, written⟩ := writeMembers_of_resolved wellTyped resolve
  rw [List.mapM_append, written, List.mapM_cons, writeMember, Schema.requireObject_unresolved _ unresolved]
  rfl

end UnionType

namespace Definition

/-- Writing a definition gives its own declaration and its argument classes, or fails. -/
theorem write_eq_ok {definition : Definition} {result : Declaration × List CaseClass}
    (written : definition.write schema scalars = .ok result) :
    definition.MembersResolve schema ∧
      result = (definition.declaration schema scalars, definition.argumentClasses schema scalars) := by
  cases definition with
  | object type =>
    obtain ⟨plain, found, rfl⟩ := map_eq_ok written
    obtain ⟨-, rfl⟩ := unlessMalformed_eq_ok.mp found
    exact ⟨nofun, rfl⟩
  | input type =>
    obtain ⟨plain, found, rfl⟩ := map_eq_ok written
    obtain ⟨-, rfl⟩ := unlessMalformed_eq_ok.mp found
    exact ⟨nofun, rfl⟩
  | enum type =>
    cases written
    exact ⟨nofun, rfl⟩
  | union type =>
    obtain ⟨plain, found, rfl⟩ := map_eq_ok written
    obtain ⟨members, membersWritten, done⟩ := bind_eq_ok found
    obtain ⟨resolve, rfl⟩ := UnionType.writeMembers_eq_ok membersWritten
    cases done
    refine ⟨fun other same => ?_, ?_⟩
    · cases same
      exact resolve
    · simp [declaration, argumentClasses, UnionType.sealedTrait, UnionType.objects, List.flatMap_map,
        Function.comp_def]

theorem write_of_resolved {definition : Definition} (wellTyped : schema.WellTyped)
    (member : definition ∈ schema.definitions) (resolve : definition.MembersResolve schema) :
    ∃ result, definition.write schema scalars = .ok result := by
  have sound := wellTyped definition member
  cases definition with
  | object type =>
    rw [write, RecordType.writeObject, RecordType.fault?_eq_none sound]
    exact ⟨_, rfl⟩
  | input type =>
    rw [write, RecordType.writeInput, RecordType.resultFault?_eq_none sound]
    exact ⟨_, rfl⟩
  | enum type => exact ⟨_, rfl⟩
  | union type =>
    obtain ⟨members, written⟩ := UnionType.writeMembers_of_resolved wellTyped (resolve type rfl)
    rw [write, UnionType.write, written]
    exact ⟨_, rfl⟩

/-- What a definition adds to the data types, with the names of the roots and members as they are for the schema. -/
def added (schema : Schema) (scalars : Scalars) (definition : Definition) : Except WriteError (List Declaration) :=
  definition.typeDeclarations schema scalars (schema.nestedNames schema.rootTypes)

theorem added_eq_ok {definition : Definition} {declarations : List Declaration}
    (added : definition.added schema scalars = .ok declarations) :
    definition.MembersResolve schema ∧ declarations = definition.emitted schema scalars := by
  obtain ⟨⟨own, arguments⟩, written, done⟩ := bind_eq_ok added
  obtain ⟨resolve, same⟩ := write_eq_ok written
  cases same
  refine ⟨resolve, (Except.ok.inj done).symm.trans ?_⟩
  rw [emitted, isTopLevel]
  cases nested : definition.object?.isSome && (schema.nestedNames schema.rootTypes).contains definition.name <;> simp

theorem added_of_resolved {definition : Definition} (wellTyped : schema.WellTyped)
    (member : definition ∈ schema.definitions) (resolve : definition.MembersResolve schema) :
    definition.added schema scalars = .ok (definition.emitted schema scalars) := by
  have succeeds : ∃ declarations, definition.added schema scalars = .ok declarations := by
    obtain ⟨result, written⟩ := write_of_resolved wellTyped member resolve
    rw [added, typeDeclarations, written]
    exact ⟨_, rfl⟩
  obtain ⟨declarations, done⟩ := succeeds
  rw [done, (added_eq_ok done).2]

theorem added_of_unresolved {type : UnionType} {earlier later : List String} {member : String}
    (wellTyped : schema.WellTyped) (members : type.members = earlier ++ member :: later)
    (resolve : ∀ member ∈ earlier, schema.Resolves member) (unresolved : ¬schema.Resolves member) :
    (Definition.union type).added schema scalars =
      .error (.unknownType member ("union '" ++ type.name ++ "'")) := by
  rw [added, typeDeclarations, write, UnionType.write, members,
    UnionType.writeMembers_of_unresolved wellTyped resolve unresolved]
  rfl

end Definition

end SchemaScribe
