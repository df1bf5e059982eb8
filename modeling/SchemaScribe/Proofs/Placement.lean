import Mathlib.Data.List.Forall2
import SchemaScribe.Proofs.ScopeClashes

/-! Where the object types of a written schema stand: among the operations for a root, inside every union that lists
them, and among the data types for all others. -/

namespace SchemaScribe

variable {schema : Schema} {scalars : Scalars}

namespace UnionType

/-- The variant is the object type that the member leads to, with its fields, and extends the union. -/
inductive IsVariant (schema : Schema) (scalars : Scalars) (union : UnionType) (member : String) : Variant → Prop where
  | caseClass {object : RecordType} {declared : CaseClass} (found : schema.objectType? member = some object)
      (name : declared.name = member) (parent : declared.parent = some union.name)
      (fields : declared.signature =
        object.fields.map fun field => (safeName field.name, field.signature (field.type.expression scalars))) :
      IsVariant schema scalars union member (.caseClass declared)

theorem forall₂_objects {members : List String} (resolve : ∀ member ∈ members, schema.Resolves member) :
    List.Forall₂ (fun member object => schema.objectType? member = some object) members
      (members.filterMap schema.objectType?) := by
  induction members with
  | nil => exact .nil
  | cons first rest ih =>
    obtain ⟨head, tail⟩ := List.forall_mem_cons.mp resolve
    obtain ⟨object, found⟩ := Schema.resolves_iff.mp head
    rw [List.filterMap_cons_some found]
    exact .cons found (ih tail)

theorem forall₂_variants {union : UnionType} (resolve : ∀ member ∈ union.members, schema.Resolves member) :
    List.Forall₂ (union.IsVariant schema scalars) union.members (union.sealedTrait schema scalars).variants := by
  apply List.forall₂_map_right_iff.mpr
  refine (forall₂_objects resolve).imp ?_
  intro member object found
  exact .caseClass found (Schema.name_of_objectType? found) rfl (object.signature_caseClass _)

end UnionType

namespace Schema

/-- Whichever declaration of its name is kept, it has the variants of the union. -/
theorem variants_eq_of_kept (writable : schema.Writable scalars) {union : UnionType} {declared : SealedTrait}
    (defined : .union union ∈ schema.definitions) (emitted : .sealedTrait declared ∈ schema.emitted scalars)
    (sameName : declared.name = union.name) : declared.variants = (union.sealedTrait schema scalars).variants := by
  have sameShape := writable.compatible _ emitted _ (mem_emitted_iff.mpr (.union defined)) sameName
  cases mem_emitted_iff.mp emitted with
  | enum =>
    obtain ⟨none, otherNone⟩ := EnumType.eq_nil_of_shape_eq sameShape
    rw [none, otherNone]
  | @union other otherDefined =>
    have members := UnionType.members_eq_of_shape_eq writable.proper (writable.members other otherDefined)
      (writable.members union defined) sameShape
    have ownName : other.name = union.name := sameName
    simp only [UnionType.sealedTrait, UnionType.objects, members, ownName]

/-- A case class that has the name of an object type, and of nothing else, is declared exactly for an object type that
stands nowhere else. -/
theorem exists_caseClass_iff {context : WriteContext} {packageName : Option String}
    (writable : schema.Writable context.scalars) {type : RecordType} (defined : .object type ∈ schema.definitions)
    (alone : ∀ definition ∈ schema.definitions, definition.object? = none → definition.name ≠ type.name)
    (apart : ∀ field ∈ schema.argumentFields, argumentsName field.name ≠ type.name) :
    (∃ declared : CaseClass, .caseClass declared ∈ (schema.document context packageName).types ∧
      declared.name = type.name) ↔ ¬schema.IsRoot type ∧ ¬schema.IsMember type.name := by
  have topLevel : ¬schema.IsRoot type ∧ ¬schema.IsMember type.name ↔
      type.name ∉ schema.nestedNames schema.rootTypes :=
    (isDataType_iff writable defined).trans Definition.isTopLevel_object_iff
  constructor
  · rintro ⟨declared, kept, sameName⟩
    have bearing {owner : RecordType} {field : Field} (known : .object owner ∈ schema.definitions)
        (inside : field ∈ owner.fields) (taken : field.argumentClass? context.scalars = some declared) : False := by
      obtain ⟨given, rfl⟩ := Field.argumentClass?_eq_some_iff.mp taken
      exact apart field (mem_argumentFields_iff.mpr ⟨owner, known, inside, given⟩) sameName
    cases mem_emitted_iff.mp (mem_of_mem_firstOfEachName kept) with
    | argumentClass known inside taken => exact (bearing known inside taken).elim
    | memberArgumentClass known listed found inside taken =>
      exact (bearing (mem_of_objectType? found) inside taken).elim
    | @object other known outside =>
      have ownName : other.name = type.name := sameName
      rw [ownName] at outside
      exact topLevel.mpr outside
    | input known => exact absurd sameName (alone _ known rfl)
  · intro shown
    rcases declares_or_clash writable defined with declares | ⟨other, known, clash⟩
    · have dataType : schema.IsDataType (.object type) := shown
      exact declares.exists_caseClass rfl dataType
    · have isSum : other.object? = none := by
        have kinds := clash.kinds
        cases other with
        | object record => exact absurd rfl kinds
        | input record => rfl
        | enum record => rfl
        | union record => rfl
      exact absurd clash.sameName.symm (alone other known isSum)

theorem exists_sealedTrait {context : WriteContext} {packageName : Option String}
    (writable : schema.Writable context.scalars) {union : UnionType} (defined : .union union ∈ schema.definitions)
    (given : union.members ≠ []) :
    ∃ declared : SealedTrait, .sealedTrait declared ∈ (schema.document context packageName).types ∧
      declared.name = union.name := by
  rcases declares_or_clash writable defined with declares | ⟨other, -, clash⟩
  · have isSum : ¬(Definition.union union).isRecord := Bool.false_ne_true
    exact declares.exists_sealedTrait isSum
  · exact absurd clash.firstEmpty given

end Schema

/-- An object type whose name is not taken is a data type exactly if it is neither a root nor a member of any union. All
unions have their members as variants, in their order, and all roots are among the operations. Data types and operations
are shown as blocks of their two groups. -/
theorem Settings.objectTypes_placed {settings : Settings} {effect : Option String} {text source : String}
    {document : Document} (read : Schema.ofText text source = .ok schema)
    (written : settings.write schema effect = .ok document) :
    document.LaidOut (document.types.map Declaration.text) (document.operations.map CaseClass.text) ∧
    (∀ type, .object type ∈ schema.definitions →
      (∀ definition ∈ schema.definitions, definition.object? = none → definition.name ≠ type.name) →
      (∀ field ∈ schema.argumentFields, argumentsName field.name ≠ type.name) →
      ((∃ declared : CaseClass, .caseClass declared ∈ document.types ∧ declared.name = type.name) ↔
        ¬schema.IsRoot type ∧ ¬schema.IsMember type.name)) ∧
    (∀ union, .union union ∈ schema.definitions →
      (union.members ≠ [] →
        ∃ declared : SealedTrait, .sealedTrait declared ∈ document.types ∧ declared.name = union.name) ∧
      ∀ declared : SealedTrait, .sealedTrait declared ∈ document.types → declared.name = union.name →
        List.Forall₂ (union.IsVariant schema settings.scalars) union.members declared.variants) ∧
    ∀ operation type, schema.root operation = .ok (some type) →
      ∃ declared ∈ document.operations, declared.name = type.name ∧
        declared.signature = type.fields.map fun field => (safeName field.name, field.signature
          (operation.resultType (settings.context effect).effect (field.type.expression settings.scalars))) := by
  obtain ⟨writable, rfl⟩ := writable_of_write (Schema.ofText_proper read) written
  refine ⟨Document.laidOut _, ?_, ?_, ?_⟩
  · intro type defined alone apart
    exact Schema.exists_caseClass_iff writable defined alone apart
  · intro union defined
    refine ⟨Schema.exists_sealedTrait writable defined, ?_⟩
    intro declared kept sameName
    rw [Schema.variants_eq_of_kept writable defined (mem_of_mem_firstOfEachName kept) sameName]
    exact UnionType.forall₂_variants (writable.members union defined)
  · intro operation type served
    exact ⟨_, Schema.operationClass_mem_operations served, rfl, type.signature_operationClass _⟩

def crewText : String :=
  "union Crew = Query | Cook union Crew = Query | Cook type Query \x7b ship: Ship \x7d
   type Cook \x7b meal(day: Int): String \x7d type Ship \x7b crew: [Crew!] \x7d"

def crewUnion : UnionType :=
  { name := "Crew", members := ["Query", "Cook"] }

def crewShip : RecordType :=
  { name := "Ship", fields := [{ name := "crew", type := .list (.named "Crew" true) false }] }

/-- A union that is given twice, with a root among its members, and an object type that stands nowhere else. -/
def crew : Schema :=
  let day : Argument := { name := "day", type := .named "Int" false }
  { definitions :=
      [.union crewUnion, .union crewUnion,
       .object { name := "Query", fields := [{ name := "ship", type := .named "Ship" false }] },
       .object { name := "Cook", fields := [{ name := "meal", type := .named "String" false, arguments := [day] }] },
       .object crewShip] }

theorem Settings.objectTypes_placed_crew :
    ∃ document, Schema.ofText crewText = .ok crew ∧ ({} : Settings).write crew = .ok document ∧
      (∃ declared : CaseClass, .caseClass declared ∈ document.types ∧ declared.name = "Ship") ∧
      (¬∃ declared : CaseClass, .caseClass declared ∈ document.types ∧ declared.name = "Cook") ∧
      (∃ declared : SealedTrait, .sealedTrait declared ∈ document.types ∧ declared.variants.length = 2) ∧
      (∃ declared ∈ document.operations, declared.name = "Query") ∧
      document.typesGroup = Document.group "Types" "\n" (document.types.map Declaration.text) := by
  have read : Schema.ofText crewText = .ok crew := by decide +kernel
  have written : ({} : Settings).write crew = .ok _ := rfl
  obtain ⟨laidOut, objects, unions, roots⟩ := objectTypes_placed read written
  refine ⟨_, read, written, ?_, ?_, ?_, ?_, laidOut.typesGroup⟩
  · refine (objects crewShip (by decide) (by decide) (by decide)).mpr ⟨?_, ?_⟩
    · rintro ⟨operation, served⟩
      revert served
      cases operation <;> decide
    · rintro ⟨union, defined, listed⟩
      have free : ∀ definition ∈ crew.definitions, "Ship" ∉ definition.memberNames := by decide
      exact free _ defined listed
  · intro declared
    have cook : Definition.object _ ∈ crew.definitions := List.mem_of_getElem? (rfl : crew.definitions[3]? = _)
    exact ((objects _ cook (by decide) (by decide)).mp declared).2 ⟨crewUnion, by decide, by decide⟩
  · obtain ⟨has, all⟩ := unions crewUnion (by decide)
    obtain ⟨declared, kept, sameName⟩ := has (by decide)
    exact ⟨declared, kept, (all declared kept sameName).length_eq.symm⟩
  · obtain ⟨declared, member, named, -⟩ := roots .query _ rfl
    exact ⟨declared, member, named⟩

end SchemaScribe
