import SchemaScribe.Proofs.EqualShapes
import SchemaScribe.Proofs.Outcome
import SchemaScribe.Proofs.Tables

/-! Whether each definition of a written schema is declared as what it is. It is, with one exception: of an empty object
or input type and an empty enum or union of one name only the first is declared, and no error is reported. -/

namespace SchemaScribe

/-- The type of a result, as the operation hands it out. -/
def Operation.resultType (effect : String) : Operation → String → String
  | .query => effectOf effect
  | .mutation => effectOf effect
  | .subscription => streamOf

def HasCaseClass (declarations : List Declaration) (name : String) (signature : List (String × String)) : Prop :=
  ∃ declared : CaseClass, .caseClass declared ∈ declarations ∧ declared.name = name ∧ declared.signature = signature

/-- There is a sealed trait of that name with these variants, whatever their descriptions are. -/
def HasSealedTrait (declarations : List Declaration) (name : String) (variants : List Variant) : Prop :=
  ∃ declared : SealedTrait, .sealedTrait declared ∈ declarations ∧ declared.name = name ∧
    declared.variants.map (·.redescribe undescribed) = variants

namespace Schema

def IsRoot (schema : Schema) (type : RecordType) : Prop :=
  ∃ operation, schema.root operation = .ok (some type)

def IsMember (schema : Schema) (name : String) : Prop :=
  ∃ type, .union type ∈ schema.definitions ∧ name ∈ type.members

/-- All definitions belong among the data types, except for roots and members of unions. -/
def IsDataType (schema : Schema) : Definition → Prop
  | .object type => ¬schema.IsRoot type ∧ ¬schema.IsMember type.name
  | .input _ => True
  | .enum _ => True
  | .union _ => True

/-- The document declares the definition as what it is, with all that is inside of it. -/
def Declares (schema : Schema) (context : WriteContext) (document : Document) : Definition → Prop
  | .object type =>
    (∀ operation, schema.root operation = .ok (some type) →
      HasCaseClass (document.operations.map .caseClass) type.name (type.fields.map fun field =>
        (safeName field.name,
          field.signature (operation.resultType context.effect (field.type.expression context.scalars))))) ∧
    (schema.IsDataType (.object type) →
      HasCaseClass document.types type.name (type.fields.map fun field =>
        (safeName field.name, field.signature (field.type.expression context.scalars))))
  | .input type =>
    HasCaseClass document.types type.name (type.fields.map fun field =>
      (safeName field.name, field.type.expression context.scalars))
  | .enum type =>
    HasSealedTrait document.types type.name (type.values.map fun value =>
      .caseObject { name := safeName value.name, parent := type.name })
  | .union type =>
    ∃ objects : List RecordType, objects.map (·.name) = type.members ∧
      (∀ object ∈ objects, .object object ∈ schema.definitions) ∧
      HasSealedTrait document.types type.name (objects.map fun object =>
        .caseClass ((object.caseClass context.scalars (some type.name)).redescribe undescribed))

/-- Data types of one name and different kinds that are both empty. -/
structure Clash (schema : Schema) (first second : Definition) : Prop where
  sameName : first.name = second.name
  kinds : first.isRecord ≠ second.isRecord
  firstEmpty : first.memberNames = []
  secondEmpty : second.memberNames = []
  firstShown : schema.IsDataType first
  secondShown : schema.IsDataType second

/-- What is known of a schema that was read from a text and can be written. -/
structure Writable (schema : Schema) (scalars : Scalars) : Prop where
  proper : schema.Proper
  roots : schema.RootsResolve
  members : schema.MembersResolve
  compatible : Compatible (schema.emitted scalars)

variable {schema : Schema} {scalars : Scalars}

theorem Writable.membersResolve (writable : schema.Writable scalars) {definition : Definition}
    (defined : definition ∈ schema.definitions) : definition.MembersResolve schema := by
  intro type same
  rw [same] at defined
  exact writable.members type defined

theorem mem_rootNames_iff {name : String} :
    name ∈ schema.rootTypes.names ↔ ∃ operation type, schema.rootType? operation = some type ∧ type.name = name := by
  simp only [Roots.names, List.mem_filterMap, List.mem_cons, List.not_mem_nil, or_false]
  constructor
  · rintro ⟨root, served, found⟩
    obtain ⟨type, rfl, same⟩ := Option.map_eq_some_iff.mp found
    rcases served with query | mutation | subscription
    · exact ⟨.query, type, query.symm, same⟩
    · exact ⟨.mutation, type, mutation.symm, same⟩
    · exact ⟨.subscription, type, subscription.symm, same⟩
  · rintro ⟨operation, type, found, same⟩
    refine ⟨some type, ?_, congrArg some same⟩
    cases operation with
    | query => exact Or.inl found.symm
    | mutation => exact Or.inr (Or.inl found.symm)
    | subscription => exact Or.inr (Or.inr found.symm)

theorem mem_unions {name : String} {type : UnionType} (member : (name, type) ∈ schema.unions) :
    name = type.name ∧ .union type ∈ schema.definitions := by
  rcases Table.mem_insertAll member with impossible | entry
  · cases impossible
  · obtain ⟨listed, here, same⟩ := List.mem_map.mp entry
    cases same
    obtain ⟨definition, defined, isUnion⟩ := List.mem_filterMap.mp here
    cases definition <;> cases isUnion
    exact ⟨rfl, defined⟩

theorem exists_mem_unions {type : UnionType} (defined : .union type ∈ schema.definitions) :
    ∃ last, (type.name, last) ∈ schema.unions := by
  refine Table.exists_mem_insertAll (Or.inl ⟨type, List.mem_map.mpr ⟨type, ?_, rfl⟩⟩)
  exact List.mem_filterMap.mpr ⟨.union type, defined, rfl⟩

theorem isRoot_iff (writable : schema.Writable scalars) {type : RecordType}
    (defined : .object type ∈ schema.definitions) :
    schema.IsRoot type ↔ type.name ∈ schema.rootTypes.names := by
  rw [mem_rootNames_iff]
  constructor
  · rintro ⟨operation, served⟩
    exact ⟨operation, type, (root_eq_ok served).symm, rfl⟩
  · rintro ⟨operation, root, found, same⟩
    obtain rfl := writable.proper.eq_of_objectType? found defined (same.symm.trans (name_of_objectType? found))
    exact ⟨operation, (root_of_rootsResolve writable.roots operation).trans (congrArg Except.ok found)⟩

/-- Of several unions of one name all list the same members, so that it does not matter which of them counts. -/
theorem isMember_iff (writable : schema.Writable scalars) {name : String} :
    schema.IsMember name ↔ name ∈ schema.unionMembers := by
  rw [unionMembers, Table.values, List.mem_flatMap]
  constructor
  · rintro ⟨type, defined, listed⟩
    obtain ⟨last, entry⟩ := exists_mem_unions defined
    obtain ⟨sameName, lastDefined⟩ := mem_unions entry
    have sameShape := writable.compatible _ (mem_emitted_iff.mpr (.union defined)) _
      (mem_emitted_iff.mpr (.union lastDefined)) sameName
    have members := UnionType.members_eq_of_shape_eq writable.proper (writable.members type defined)
      (writable.members last lastDefined) sameShape
    exact ⟨last, List.mem_map.mpr ⟨_, entry, rfl⟩, members ▸ listed⟩
  · rintro ⟨type, kept, listed⟩
    obtain ⟨entry, member, rfl⟩ := List.mem_map.mp kept
    exact ⟨entry.2, (mem_unions member).2, listed⟩

theorem isDataType_iff (writable : schema.Writable scalars) {definition : Definition}
    (defined : definition ∈ schema.definitions) :
    schema.IsDataType definition ↔ definition.isTopLevel schema := by
  cases definition with
  | object type =>
    rw [Definition.isTopLevel_object_iff, nestedNames, List.mem_append, not_or, ← isRoot_iff writable defined,
      ← isMember_iff writable]
    rfl
  | input type => exact ⟨fun _ => rfl, fun _ => trivial⟩
  | enum type => exact ⟨fun _ => rfl, fun _ => trivial⟩
  | union type => exact ⟨fun _ => rfl, fun _ => trivial⟩

theorem mem_emitted_of_isTopLevel {definition : Definition} (defined : definition ∈ schema.definitions)
    (topLevel : definition.isTopLevel schema) : definition.declaration schema scalars ∈ schema.emitted scalars := by
  refine List.mem_flatMap.mpr ⟨definition, defined, List.mem_append_right _ ?_⟩
  rw [if_pos topLevel]
  exact List.mem_singleton.mpr rfl

theorem mem_emitted_of_isDataType (writable : schema.Writable scalars) {definition : Definition}
    (defined : definition ∈ schema.definitions) (shown : schema.IsDataType definition) :
    definition.declaration schema scalars ∈ schema.emitted scalars :=
  mem_emitted_of_isTopLevel defined ((isDataType_iff writable defined).mp shown)

/-- Behind an emitted declaration stands an argument class, which is never empty, or a data type. -/
theorem mem_emitted_cases (writable : schema.Writable scalars) {declaration : Declaration}
    (member : declaration ∈ schema.emitted scalars) :
    (∃ arguments : CaseClass, declaration = .caseClass arguments ∧ arguments.parameters ≠ [] ∧
      arguments.parent = none ∧ arguments.multiline = false) ∨
    ∃ other ∈ schema.definitions, schema.IsDataType other ∧ declaration = other.declaration schema scalars := by
  have argumentClass {field : Field} {arguments : CaseClass} (taken : field.argumentClass? scalars = some arguments) :
      arguments.parameters ≠ [] ∧ arguments.parent = none ∧ arguments.multiline = false := by
    obtain ⟨given, rfl⟩ := Field.argumentClass?_eq_some_iff.mp taken
    exact ⟨fun none => given (List.map_eq_nil_iff.mp none), rfl, rfl⟩
  cases mem_emitted_iff.mp member with
  | argumentClass defined inside taken => exact Or.inl ⟨_, rfl, argumentClass taken⟩
  | memberArgumentClass defined listed found inside taken => exact Or.inl ⟨_, rfl, argumentClass taken⟩
  | object defined apart =>
    have shown := (isDataType_iff writable defined).mpr (Definition.isTopLevel_object_iff.mpr apart)
    exact Or.inr ⟨_, defined, shown, rfl⟩
  | input defined => exact Or.inr ⟨_, defined, trivial, rfl⟩
  | enum defined => exact Or.inr ⟨_, defined, trivial, rfl⟩
  | union defined => exact Or.inr ⟨_, defined, trivial, rfl⟩

/-- The kept declaration of the name of a data type is its own but for descriptions, or the data type clashes. -/
theorem exists_kept_or_clash (writable : schema.Writable scalars) {definition : Definition}
    (defined : definition ∈ schema.definitions) (shown : schema.IsDataType definition) :
    (∃ kept ∈ firstOfEachName (schema.emitted scalars),
      kept.redescribe undescribed = (definition.declaration schema scalars).redescribe undescribed) ∨
    ∃ other ∈ schema.definitions, schema.Clash definition other := by
  have emitted := mem_emitted_of_isDataType writable defined shown
  obtain ⟨kept, member, sameName⟩ := exists_kept emitted
  have keptEmitted := mem_of_mem_firstOfEachName member
  have sameShape := writable.compatible kept keptEmitted _ emitted sameName
  rcases mem_emitted_cases writable keptEmitted with
    ⟨arguments, rfl, given, parent, layout⟩ | ⟨other, known, otherShown, rfl⟩
  · by_cases isRecord : definition.isRecord
    · obtain ⟨declared, own, ownParent, ownLayout, -⟩ := Definition.exists_caseClass isRecord
      refine Or.inl ⟨_, member, ?_⟩
      rw [own] at sameShape ⊢
      exact congrArg Declaration.caseClass (CaseClass.undescribed_eq_of_shape_eq sameShape
        (parent.trans ownParent.symm) (layout.trans ownLayout.symm))
    · obtain ⟨declared, own, -⟩ := Definition.exists_sealedTrait isRecord (writable.membersResolve defined)
      rw [own] at sameShape
      exact absurd (eq_nil_of_shape_eq sameShape).1 given
  · rw [Definition.name_declaration, Definition.name_declaration] at sameName
    rcases Definition.undescribed_eq_or_empty writable.proper (writable.membersResolve known)
      (writable.membersResolve defined) sameShape with equal | ⟨kinds, otherEmpty, empty⟩
    · exact Or.inl ⟨_, member, equal⟩
    · exact Or.inr ⟨other, known,
        { sameName := sameName.symm, kinds := kinds.symm, firstEmpty := empty, secondEmpty := otherEmpty
          firstShown := shown, secondShown := otherShown }⟩

end Schema

section Kept

variable {declarations : List Declaration}

theorem CaseClass.signature_redescribe (declaration : CaseClass) (change : Option String → Option String) :
    (declaration.redescribe change).signature = declaration.signature := by
  simp [signature, redescribe, Parameter.redescribe]

theorem hasCaseClass_of_kept {declared : CaseClass} (found : ∃ kept ∈ declarations,
    kept.redescribe undescribed = (Declaration.caseClass declared).redescribe undescribed) :
    HasCaseClass declarations declared.name declared.signature := by
  obtain ⟨kept, member, same⟩ := found
  cases kept with
  | caseClass other =>
    have equal := Declaration.caseClass.inj same
    have sameName : (other.redescribe undescribed).name = (declared.redescribe undescribed).name :=
      congrArg CaseClass.name equal
    have sameSignature := congrArg CaseClass.signature equal
    rw [CaseClass.signature_redescribe, CaseClass.signature_redescribe] at sameSignature
    exact ⟨other, member, sameName, sameSignature⟩
  | sealedTrait other => cases same

theorem hasSealedTrait_of_kept {declared : SealedTrait} (found : ∃ kept ∈ declarations,
    kept.redescribe undescribed = (Declaration.sealedTrait declared).redescribe undescribed) :
    HasSealedTrait declarations declared.name (declared.variants.map (·.redescribe undescribed)) := by
  obtain ⟨kept, member, same⟩ := found
  cases kept with
  | caseClass other => cases same
  | sealedTrait other =>
    have equal := Declaration.sealedTrait.inj same
    have sameName : (other.redescribe undescribed).name = (declared.redescribe undescribed).name :=
      congrArg SealedTrait.name equal
    exact ⟨other, member, sameName, congrArg SealedTrait.variants equal⟩

end Kept

section Signatures

variable {scalars : Scalars}

theorem RecordType.signature_caseClass (type : RecordType) (parent : Option String) :
    (type.caseClass scalars parent).signature =
      type.fields.map fun field => (safeName field.name, field.signature (field.type.expression scalars)) := by
  simp [CaseClass.signature, caseClass, Field.parameter]

theorem RecordType.signature_inputClass (type : RecordType) :
    (type.inputClass scalars).signature =
      type.fields.map fun field => (safeName field.name, field.type.expression scalars) := by
  simp [CaseClass.signature, inputClass, Field.inputParameter]

theorem RecordType.signature_operationClass (type : RecordType) (wrap : String → String) :
    (type.operationClass scalars wrap).signature =
      type.fields.map fun field => (safeName field.name, field.signature (wrap (field.type.expression scalars))) := by
  simp [CaseClass.signature, operationClass, Field.operationParameter]

theorem EnumType.undescribed_variants (type : EnumType) :
    type.sealedTrait.variants.map (·.redescribe undescribed) =
      type.values.map fun value => .caseObject { name := safeName value.name, parent := type.name } := by
  simp [sealedTrait, Variant.redescribe, CaseObject.redescribe, undescribed]

end Signatures

namespace Schema

variable {schema : Schema} {context : WriteContext} {packageName : Option String}

theorem operationClass_mem_operations {operation : Operation} {type : RecordType}
    (served : schema.root operation = .ok (some type)) :
    type.operationClass context.scalars (operation.resultType context.effect) ∈
      (schema.document context packageName).operations := by
  have found := (root_eq_ok served).symm
  apply List.mem_filterMap.mpr
  refine ⟨some _, ?_, rfl⟩
  cases operation with
  | query => simp [document, rootTypes, found, Operation.resultType]
  | mutation => simp [document, rootTypes, found, Operation.resultType]
  | subscription => simp [document, rootTypes, found, Operation.resultType]

theorem declares_of_kept (writable : schema.Writable context.scalars) {definition : Definition}
    (defined : definition ∈ schema.definitions)
    (kept : schema.IsDataType definition → ∃ kept ∈ firstOfEachName (schema.emitted context.scalars),
      kept.redescribe undescribed = (definition.declaration schema context.scalars).redescribe undescribed) :
    schema.Declares context (schema.document context packageName) definition := by
  cases definition with
  | object type =>
    constructor
    · intro operation served
      exact ⟨_, List.mem_map_of_mem (operationClass_mem_operations served), rfl, type.signature_operationClass _⟩
    · intro shown
      have found := hasCaseClass_of_kept (kept shown)
      rw [type.signature_caseClass] at found
      exact found
  | input type =>
    have found := hasCaseClass_of_kept (kept trivial)
    rw [type.signature_inputClass] at found
    exact found
  | enum type =>
    have found := hasSealedTrait_of_kept (kept trivial)
    rw [type.undescribed_variants] at found
    exact found
  | union type =>
    have found := hasSealedTrait_of_kept (kept trivial)
    rw [UnionType.sealedTrait, List.map_map] at found
    refine ⟨type.objects schema, UnionType.map_name_objects (writable.members type defined), ?_, found⟩
    intro object listed
    obtain ⟨name, -, here⟩ := UnionType.mem_objects_iff.mp listed
    exact mem_of_objectType? here

theorem declares_or_clash (writable : schema.Writable context.scalars) {definition : Definition}
    (defined : definition ∈ schema.definitions) :
    schema.Declares context (schema.document context packageName) definition ∨
      ∃ other ∈ schema.definitions, schema.Clash definition other := by
  by_cases clashes : ∃ other ∈ schema.definitions, schema.Clash definition other
  · exact Or.inr clashes
  · apply Or.inl
    apply declares_of_kept writable defined
    intro shown
    exact (exists_kept_or_clash writable defined shown).resolve_right clashes

theorem undescribed_eq_or_clash {scalars : Scalars} (writable : schema.Writable scalars) {first second : Definition}
    (inFirst : first ∈ schema.definitions) (inSecond : second ∈ schema.definitions)
    (firstShown : schema.IsDataType first) (secondShown : schema.IsDataType second)
    (sameName : first.name = second.name) :
    (first.declaration schema scalars).redescribe undescribed =
        (second.declaration schema scalars).redescribe undescribed ∨ schema.Clash first second := by
  have declaredName : (first.declaration schema scalars).name = (second.declaration schema scalars).name := by
    rw [Definition.name_declaration, Definition.name_declaration, sameName]
  have sameShape := writable.compatible _ (mem_emitted_of_isDataType writable inFirst firstShown) _
    (mem_emitted_of_isDataType writable inSecond secondShown) declaredName
  refine (Definition.undescribed_eq_or_empty writable.proper (writable.membersResolve inFirst)
    (writable.membersResolve inSecond) sameShape).imp_right ?_
  rintro ⟨kinds, firstEmpty, secondEmpty⟩
  exact { sameName, kinds, firstEmpty, secondEmpty, firstShown, secondShown }

theorem Declares.exists_caseClass {document : Document} {definition : Definition} (isRecord : definition.isRecord)
    (shown : schema.IsDataType definition) (declares : schema.Declares context document definition) :
    ∃ declared : CaseClass, .caseClass declared ∈ document.types ∧ declared.name = definition.name := by
  cases definition with
  | object type =>
    obtain ⟨declared, member, sameName, -⟩ := declares.2 shown
    exact ⟨declared, member, sameName⟩
  | input type =>
    obtain ⟨declared, member, sameName, -⟩ := declares
    exact ⟨declared, member, sameName⟩
  | enum type => cases isRecord
  | union type => cases isRecord

theorem Declares.exists_sealedTrait {document : Document} {definition : Definition} (isSum : ¬definition.isRecord)
    (declares : schema.Declares context document definition) :
    ∃ declared : SealedTrait, .sealedTrait declared ∈ document.types ∧ declared.name = definition.name := by
  cases definition with
  | object type => exact absurd rfl isSum
  | input type => exact absurd rfl isSum
  | enum type =>
    obtain ⟨declared, member, sameName, -⟩ := declares
    exact ⟨declared, member, sameName⟩
  | union type =>
    obtain ⟨-, -, -, declared, member, sameName, -⟩ := declares
    exact ⟨declared, member, sameName⟩

/-- Of two data types that clash, one is left out. -/
theorem not_declares_of_clash {first second : Definition} (clash : schema.Clash first second)
    (firstDeclared : schema.Declares context (schema.document context packageName) first)
    (secondDeclared : schema.Declares context (schema.document context packageName) second) : False := by
  have apart {one other : Definition} (isRecord : one.isRecord) (isSum : ¬other.isRecord)
      (shown : schema.IsDataType one) (sameName : one.name = other.name)
      (declares : schema.Declares context (schema.document context packageName) one)
      (otherDeclares : schema.Declares context (schema.document context packageName) other) : False := by
    obtain ⟨declared, member, named⟩ := declares.exists_caseClass isRecord shown
    obtain ⟨otherDeclared, otherMember, otherNamed⟩ := otherDeclares.exists_sealedTrait isSum
    have same := eq_of_kept_of_name_eq member otherMember (named.trans (sameName.trans otherNamed.symm))
    cases same
  by_cases isRecord : first.isRecord
  · have isSum : ¬second.isRecord := fun other => clash.kinds (isRecord.trans other.symm)
    exact apart isRecord isSum clash.firstShown clash.sameName firstDeclared secondDeclared
  · have other : second.isRecord := by
      have kinds := clash.kinds
      revert kinds isRecord
      cases first.isRecord <;> cases second.isRecord <;> simp
    exact apart other isRecord clash.secondShown clash.sameName.symm secondDeclared firstDeclared

end Schema

namespace Settings

variable {settings : Settings} {schema : Schema} {effect : Option String}

theorem writable_of_write (proper : schema.Proper) {document : Document}
    (written : settings.write schema effect = .ok document) :
    schema.Writable settings.scalars ∧ document = schema.document (settings.context effect) settings.packageName := by
  obtain ⟨roots, members, compatible, same⟩ := Schema.write_eq_ok written
  exact ⟨{ proper, roots, members, compatible }, same⟩

theorem write_conflict (proper : schema.Proper) (roots : schema.RootsResolve) (members : schema.MembersResolve)
    {error : WriteError} (failed : settings.write schema effect = .error error) :
    ∃ name, error = .conflictingDeclarations name :=
  conflict_of_resolved proper.wellTyped roots members failed

/-- A written document declares every definition of the schema, unless two of them clash, and of two that clash one is
missing. Definitions of one name that are declared differently and do not clash are refused. -/
theorem declares_all_iff_no_clash {text source : String} (read : Schema.ofText text source = .ok schema) :
    (∀ document, settings.write schema effect = .ok document →
      ((∀ definition ∈ schema.definitions, schema.Declares (settings.context effect) document definition) ↔
        ∀ first ∈ schema.definitions, ∀ second ∈ schema.definitions, ¬schema.Clash first second) ∧
      ∀ definition ∈ schema.definitions, schema.Declares (settings.context effect) document definition ∨
        ∃ other ∈ schema.definitions, schema.Clash definition other) ∧
    (∀ first ∈ schema.definitions, ∀ second ∈ schema.definitions, first.name = second.name →
      schema.IsDataType first → schema.IsDataType second → ¬schema.Clash first second →
      ∀ declared arguments, first.write schema settings.scalars = .ok (declared, arguments) →
      ∀ other others, second.write schema settings.scalars = .ok (other, others) →
      declared.redescribe undescribed ≠ other.redescribe undescribed →
      ∃ error, settings.write schema effect = .error error ∧
        (schema.RootsResolve → schema.MembersResolve → ∃ name, error = .conflictingDeclarations name)) := by
  have proper := Schema.ofText_proper read
  constructor
  · intro document written
    obtain ⟨writable, rfl⟩ := writable_of_write proper written
    refine ⟨⟨?_, ?_⟩, fun definition defined => Schema.declares_or_clash writable defined⟩
    · intro all first inFirst second inSecond clash
      exact Schema.not_declares_of_clash clash (all first inFirst) (all second inSecond)
    · intro none definition defined
      apply (Schema.declares_or_clash writable defined).resolve_right
      rintro ⟨other, known, clash⟩
      exact none definition defined other known clash
  · intro first inFirst second inSecond sameName firstShown secondShown noClash declared arguments firstWritten other
      others secondWritten different
    cases outcome : settings.write schema effect with
    | error error => exact ⟨error, rfl, fun roots members => write_conflict proper roots members outcome⟩
    | ok document =>
      obtain ⟨writable, -⟩ := writable_of_write proper outcome
      obtain ⟨-, firstSame⟩ := Definition.write_eq_ok firstWritten
      obtain ⟨-, secondSame⟩ := Definition.write_eq_ok secondWritten
      cases firstSame
      cases secondSame
      rcases Schema.undescribed_eq_or_clash writable inFirst inSecond firstShown secondShown sameName with
        equal | clash
      · exact absurd equal different
      · exact absurd clash noClash

/-- An object type and an enum are empty and share a name, and the enum is left out without an error. -/
theorem emptyEnum_skipped :
    ∃ schema document, Schema.ofText "type A enum A" = .ok schema ∧ ({} : Settings).write schema = .ok document ∧
      .enum { name := "A" } ∈ schema.definitions ∧ document.types = [.caseClass { name := "A" }] ∧
      ¬schema.Declares (({} : Settings).context none) document (.enum { name := "A" }) := by
  refine ⟨{ definitions := [.object { name := "A" }, .enum { name := "A" }] }, _, by decide +kernel, rfl, by decide,
    rfl, ?_⟩
  rintro ⟨declared, member, -⟩
  cases List.mem_singleton.mp member

def sharedNameText : String :=
  "union U = A type A \x7b x: Int \x7d enum E \x7b V \x7d input I \x7b y: Int \x7d type I \x7b y: Int \x7d"

/-- A member of a union, and an object type that has the name and the fields of an input type. -/
def sharedName : Schema :=
  let fields (name : String) : List Field := [{ name, type := .named "Int" false }]
  { definitions :=
      [.union { name := "U", members := ["A"] }, .object { name := "A", fields := fields "x" },
       .enum { name := "E", values := [{ name := "V" }] }, .input { name := "I", fields := fields "y" },
       .object { name := "I", fields := fields "y" }] }

theorem declares_all_of_sharedName :
    ∃ document, Schema.ofText sharedNameText = .ok sharedName ∧ ({} : Settings).write sharedName = .ok document ∧
      ∀ definition ∈ sharedName.definitions,
        sharedName.Declares (({} : Settings).context none) document definition := by
  have read : Schema.ofText sharedNameText = .ok sharedName := by decide +kernel
  have given : ∀ definition ∈ sharedName.definitions, definition.memberNames ≠ [] := by decide
  refine ⟨_, read, rfl, ?_⟩
  refine ((declares_all_iff_no_clash read).1 _ rfl).1.mpr ?_
  intro first inFirst second inSecond clash
  exact given first inFirst clash.firstEmpty

end Settings

end SchemaScribe
