import SchemaScribe.Proofs.BuiltSchema
import SchemaScribe.Proofs.Redescription
import SchemaScribe.Proofs.Shapes
import SchemaScribe.Proofs.VariantTexts

/-! Which definitions share a shape. Two of the same kind do when they are declared alike, descriptions apart; an
object or input type and an enum or union do when both are empty, although they are declared differently. -/

namespace SchemaScribe

def undescribed (_ : Option String) : Option String :=
  none

variable {schema : Schema} {scalars : Scalars}

/-- Case classes of one shape are equal but for descriptions, if they stand in the same place. -/
theorem CaseClass.undescribed_eq_of_shape_eq {first second : CaseClass} (same : first.shape = second.shape)
    (sameParent : first.parent = second.parent) (sameLayout : first.multiline = second.multiline) :
    first.redescribe undescribed = second.redescribe undescribed := by
  obtain ⟨sameName, sameSignature⟩ := shape_eq_iff.mp same
  have parameters (declaration : CaseClass) : declaration.parameters.map (·.redescribe undescribed) =
      declaration.signature.map fun entry => { name := entry.1, type := entry.2 } := by
    simp [signature, Parameter.redescribe, undescribed, Function.comp_def]
  simp only [redescribe, parameters, sameName, sameSignature, sameParent, sameLayout, undescribed]

theorem EnumType.undescribed_eq_of_shape_eq {first second : EnumType}
    (same : first.sealedTrait.shape = second.sealedTrait.shape) :
    first.sealedTrait.redescribe undescribed = second.sealedTrait.redescribe undescribed := by
  obtain ⟨sameName, sameTexts⟩ := SealedTrait.shape_eq_iff.mp same
  have ownName : first.name = second.name := sameName
  have variants : first.sealedTrait.variants.map (·.redescribe undescribed) =
      second.sealedTrait.variants.map (·.redescribe undescribed) := by
    apply map_eq_map_of_forall sameTexts
    intro variant inside other listed sameText
    obtain ⟨value, -, rfl⟩ := List.mem_map.mp inside
    obtain ⟨otherValue, -, rfl⟩ := List.mem_map.mp listed
    have sameValue : safeName value.name = safeName otherValue.name :=
      CaseObject.name_eq_of_text_eq ownName sameText
    simp only [Variant.redescribe, CaseObject.redescribe, sameValue, ownName, undescribed]
  rw [SealedTrait.redescribe, SealedTrait.redescribe, variants, sameName]
  rfl

theorem EnumType.eq_nil_of_shape_eq {type : EnumType} {other : UnionType}
    (same : type.sealedTrait.shape = (other.sealedTrait schema scalars).shape) :
    type.sealedTrait.variants = [] ∧ (other.sealedTrait schema scalars).variants = [] := by
  obtain ⟨-, sameTexts⟩ := SealedTrait.shape_eq_iff.mp same
  cases values : type.values with
  | nil =>
    have none : type.sealedTrait.variants = [] := by simp [sealedTrait, values]
    rw [none] at sameTexts
    exact ⟨none, List.map_eq_nil_iff.mp sameTexts.symm⟩
  | cons value rest =>
    cases objects : other.objects schema with
    | nil => simp [sealedTrait, UnionType.sealedTrait, values, objects] at sameTexts
    | cons object others =>
      simp only [sealedTrait, UnionType.sealedTrait, values, objects, List.map_cons] at sameTexts
      exact absurd (List.cons.inj sameTexts).1 (CaseObject.text_ne_caseClass _ _)

namespace UnionType

theorem map_name_objects {type : UnionType} (resolve : ∀ member ∈ type.members, schema.Resolves member) :
    (type.objects schema).map (·.name) = type.members := by
  rw [objects]
  generalize type.members = members at resolve
  induction members with
  | nil => rfl
  | cons first rest ih =>
    obtain ⟨head, tail⟩ := List.forall_mem_cons.mp resolve
    obtain ⟨object, found⟩ := Schema.resolves_iff.mp head
    rw [List.filterMap_cons_some found, List.map_cons, ih tail, Schema.name_of_objectType? found]

/-- Unions of one shape list the same members, whatever the scalars are mapped to. -/
theorem members_eq_of_shape_eq {first second : UnionType} (proper : schema.Proper)
    (firstResolve : ∀ member ∈ first.members, schema.Resolves member)
    (secondResolve : ∀ member ∈ second.members, schema.Resolves member)
    (same : (first.sealedTrait schema scalars).shape = (second.sealedTrait schema scalars).shape) :
    first.members = second.members := by
  obtain ⟨-, sameTexts⟩ := SealedTrait.shape_eq_iff.mp same
  have named (type : UnionType) : ∀ object ∈ type.objects schema, IsName object.name := by
    intro object listed
    obtain ⟨name, -, found⟩ := mem_objects_iff.mp listed
    exact RecordType.Proper.name (proper.definitions _ (Schema.mem_of_objectType? found))
  rw [sealedTrait, sealedTrait, List.map_map, List.map_map] at sameTexts
  rw [← map_name_objects firstResolve, ← map_name_objects secondResolve]
  apply map_eq_map_of_forall sameTexts
  intro object inside other listed sameText
  have ownText : (object.caseClass scalars (some first.name)).text =
      (other.caseClass scalars (some second.name)).text := sameText
  exact CaseClass.name_eq_of_text_eq (named first object inside) (named second other listed) ownText

end UnionType

namespace Definition

/-- An object or input type, as opposed to an enum or a union. -/
def isRecord : Definition → Bool
  | object _ => true
  | input _ => true
  | enum _ => false
  | union _ => false

theorem name_declaration (definition : Definition) :
    (definition.declaration schema scalars).name = definition.name := by
  cases definition <;> rfl

theorem exists_caseClass {definition : Definition} (isRecord : definition.isRecord) :
    ∃ declared : CaseClass, definition.declaration schema scalars = .caseClass declared ∧ declared.parent = none ∧
      declared.multiline = false ∧ (declared.parameters = [] → definition.memberNames = []) := by
  cases definition with
  | object type | input type =>
    refine ⟨_, rfl, rfl, rfl, ?_⟩
    intro empty
    have fields : type.fields = [] := List.map_eq_nil_iff.mp empty
    simp [memberNames, fields]
  | enum type => cases isRecord
  | union type => cases isRecord

theorem exists_sealedTrait {definition : Definition} (isSum : ¬definition.isRecord)
    (resolve : definition.MembersResolve schema) :
    ∃ declared : SealedTrait, definition.declaration schema scalars = .sealedTrait declared ∧
      (declared.variants = [] → definition.memberNames = []) := by
  cases definition with
  | object type => exact absurd rfl isSum
  | input type => exact absurd rfl isSum
  | enum type =>
    refine ⟨_, rfl, ?_⟩
    intro empty
    have values : type.values = [] := List.map_eq_nil_iff.mp empty
    simp [memberNames, values]
  | union type =>
    refine ⟨_, rfl, ?_⟩
    intro empty
    have objects : type.objects schema = [] := List.map_eq_nil_iff.mp empty
    have members := UnionType.map_name_objects (resolve type rfl)
    rw [objects] at members
    exact members.symm

theorem undescribed_eq_of_sums {first second : Definition} (proper : schema.Proper)
    (firstSum : ¬first.isRecord) (secondSum : ¬second.isRecord)
    (firstResolve : first.MembersResolve schema) (secondResolve : second.MembersResolve schema)
    (same : (first.declaration schema scalars).shape = (second.declaration schema scalars).shape) :
    (first.declaration schema scalars).redescribe undescribed =
      (second.declaration schema scalars).redescribe undescribed := by
  have sameName := congrArg Shape.name same
  -- An enum and a union share a shape only if neither has variants.
  have empty {one other : SealedTrait} (sameName : one.name = other.name)
      (none : one.variants = [] ∧ other.variants = []) :
      (Declaration.sealedTrait one).redescribe undescribed =
        (Declaration.sealedTrait other).redescribe undescribed := by
    simp only [Declaration.redescribe, SealedTrait.redescribe, none.1, none.2, sameName, undescribed]
  cases first with
  | object type => exact absurd rfl firstSum
  | input type => exact absurd rfl firstSum
  | enum type =>
    cases second with
    | object other => exact absurd rfl secondSum
    | input other => exact absurd rfl secondSum
    | enum other => exact congrArg Declaration.sealedTrait (EnumType.undescribed_eq_of_shape_eq same)
    | union other => exact empty sameName (EnumType.eq_nil_of_shape_eq same)
  | union type =>
    cases second with
    | object other => exact absurd rfl secondSum
    | input other => exact absurd rfl secondSum
    | enum other => exact empty sameName (EnumType.eq_nil_of_shape_eq same.symm).symm
    | union other =>
      have members := UnionType.members_eq_of_shape_eq proper (firstResolve type rfl) (secondResolve other rfl) same
      have ownName : type.name = other.name := sameName
      simp only [declaration, UnionType.sealedTrait, UnionType.objects, members, ownName, Declaration.redescribe,
        SealedTrait.redescribe, undescribed]

/-- Two definitions of one shape are declared alike, or one of them is an empty record and the other an empty sum. -/
theorem undescribed_eq_or_empty {first second : Definition} (proper : schema.Proper)
    (firstResolve : first.MembersResolve schema) (secondResolve : second.MembersResolve schema)
    (same : (first.declaration schema scalars).shape = (second.declaration schema scalars).shape) :
    (first.declaration schema scalars).redescribe undescribed =
        (second.declaration schema scalars).redescribe undescribed ∨
      first.isRecord ≠ second.isRecord ∧ first.memberNames = [] ∧ second.memberNames = [] := by
  have mixed {one other : Definition} (isRecord : one.isRecord) (isSum : ¬other.isRecord)
      (resolve : other.MembersResolve schema)
      (same : (one.declaration schema scalars).shape = (other.declaration schema scalars).shape) :
      one.memberNames = [] ∧ other.memberNames = [] := by
    obtain ⟨declared, own, -, -, members⟩ := exists_caseClass isRecord
    obtain ⟨otherDeclared, otherOwn, otherMembers⟩ := exists_sealedTrait isSum resolve
    rw [own, otherOwn] at same
    obtain ⟨parameters, variants⟩ := eq_nil_of_shape_eq same
    exact ⟨members parameters, otherMembers variants⟩
  by_cases firstRecord : first.isRecord
  · by_cases secondRecord : second.isRecord
    · obtain ⟨declared, own, parent, layout, -⟩ := exists_caseClass firstRecord
      obtain ⟨other, otherOwn, otherParent, otherLayout, -⟩ := exists_caseClass secondRecord
      rw [own, otherOwn] at same ⊢
      have equal := CaseClass.undescribed_eq_of_shape_eq same (parent.trans otherParent.symm)
        (layout.trans otherLayout.symm)
      exact Or.inl (congrArg Declaration.caseClass equal)
    · exact Or.inr ⟨fun equal => secondRecord (equal ▸ firstRecord),
        mixed firstRecord secondRecord secondResolve same⟩
  · by_cases secondRecord : second.isRecord
    · exact Or.inr ⟨fun equal => firstRecord (equal ▸ secondRecord),
        (mixed secondRecord firstRecord firstResolve same.symm).symm⟩
    · exact Or.inl (undescribed_eq_of_sums proper firstRecord secondRecord firstResolve secondResolve same)

end Definition

end SchemaScribe
