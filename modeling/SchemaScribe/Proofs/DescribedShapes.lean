import SchemaScribe.Proofs.EqualShapes

/-! What descriptions have to do with shapes. Case classes are compared by their signatures, but sealed traits by the
texts of their variants, in which descriptions stand. For two enums that can make a difference; for two unions it makes
none, since variants of one name are made of one object type. -/

namespace SchemaScribe

/-- The comparison of the two declarations comes out the same without descriptions. -/
def Unaffected (first second : Declaration) : Prop :=
  first.shape = second.shape ↔ (first.redescribe undescribed).shape = (second.redescribe undescribed).shape

variable {schema : Schema} {scalars : Scalars}

theorem CaseClass.shape_redescribe {change : Option String → Option String} (declaration : CaseClass) :
    (declaration.redescribe change).shape = declaration.shape := by
  simp [shape, redescribe, Parameter.redescribe]

theorem CaseClass.shape_eq_sealedTrait_iff {declaration : CaseClass} {other : SealedTrait} :
    declaration.shape = other.shape ↔
      declaration.name = other.name ∧ declaration.parameters = [] ∧ other.variants = [] := by
  constructor
  · intro same
    exact ⟨congrArg Shape.name same, eq_nil_of_shape_eq same⟩
  · rintro ⟨sameName, parameters, variants⟩
    simp only [shape, SealedTrait.shape, sameName, parameters, variants, List.map_nil]

theorem CaseObject.text_eq_iff {first second : CaseObject} (sameParent : first.parent = second.parent) :
    first.text = second.text ↔
      first.name = second.name ∧ descriptionClause first.description = descriptionClause second.description := by
  constructor
  · intro same
    have sameName := name_eq_of_text_eq sameParent same
    refine ⟨sameName, String.toList_inj.mp ?_⟩
    have whole := congrArg String.toList same
    rw [toList_text, toList_text, sameName, sameParent] at whole
    exact List.append_cancel_right whole
  · rintro ⟨sameName, sameDescription⟩
    rw [text, text, sameName, sameDescription, sameParent]

namespace EnumType

def variant (type : EnumType) (value : EnumValue) : CaseObject :=
  { name := safeName value.name, parent := type.name, description := value.description }

theorem map_text_variants (type : EnumType) :
    type.sealedTrait.variants.map Variant.text = type.values.map fun value => (type.variant value).text := by
  rw [sealedTrait, List.map_map]
  rfl

theorem shape_eq_iff {first second : EnumType} :
    first.sealedTrait.shape = second.sealedTrait.shape ↔ first.name = second.name ∧
      first.values.map (safeName ·.name) = second.values.map (safeName ·.name) ∧
      first.values.map (descriptionClause ·.description) = second.values.map (descriptionClause ·.description) := by
  rw [SealedTrait.shape_eq_iff, map_text_variants, map_text_variants]
  refine and_congr_right fun sameName => ⟨fun same => ?_, fun ⟨names, descriptions⟩ => ?_⟩
  · have each (value other : EnumValue) : (first.variant value).text = (second.variant other).text ↔ _ :=
      CaseObject.text_eq_iff sameName
    exact ⟨map_eq_map_of_forall same fun value _ other _ equal => ((each value other).mp equal).1,
      map_eq_map_of_forall same fun value _ other _ equal => ((each value other).mp equal).2⟩
  · -- The text of a value is put together from the two things that are known to be the same.
    let written (parent name description : String) := description ++ "case object " ++ name ++ " extends " ++ parent
    have texts (type : EnumType) : (type.values.map fun value => (type.variant value).text) =
        List.zipWith (written type.name) (type.values.map (safeName ·.name))
          (type.values.map (descriptionClause ·.description)) := by
      rw [List.zipWith_map, List.zipWith_self]
      rfl
    have ownName : first.name = second.name := sameName
    rw [texts, texts, names, descriptions, ownName]

end EnumType

namespace UnionType

/-- The object types of a union can be looked up again by their names. -/
theorem filterMap_name_objects (type : UnionType) :
    ((type.objects schema).map (·.name)).filterMap schema.objectType? = type.objects schema := by
  rw [objects, List.map_filterMap, List.filterMap_filterMap]
  refine List.filterMap_congr fun member _ => ?_
  cases found : schema.objectType? member with
  | none => rfl
  | some object =>
    rw [Option.map_some, Option.bind_some, Schema.name_of_objectType? found]
    exact found

/-- Variants with one text are made of one object type, however their descriptions are changed. -/
theorem objects_eq_of_texts_eq (named : schema.Named) {first second : UnionType}
    {change : Option String → Option String}
    (same : (((first.sealedTrait schema scalars).redescribe change).variants.map Variant.text) =
      ((second.sealedTrait schema scalars).redescribe change).variants.map Variant.text) :
    first.objects schema = second.objects schema := by
  have isName {type : UnionType} {object : RecordType} (listed : object ∈ type.objects schema) :
      IsName object.name := by
    obtain ⟨member, -, found⟩ := mem_objects_iff.mp listed
    apply named
    refine List.mem_append_left _ (List.mem_flatMap.mpr ⟨.object object, Schema.mem_of_objectType? found, ?_⟩)
    exact List.mem_cons_self ..
  have texts (type : UnionType) : ((type.sealedTrait schema scalars).redescribe change).variants.map Variant.text =
      (type.objects schema).map fun object =>
        ((object.caseClass scalars (some type.name)).redescribe change).text := by
    simp only [sealedTrait, SealedTrait.redescribe, List.map_map]
    rfl
  rw [texts, texts] at same
  have names : (first.objects schema).map (·.name) = (second.objects schema).map (·.name) := by
    refine map_eq_map_of_forall same fun object listed other otherListed equal => ?_
    exact CaseClass.name_eq_of_text_eq (isName listed) (isName otherListed) equal
  rw [← first.filterMap_name_objects, names, second.filterMap_name_objects]

theorem shape_redescribe_eq_iff (named : schema.Named) {first second : UnionType}
    {change : Option String → Option String} :
    ((first.sealedTrait schema scalars).redescribe change).shape =
        ((second.sealedTrait schema scalars).redescribe change).shape ↔
      first.name = second.name ∧ first.objects schema = second.objects schema := by
  rw [SealedTrait.shape_eq_iff]
  refine and_congr_right fun sameName => ⟨objects_eq_of_texts_eq named, fun same => ?_⟩
  have ownName : first.name = second.name := sameName
  simp only [SealedTrait.redescribe, sealedTrait, same, ownName]

end UnionType

/-- An enum and a union can stand for each other only if neither has a variant. -/
theorem EnumType.shape_eq_union_iff {type : EnumType} {other : UnionType} :
    type.sealedTrait.shape = (other.sealedTrait schema scalars).shape ↔
      type.name = other.name ∧ type.values = [] ∧ other.objects schema = [] := by
  constructor
  · intro same
    obtain ⟨values, objects⟩ := eq_nil_of_shape_eq same
    exact ⟨congrArg Shape.name same, List.map_eq_nil_iff.mp values, List.map_eq_nil_iff.mp objects⟩
  · rintro ⟨sameName, values, objects⟩
    simp only [SealedTrait.shape, sealedTrait, UnionType.sealedTrait, sameName, values, objects, List.map_nil]

theorem SealedTrait.redescribe_id (declaration : SealedTrait) : declaration.redescribe id = declaration := by
  have parameter : (fun parameter : Parameter => parameter.redescribe id) = id := rfl
  have variant (variant : Variant) : variant.redescribe id = variant := by
    cases variant with
    | caseObject variant => rfl
    | caseClass variant =>
      simp only [Variant.redescribe, CaseClass.redescribe, parameter, List.map_id]
      rfl
  simp only [redescribe, variant, List.map_id', id]

namespace Unaffected

theorem symm {first second : Declaration} (unaffected : Unaffected first second) : Unaffected second first :=
  eq_comm.trans (Iff.trans unaffected eq_comm)

theorem caseClass (declared : CaseClass) (other : Declaration) : Unaffected (.caseClass declared) other := by
  cases other with
  | caseClass other =>
    change declared.shape = other.shape ↔
      (declared.redescribe undescribed).shape = (other.redescribe undescribed).shape
    rw [CaseClass.shape_redescribe, CaseClass.shape_redescribe]
  | sealedTrait other =>
    change declared.shape = other.shape ↔
      (declared.redescribe undescribed).shape = (other.redescribe undescribed).shape
    rw [CaseClass.shape_eq_sealedTrait_iff, CaseClass.shape_eq_sealedTrait_iff]
    simp only [CaseClass.redescribe, SealedTrait.redescribe, List.map_eq_nil_iff]

theorem enum_union (type : EnumType) (other : UnionType) :
    Unaffected (.sealedTrait type.sealedTrait) (.sealedTrait (other.sealedTrait schema scalars)) := by
  change type.sealedTrait.shape = (other.sealedTrait schema scalars).shape ↔
    (type.sealedTrait.redescribe undescribed).shape = ((other.sealedTrait schema scalars).redescribe undescribed).shape
  rw [← EnumType.sealedTrait_redescribe, ← UnionType.sealedTrait_redescribe, EnumType.shape_eq_union_iff,
    EnumType.shape_eq_union_iff, UnionType.objects_redescribe]
  simp only [EnumType.redescribe, UnionType.redescribe, List.map_eq_nil_iff]

theorem unions (named : schema.Named) (first second : UnionType) :
    Unaffected (.sealedTrait (first.sealedTrait schema scalars))
      (.sealedTrait (second.sealedTrait schema scalars)) := by
  change (first.sealedTrait schema scalars).shape = (second.sealedTrait schema scalars).shape ↔
    ((first.sealedTrait schema scalars).redescribe undescribed).shape =
      ((second.sealedTrait schema scalars).redescribe undescribed).shape
  have described : ((first.sealedTrait schema scalars).redescribe id).shape =
      ((second.sealedTrait schema scalars).redescribe id).shape ↔ _ := UnionType.shape_redescribe_eq_iff named
  rw [SealedTrait.redescribe_id, SealedTrait.redescribe_id] at described
  rw [described, UnionType.shape_redescribe_eq_iff named]

/-- Descriptions tell two enums apart that have the same values under one name. -/
theorem enums_iff (first second : EnumType) :
    ¬Unaffected (.sealedTrait first.sealedTrait) (.sealedTrait second.sealedTrait) ↔
      first.name = second.name ∧ first.values.map (safeName ·.name) = second.values.map (safeName ·.name) ∧
        first.values.map (descriptionClause ·.description) ≠ second.values.map (descriptionClause ·.description) := by
  have silent : (first.sealedTrait.redescribe undescribed).shape = (second.sealedTrait.redescribe undescribed).shape ↔
      first.name = second.name ∧ first.values.map (safeName ·.name) = second.values.map (safeName ·.name) := by
    rw [← EnumType.sealedTrait_redescribe, ← EnumType.sealedTrait_redescribe, EnumType.shape_eq_iff]
    simp only [EnumType.redescribe, List.map_map]
    refine and_congr_right fun _ => and_iff_left_of_imp fun names => ?_
    refine map_eq_map_of_forall names fun _ _ _ _ _ => rfl
  change ¬(first.sealedTrait.shape = second.sealedTrait.shape ↔
    (first.sealedTrait.redescribe undescribed).shape = (second.sealedTrait.redescribe undescribed).shape) ↔ _
  rw [silent, EnumType.shape_eq_iff]
  tauto

end Unaffected

/-- Names that are written alike are the same, since no name holds a back quote. -/
theorem safeName_inj {name other : String} (named : IsName name) (otherNamed : IsName other)
    (same : safeName name = safeName other) : name = other := by
  have quoted {one another : String} (named : IsName another) : "\x60" ++ one ++ "\x60" ≠ another := by
    intro same
    have inside : '\x60' ∈ another.toList := by simp [← same]
    exact named.not_mem (by decide) inside
  rw [safeName, safeName] at same
  split at same <;> split at same
  · have whole := congrArg String.toList same
    rw [String.toList_append, String.toList_append, String.toList_append, String.toList_append] at whole
    exact String.toList_inj.mp (List.append_cancel_left (List.append_cancel_right whole))
  · exact absurd same (quoted otherNamed)
  · exact absurd same.symm (quoted named)
  · exact same

end SchemaScribe
