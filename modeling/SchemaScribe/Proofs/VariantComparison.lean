import SchemaScribe.Proofs.DescribedShapes
import SchemaScribe.Proofs.Documents
import SchemaScribe.Proofs.Vocabulary

/-! Variants are compared by their texts, and that is as good as comparing what they are made of: no two variants that
differ in more than a missing and an empty description are written alike. -/

namespace SchemaScribe
open Source (isNameContinue)

/-- What can follow a parameter, whichever way the parameters are laid out. -/
def parameterEnds : List Char :=
  [',', ')', '\n']

theorem separate_of_mem_parameterEnds {c : Char} (ends : c ∈ parameterEnds) : Separate c := by
  simp only [parameterEnds, List.mem_cons, List.not_mem_nil, or_false] at ends
  rcases ends with rfl | rfl | rfl <;> exact ⟨by decide, by decide⟩

/-- A label with a colon or a blank behind it can be cut off in one way only. -/
theorem label_append_unique {first second : String} {rest others : List Char} {c : Char} (isLabel : IsLabel first)
    (otherIsLabel : IsLabel second) (stops : ¬(isNameContinue c ∨ c = '\x60'))
    (same : first.toList ++ c :: rest = second.toList ++ c :: others) : first = second ∧ rest = others := by
  let inLabel (c : Char) : Bool := isNameContinue c || c = '\x60'
  have kind {text : String} (isLabel : IsLabel text) : ∀ c ∈ text.toList, inLabel c := by
    simpa [inLabel, IsLabel] using isLabel
  have stop : ¬inLabel c := by simpa [inLabel] using stops
  obtain ⟨sameLabel, -, behind⟩ := span_append_unique (kind isLabel) (kind otherIsLabel) stop stop same
  exact ⟨String.toList_inj.mp sameLabel, behind⟩

section Redescription

theorem descriptionClause_shownDescription (description : Option String) :
    descriptionClause (shownDescription description) = descriptionClause description :=
  descriptionClause_congr (by simp [shownDescription])

theorem isDescribed_shownDescription (description : Option String) :
    isDescribed (shownDescription description) = isDescribed description := by
  rw [← isSome_shownDescription, ← isSome_shownDescription]
  simp [shownDescription]

theorem CaseClass.text_shownDescription (declaration : CaseClass) :
    (declaration.redescribe shownDescription).text = declaration.text := by
  have described : (declaration.redescribe shownDescription).hasDescribedParameter =
      declaration.hasDescribedParameter := by
    simp only [hasDescribedParameter, redescribe, Parameter.redescribe, List.any_map, Function.comp_def,
      isDescribed_shownDescription]
  have parameters : (declaration.redescribe shownDescription).parameters.map Parameter.text =
      declaration.parameters.map Parameter.text := by
    rw [redescribe, List.map_map]
    refine List.map_congr_left fun parameter _ => ?_
    simp only [Function.comp_apply, Parameter.redescribe, Parameter.text, descriptionClause_shownDescription]
  have list : (declaration.redescribe shownDescription).parameterList = declaration.parameterList := by
    rw [parameterList, parameterList, described, parameters]
    rfl
  rw [text, text, list]
  simp only [redescribe, descriptionClause_shownDescription]
  rfl

/-- A variant is written as if empty descriptions were missing. -/
theorem Variant.text_shownDescription (variant : Variant) :
    (variant.redescribe shownDescription).text = variant.text := by
  cases variant with
  | caseObject variant =>
    simp only [redescribe, text, CaseObject.text, CaseObject.redescribe, descriptionClause_shownDescription]
  | caseClass variant => exact variant.text_shownDescription

end Redescription

section Parameters

variable {parameter first second : Parameter} {c d : Char} {rest others : List Char}

theorem Parameter.toList_text (parameter : Parameter) :
    parameter.text.toList = (descriptionClause parameter.description).toList ++
      (parameter.name.toList ++ ':' :: ' ' :: parameter.type.toList) := by
  simp [text, String.toList_append]

/-- What begins with a label begins with none of the other characters. -/
theorem head_label_ne {label : String} (isLabel : IsLabel label) (outside : ¬(isNameContinue c ∨ c = '\x60'))
    (notColon : c ≠ ':') : (label.toList ++ ':' :: rest).head? ≠ some c := by
  cases chars : label.toList with
  | nil => simpa using Ne.symm notColon
  | cons head tail =>
    intro same
    obtain rfl : head = c := by simpa using same
    exact outside (isLabel head (chars ▸ List.mem_cons_self ..))

namespace Parameter

/-- No parameter begins where another one ends. -/
theorem head_text_ne (clear : parameter.Clear c) (ends : c ∈ parameterEnds) :
    (parameter.text.toList ++ rest).head? ≠ some c := by
  have outside : ¬(isNameContinue c ∨ c = '\x60') ∧ c ≠ ':' ∧ '@' ≠ c := by
    simp only [parameterEnds, List.mem_cons, List.not_mem_nil, or_false] at ends
    rcases ends with rfl | rfl | rfl <;> decide
  rw [toList_text, List.append_assoc, List.append_assoc]
  cases described : isDescribed parameter.description with
  | false =>
    rw [descriptionClause_of_missing described]
    exact head_label_ne clear.1 outside.1 outside.2.1
  | true =>
    obtain ⟨text, written⟩ := descriptionClause_of_described described
    simpa [written, String.toList_append] using outside.2.2

/-- The text of a parameter ends at the first character that can follow one. -/
theorem text_append_inj (clear : ∀ c ∈ parameterEnds, first.Clear c)
    (otherClear : ∀ c ∈ parameterEnds, second.Clear c) (ends : c ∈ parameterEnds) (otherEnds : d ∈ parameterEnds)
    (same : first.text.toList ++ c :: rest = second.text.toList ++ d :: others) :
    first.redescribe shownDescription = second.redescribe shownDescription ∧ c = d ∧ rest = others := by
  have label := (clear c ends).1
  have otherLabel := (otherClear d otherEnds).1
  rw [toList_text, toList_text, List.append_assoc, List.append_assoc, List.append_assoc, List.append_assoc] at same
  -- Each part ends where the next one has to begin: the description, the name at the colon, the type at the end.
  obtain ⟨shown, behind⟩ := descriptionClause_append_inj (head_label_ne label (by decide) (by decide))
    (head_label_ne otherLabel (by decide) (by decide)) same
  obtain ⟨sameName, typed⟩ := label_append_unique label otherLabel (by decide) behind
  have inType {parameter : Parameter} (clear : ∀ c ∈ parameterEnds, parameter.Clear c) :
      ∀ c ∈ parameter.type.toList, decide (c ∉ parameterEnds) = true :=
    fun c member => decide_eq_true fun ends => (clear c ends).2 member
  obtain ⟨sameType, sameEnd, sameRest⟩ := span_append_unique (inType clear) (inType otherClear)
    (by simpa using ends) (by simpa using otherEnds) (List.cons.inj typed).2
  exact ⟨by rw [redescribe, redescribe, shown, sameName, String.toList_inj.mp sameType], sameEnd, sameRest⟩

/-- Behind the first parameter stands a comma, or what follows the list. -/
theorem exists_end {separator : String} {between : List Char} (separated : separator.toList = ',' :: between)
    (first : Parameter) (later : List Parameter) (c : Char) (rest : List Char) :
    ∃ last tail, (Text.joinWith separator ((first :: later).map text)).toList ++ c :: rest =
        first.text.toList ++ last :: tail ∧
      (later = [] ∧ last = c ∧ tail = rest ∨
        last = ',' ∧ tail = between ++ ((Text.joinWith separator (later.map text)).toList ++ c :: rest)) := by
  cases later with
  | nil => exact ⟨c, rest, rfl, Or.inl ⟨rfl, rfl, rfl⟩⟩
  | cons next later =>
    refine ⟨',', _, ?_, Or.inr ⟨rfl, rfl⟩⟩
    simp [Text.joinWith, String.toList_append, separated]

/-- Lists of parameters are told apart by their texts, in either layout. -/
theorem texts_append_inj {parameters further : List Parameter} {separator : String} {between : List Char}
    (clear : ∀ parameter ∈ parameters, ∀ c ∈ parameterEnds, parameter.Clear c)
    (otherClear : ∀ parameter ∈ further, ∀ c ∈ parameterEnds, parameter.Clear c)
    (separated : separator.toList = ',' :: between) (ends : c ∈ parameterEnds) (notComma : c ≠ ',')
    (same : (Text.joinWith separator (parameters.map text)).toList ++ c :: rest =
      (Text.joinWith separator (further.map text)).toList ++ c :: others) :
    parameters.map (·.redescribe shownDescription) = further.map (·.redescribe shownDescription) ∧ rest = others := by
  induction parameters generalizing further with
  | nil =>
    cases further with
    | nil => exact ⟨rfl, (List.cons.inj same).2⟩
    | cons second later =>
      obtain ⟨last, tail, whole, -⟩ := exists_end separated second later c others
      rw [whole] at same
      have head := otherClear second (List.mem_cons_self ..) c ends
      exact absurd (congrArg List.head? same.symm) (head_text_ne head ends)
  | cons first earlier ih =>
    obtain ⟨clear, tailClear⟩ := List.forall_mem_cons.mp clear
    obtain ⟨last, tail, whole, follows⟩ := exists_end separated first earlier c rest
    rw [whole] at same
    cases further with
    | nil => exact absurd (congrArg List.head? same) (head_text_ne (clear c ends) ends)
    | cons second later =>
      obtain ⟨otherClear, otherTailClear⟩ := List.forall_mem_cons.mp otherClear
      obtain ⟨otherLast, otherTail, otherWhole, otherFollows⟩ := exists_end separated second later c others
      rw [otherWhole] at same
      have comma : ',' ∈ parameterEnds := List.mem_cons_self ..
      have lastEnds : last ∈ parameterEnds := by
        rcases follows with ⟨-, rfl, -⟩ | ⟨rfl, -⟩ <;> assumption
      have otherLastEnds : otherLast ∈ parameterEnds := by
        rcases otherFollows with ⟨-, rfl, -⟩ | ⟨rfl, -⟩ <;> assumption
      obtain ⟨equal, sameLast, sameTail⟩ := text_append_inj clear otherClear lastEnds otherLastEnds same
      rw [List.map_cons, List.map_cons, equal]
      -- What stands behind the first parameters is the same, so both lists go on or neither does.
      rcases follows with ⟨rfl, rfl, rfl⟩ | ⟨rfl, rfl⟩ <;> rcases otherFollows with ⟨rfl, rfl, rfl⟩ | ⟨rfl, rfl⟩
      · exact ⟨rfl, sameTail⟩
      · exact absurd sameLast notComma
      · exact absurd sameLast.symm notComma
      · obtain ⟨equalTail, sameRest⟩ := ih tailClear otherTailClear (List.append_cancel_left sameTail)
        exact ⟨congrArg _ equalTail, sameRest⟩

end Parameter

end Parameters

section Variants

/-- A list on one line does not look like one that has a line for each parameter. -/
theorem head_texts_ne_lineFeed {parameters : List Parameter} {separator : String} {between rest : List Char}
    (clear : ∀ parameter ∈ parameters, parameter.Clear '\n') (separated : separator.toList = ',' :: between) :
    ((Text.joinWith separator (parameters.map Parameter.text)).toList ++ ')' :: rest).head? ≠ some '\n' := by
  cases parameters with
  | nil => exact fun impossible => absurd (Option.some.inj impossible) (by decide)
  | cons first later =>
    obtain ⟨last, tail, whole, -⟩ := Parameter.exists_end separated first later ')' rest
    rw [whole]
    exact Parameter.head_text_ne (clear first (List.mem_cons_self ..)) (by decide)

namespace CaseClass

variable {first second : CaseClass}

theorem parent_eq_of_parentClause_eq (named : first.parent ≠ some "") (otherNamed : second.parent ≠ some "")
    (same : first.parentClause = second.parentClause) : first.parent = second.parent := by
  have clause {declaration : CaseClass} (named : declaration.parent ≠ some "") :
      declaration.parentClause.toList =
        declaration.parent.elim [] fun parent => " extends ".toList ++ parent.toList := by
    cases given : declaration.parent with
    | none => simp [parentClause, given]
    | some parent =>
      have nonempty : parent ≠ "" := fun empty => named (empty ▸ given)
      simp [parentClause, given, nonempty, String.toList_append]
  have chars := congrArg String.toList same
  rw [clause named, clause otherNamed] at chars
  cases given : first.parent <;> cases otherGiven : second.parent <;> rw [given, otherGiven] at chars
  · simp at chars
  · simp at chars
  · exact congrArg some (String.toList_inj.mp (List.append_cancel_left chars))

/-- The parameters and the parent can be told apart behind the opening bracket. -/
theorem inside_inj (clear : ∀ c ∈ parameterEnds, first.Clear c) (otherClear : ∀ c ∈ parameterEnds, second.Clear c)
    (same : first.inside = second.inside) :
    first.parameters.map (·.redescribe shownDescription) = second.parameters.map (·.redescribe shownDescription) ∧
      first.parentClause = second.parentClause := by
  have parameters {declaration : CaseClass} (clear : ∀ c ∈ parameterEnds, declaration.Clear c) :
      ∀ parameter ∈ declaration.parameters, ∀ c ∈ parameterEnds, parameter.Clear c :=
    fun parameter member c ends => (clear c ends).parameters parameter member
  have oneLine {declaration : CaseClass} (clear : ∀ c ∈ parameterEnds, declaration.Clear c) (rest : List Char) :
      ((Text.joinWith ", " (declaration.parameters.map Parameter.text)).toList ++ ')' :: rest).head? ≠ some '\n' :=
    head_texts_ne_lineFeed (fun parameter member => parameters clear parameter member '\n' (by decide)) rfl
  rw [inside, inside] at same
  -- The layouts are the same, since only the one with a line for each parameter begins with a line feed.
  split at same <;> split at same
  · obtain ⟨equal, behind⟩ := Parameter.texts_append_inj (parameters clear) (parameters otherClear)
      rfl (by decide) (by decide) (List.cons.inj same).2
    exact ⟨equal, String.toList_inj.mp (List.cons.inj behind).2⟩
  · exact absurd (congrArg List.head? same.symm) (oneLine otherClear _)
  · exact absurd (congrArg List.head? same) (oneLine clear _)
  · obtain ⟨equal, behind⟩ := Parameter.texts_append_inj (parameters clear) (parameters otherClear)
      rfl (by decide) (by decide) same
    exact ⟨equal, String.toList_inj.mp behind⟩

theorem text_eq_iff (clear : ∀ c ∈ parameterEnds, first.Clear c) (otherClear : ∀ c ∈ parameterEnds, second.Clear c)
    (named : first.parent ≠ some "") (otherNamed : second.parent ≠ some "")
    (sameLayout : first.multiline = second.multiline) :
    first.text = second.text ↔ first.redescribe shownDescription = second.redescribe shownDescription := by
  constructor
  · intro same
    have word := (clear ',' (by decide)).name
    have otherWord := (otherClear ',' (by decide)).name
    obtain ⟨shown, sameName, inside⟩ := parts_eq_of_text_eq word otherWord same
    obtain ⟨parameters, clause⟩ := inside_inj clear otherClear inside
    have sameParent := parent_eq_of_parentClause_eq named otherNamed clause
    simp only [redescribe, shown, sameName, parameters, sameParent, sameLayout]
  · intro same
    rw [← text_shownDescription, same, text_shownDescription]

end CaseClass

theorem CaseObject.text_eq_iff_of_label {first second : CaseObject} (label : IsLabel first.name)
    (otherLabel : IsLabel second.name) :
    first.text = second.text ↔ first.redescribe shownDescription = second.redescribe shownDescription := by
  constructor
  · intro same
    have behind := congrArg String.toList same
    have parent (declaration : CaseObject) :
        (" extends " ++ declaration.parent).toList = ' ' :: ("extends ".toList ++ declaration.parent.toList) := by
      simp [String.toList_append]
    rw [toList_text, toList_text, parent, parent] at behind
    obtain ⟨shown, keywords⟩ := descriptionClause_keyword_inj behind
    obtain ⟨sameName, clause⟩ :=
      label_append_unique label otherLabel (by decide) (List.append_cancel_left keywords)
    have sameParent := String.toList_inj.mp (List.append_cancel_left clause)
    simp only [redescribe, shown, sameName, sameParent]
  · intro same
    have written := congrArg (fun declaration => (Variant.caseObject declaration).text) same
    have shown (declaration : CaseObject) := (Variant.caseObject declaration).text_shownDescription
    exact (shown first).symm.trans (written.trans (shown second))

end Variants

/-- What a variant is made from: a value of an enum, or an object type as a member of a union. -/
inductive VariantSource
  | value (type : EnumType) (value : EnumValue)
  | member (type : UnionType) (object : RecordType)

structure FieldContent where
  name : String
  type : String
  description : Option String
  deriving DecidableEq

/-- What a variant says, with the names of the schema and no difference between missing and empty descriptions. -/
inductive VariantContent
  | caseObject (name parent : String) (description : Option String)
  | caseClass (name parent : String) (fields : List FieldContent) (description : Option String)
  deriving DecidableEq

def Field.content (scalars : Scalars) (field : Field) : FieldContent :=
  { name := field.name
    type := (field.parameter scalars).type
    description := shownDescription field.description }

namespace VariantSource

def variant (scalars : Scalars) : VariantSource → Variant
  | value type given => .caseObject (type.variant given)
  | member type object => .caseClass (object.caseClass scalars (some type.name))

def content (scalars : Scalars) : VariantSource → VariantContent
  | value type given => .caseObject given.name type.name (shownDescription given.description)
  | member type object =>
    .caseClass object.name type.name (object.fields.map (·.content scalars)) (shownDescription object.description)

def Proper : VariantSource → Prop
  | value _ given => IsName given.name
  | member type object => IsName type.name ∧ object.Proper

end VariantSource

/-- The variants of an enum or a union, in their order. -/
def Definition.variantSources (schema : Schema) : Definition → List VariantSource
  | .enum type => type.values.map (.value type)
  | .union type => (type.objects schema).map (.member type)
  | .object _ | .input _ => []

variable {schema : Schema} {scalars : Scalars}

theorem Definition.variantSources_proper (proper : schema.Proper) {definition : Definition}
    (defined : definition ∈ schema.definitions) : ∀ source ∈ definition.variantSources schema, source.Proper := by
  have sound := proper.definitions definition defined
  intro source listed
  cases definition with
  | object type => cases listed
  | input type => cases listed
  | enum type =>
    obtain ⟨value, given, rfl⟩ := List.mem_map.mp listed
    exact sound value.name (List.mem_cons_of_mem _ (List.mem_map_of_mem given))
  | union type =>
    obtain ⟨object, inside, rfl⟩ := List.mem_map.mp listed
    obtain ⟨name, -, found⟩ := UnionType.mem_objects_iff.mp inside
    exact ⟨sound type.name (List.mem_cons_self ..), proper.object found⟩

/-- The variants that are written for a definition. -/
theorem Definition.variants_of_write {definition : Definition} {declared : SealedTrait} {classes : List CaseClass}
    (written : definition.write schema scalars = .ok (.sealedTrait declared, classes)) :
    declared.variants = (definition.variantSources schema).map (·.variant scalars) := by
  obtain ⟨-, same⟩ := write_eq_ok written
  have own : Declaration.sealedTrait declared = definition.declaration schema scalars := congrArg Prod.fst same
  cases definition with
  | object type => cases own
  | input type => cases own
  | enum type =>
    obtain rfl : declared = type.sealedTrait := Declaration.sealedTrait.inj own
    rw [variantSources, List.map_map]
    rfl
  | union type =>
    obtain rfl : declared = type.sealedTrait schema scalars := Declaration.sealedTrait.inj own
    rw [variantSources, List.map_map]
    rfl

theorem safeName_eq_iff {name other : String} (named : IsName name) (otherNamed : IsName other) :
    safeName name = safeName other ↔ name = other :=
  ⟨safeName_inj named otherNamed, congrArg safeName⟩

namespace VariantSource

theorem value_text_eq_iff {type otherType : EnumType} {given other : EnumValue} (named : IsName given.name)
    (otherNamed : IsName other.name) :
    (type.variant given).text = (otherType.variant other).text ↔
      (value type given).content scalars = (value otherType other).content scalars := by
  have label : IsLabel (type.variant given).name := safeName_isLabel named
  have otherLabel : IsLabel (otherType.variant other).name := safeName_isLabel otherNamed
  rw [CaseObject.text_eq_iff_of_label label otherLabel]
  simp only [EnumType.variant, CaseObject.redescribe, content, CaseObject.mk.injEq, VariantContent.caseObject.injEq,
    safeName_eq_iff named otherNamed]

theorem member_clear {type : UnionType} {object : RecordType} (proper : (member type object).Proper)
    (lack : ∀ c ∈ parameterEnds, scalars.Lack c) :
    ∀ c ∈ parameterEnds, (object.caseClass scalars (some type.name)).Clear c := by
  intro c ends
  refine proper.2.caseClass_clear (separate_of_mem_parameterEnds ends) (lack c ends) fun parent same => ?_
  cases same
  exact proper.1.isWord

theorem fields_eq_iff {object other : RecordType} (proper : object.Proper) (otherProper : other.Proper) :
    (object.fields.map (·.parameter scalars)).map (·.redescribe shownDescription) =
        (other.fields.map (·.parameter scalars)).map (·.redescribe shownDescription) ↔
      object.fields.map (·.content scalars) = other.fields.map (·.content scalars) := by
  rw [List.map_map, List.map_map]
  refine map_eq_map_iff_of_forall fun field inside another listed => ?_
  have names := safeName_eq_iff (proper.fields field inside).isName (otherProper.fields another listed).isName
  simp only [Function.comp_apply, Parameter.redescribe, Field.parameter, Field.content, Parameter.mk.injEq,
    FieldContent.mk.injEq, names]

theorem member_text_eq_iff {type otherType : UnionType} {object other : RecordType}
    (proper : (member type object).Proper) (otherProper : (member otherType other).Proper)
    (lack : ∀ c ∈ parameterEnds, scalars.Lack c) :
    (object.caseClass scalars (some type.name)).text = (other.caseClass scalars (some otherType.name)).text ↔
      (member type object).content scalars = (member otherType other).content scalars := by
  have parent {type : UnionType} {object : RecordType} (proper : (member type object).Proper) :
      (object.caseClass scalars (some type.name)).parent ≠ some "" := by
    intro empty
    have isName := proper.1
    rw [Option.some.inj empty] at isName
    cases isName
  rw [CaseClass.text_eq_iff (member_clear proper lack) (member_clear otherProper lack) (parent proper)
    (parent otherProper) rfl]
  simp only [RecordType.caseClass, CaseClass.redescribe, content, CaseClass.mk.injEq, VariantContent.caseClass.injEq,
    Option.some.injEq, fields_eq_iff proper.2 otherProper.2]
  tauto

/-- Variants are written alike exactly when they say the same. -/
theorem text_eq_iff {own other : VariantSource} (proper : own.Proper) (otherProper : other.Proper)
    (lack : ∀ c ∈ parameterEnds, scalars.Lack c) :
    (own.variant scalars).text = (other.variant scalars).text ↔ own.content scalars = other.content scalars := by
  have differs {type : EnumType} {given : EnumValue} {union : UnionType} {object : RecordType} :
      (value type given).content scalars ≠ (member union object).content scalars := by
    simp [content]
  cases own with
  | value type given =>
    cases other with
    | value otherType another => exact value_text_eq_iff proper otherProper
    | member union object => exact iff_of_false (CaseObject.text_ne_caseClass _ _) differs
  | member union object =>
    cases other with
    | value type given => exact iff_of_false (CaseObject.text_ne_caseClass _ _).symm differs.symm
    | member otherUnion another => exact member_text_eq_iff proper otherProper lack

end VariantSource

/-- The variants of enums and unions are written alike exactly when they say the same. So a sealed trait is taken for
one of its name that is known already exactly when the variants say the same in the same order. -/
theorem Definition.variants_exact {otherSchema : Schema} {text source otherText otherSource : String}
    {definition other : Definition} {known declared : SealedTrait} {classes otherClasses : List CaseClass}
    (read : Schema.ofText text source = .ok schema)
    (otherRead : Schema.ofText otherText otherSource = .ok otherSchema)
    (lack : ∀ c ∈ [',', ')', '\n'], scalars.Lack c)
    (defined : definition ∈ schema.definitions) (otherDefined : other ∈ otherSchema.definitions)
    (written : definition.write schema scalars = .ok (.sealedTrait known, classes))
    (otherWritten : other.write otherSchema scalars = .ok (.sealedTrait declared, otherClasses)) :
    known.variants = (definition.variantSources schema).map (·.variant scalars) ∧
      declared.variants = (other.variantSources otherSchema).map (·.variant scalars) ∧
      (∀ own ∈ definition.variantSources schema, ∀ another ∈ other.variantSources otherSchema,
        (own.variant scalars).text = (another.variant scalars).text ↔ own.content scalars = another.content scalars) ∧
      ∀ collected : List Declaration, collected.find? (·.name = declared.name) = some (.sealedTrait known) →
        (addDeclaration collected (.sealedTrait declared) = .ok collected ↔
          (definition.variantSources schema).map (·.content scalars) =
            (other.variantSources otherSchema).map (·.content scalars)) := by
  have proper := variantSources_proper (Schema.ofText_proper read) defined
  have otherProper := variantSources_proper (Schema.ofText_proper otherRead) otherDefined
  have variants := variants_of_write written
  have otherVariants := variants_of_write otherWritten
  have each : ∀ own ∈ definition.variantSources schema, ∀ another ∈ other.variantSources otherSchema,
      (own.variant scalars).text = (another.variant scalars).text ↔ own.content scalars = another.content scalars :=
    fun own listed another inside => VariantSource.text_eq_iff (proper own listed) (otherProper another inside) lack
  refine ⟨variants, otherVariants, each, fun collected found => ?_⟩
  have matching := List.find?_some found
  have sameName : known.name = declared.name := of_decide_eq_true matching
  calc
    _ ↔ known.shape = declared.shape := addDeclaration_eq_ok_iff_of_find? (.sealedTrait declared) found
    _ ↔ known.variants.map Variant.text = declared.variants.map Variant.text :=
      SealedTrait.shape_eq_iff.trans (and_iff_right sameName)
    _ ↔ _ := by
      rw [variants, otherVariants, List.map_map, List.map_map]
      exact map_eq_map_iff_of_forall each

def petsText (remark : String) : String :=
  remark ++ "type Cat \x7b \"Its breed\" type(short: Boolean): String \x7d union Pet = Cat"

def cat (remark : Option String) : RecordType :=
  { name := "Cat"
    fields := [{
      name := "type"
      type := .named "String" false
      arguments := [{ name := "short", type := .named "Boolean" false }]
      description := some "Its breed" }]
    description := remark }

def pets : UnionType :=
  { name := "Pet", members := ["Cat"] }

def petsSchema (remark : Option String) : Schema :=
  { definitions := [.object (cat remark), .union pets] }

/-- An empty description makes no difference to a variant with a reserved name, arguments and a description. -/
theorem Definition.variants_exact_pets :
    let known := pets.sealedTrait (petsSchema none) Scalars.builtin
    let declared := pets.sealedTrait (petsSchema (some "")) Scalars.builtin
    Schema.ofText (petsText "") = .ok (petsSchema none) ∧
      Schema.ofText (petsText "\"\" ") = .ok (petsSchema (some "")) ∧ known ≠ declared ∧
      addDeclaration [.sealedTrait known] (.sealedTrait declared) = .ok [.sealedTrait known] := by
  intro known declared
  have read : Schema.ofText (petsText "") = .ok (petsSchema none) :=
    Schema.ofText_eq_ok_iff.mpr ⟨[.object (cat none), .union pets], by decide +kernel, rfl⟩
  have otherRead : Schema.ofText (petsText "\"\" ") = .ok (petsSchema (some "")) :=
    Schema.ofText_eq_ok_iff.mpr ⟨[.object (cat (some "")), .union pets], by decide +kernel, rfl⟩
  have lack : ∀ c ∈ [',', ')', '\n'], Scalars.builtin.Lack c := by
    simp only [List.forall_mem_cons, List.not_mem_nil, false_implies, implies_true, and_true]
    decide
  have written (remark : Option String) : (Definition.union pets).write (petsSchema remark) Scalars.builtin =
      .ok (.sealedTrait (pets.sealedTrait (petsSchema remark) Scalars.builtin), _) := rfl
  have defined (remark : Option String) : Definition.union pets ∈ (petsSchema remark).definitions :=
    List.mem_cons_of_mem _ (List.mem_cons_self ..)
  obtain ⟨-, -, -, accepted⟩ := Definition.variants_exact read otherRead lack (defined none) (defined (some ""))
    (written none) (written (some ""))
  exact ⟨read, otherRead, by decide, (accepted _ rfl).mpr (by decide)⟩

end SchemaScribe
