import SchemaScribe.Proofs.Outcome
import SchemaScribe.Proofs.Shapes
import SchemaScribe.Proofs.TypeExpressions

/-! The argument classes that fields refer to. Each is among the data types under the one name that the fields use,
with the arguments of each of these fields, and in front of all data types that refer to it. -/

namespace SchemaScribe
open Source (isNameContinue)

/-- The object types that show in a document: as data types, as variants of unions and as roots. -/
inductive Schema.Shows (schema : Schema) : RecordType → Prop where
  | dataType {type : RecordType} (defined : .object type ∈ schema.definitions) : schema.Shows type
  | variant {type : RecordType} {union : UnionType} {member : String} (defined : .union union ∈ schema.definitions)
      (listed : member ∈ union.members) (found : schema.objectType? member = some type) : schema.Shows type
  | root {type : RecordType} {operation : Operation} (serves : schema.root operation = .ok (some type)) :
      schema.Shows type

variable {schema : Schema} {scalars : Scalars} {name : String}

theorem Schema.Shows.defined {type : RecordType} (shown : schema.Shows type) : .object type ∈ schema.definitions := by
  cases shown with
  | dataType defined => exact defined
  | variant defined listed found => exact Schema.mem_of_objectType? found
  | root serves => exact Schema.mem_of_objectType? (Schema.root_eq_ok serves).symm

/-- The kept declaration of an argument class is an argument class with the same signature. -/
theorem exists_argumentClass {declarations : List Declaration} {arguments : CaseClass}
    (compatible : Compatible declarations) (emitted : .caseClass arguments ∈ declarations)
    (given : arguments.parameters ≠ []) :
    ∃ declared : CaseClass, .caseClass declared ∈ firstOfEachName declarations ∧ declared.name = arguments.name ∧
      declared.signature = arguments.signature := by
  obtain ⟨kept, member, sameName⟩ := exists_kept emitted
  have sameShape := compatible kept (mem_of_mem_firstOfEachName member) _ emitted sameName
  cases kept with
  | caseClass declared => exact ⟨declared, member, CaseClass.shape_eq_iff.mp sameShape⟩
  | sealedTrait declared => exact absurd (eq_nil_of_shape_eq sameShape.symm).1 given

theorem exists_field_of_argumentClass {definition : Definition} {arguments : CaseClass}
    (defined : definition ∈ schema.definitions) (emitted : arguments ∈ definition.argumentClasses schema scalars) :
    ∃ type field, .object type ∈ schema.definitions ∧ field ∈ type.fields ∧
      field.argumentClass? scalars = some arguments := by
  cases definition with
  | object type =>
    obtain ⟨field, inside, given⟩ := RecordType.mem_argumentClasses_iff.mp emitted
    exact ⟨type, field, defined, inside, given⟩
  | input type => cases emitted
  | enum type => cases emitted
  | union type =>
    obtain ⟨object, listed, member⟩ := List.mem_flatMap.mp emitted
    obtain ⟨_, _, found⟩ := UnionType.mem_objects_iff.mp listed
    obtain ⟨field, inside, given⟩ := RecordType.mem_argumentClasses_iff.mp member
    exact ⟨object, field, Schema.mem_of_objectType? found, inside, given⟩

theorem exists_of_flatMap_eq {f : α → List β} {sources : List α} {front back : List β} {item : β}
    (split : sources.flatMap f = front ++ item :: back) :
    ∃ source ∈ sources, ∃ before after, f source = before ++ item :: after ∧ ∀ other ∈ before, other ∈ front := by
  induction sources generalizing front with
  | nil => simp at split
  | cons head rest ih =>
    rw [List.flatMap_cons] at split
    rcases append_eq_append_cons split with ⟨after, same⟩ | ⟨middle, rfl, same⟩
    · exact ⟨head, List.mem_cons_self .., front, after, same, fun _ inside => inside⟩
    · obtain ⟨source, member, before, after, same, ahead⟩ := ih same
      refine ⟨source, List.mem_cons_of_mem _ member, before, after, same, fun other inside => ?_⟩
      exact List.mem_append_right _ (ahead other inside)

section Order

variable (free : scalars.FreeOfArrows) (inName : ∀ c ∈ name.toList, isNameContinue c)
include free inName

/-- Only the field of that name refers to an argument class. -/
theorem Field.parameter_takesArguments {field : Field} (named : ∀ name ∈ field.names, IsName name)
    (taken : TakesArguments name (field.parameter scalars).type) :
    ∃ arguments, field.argumentClass? scalars = some arguments ∧ arguments.name = name := by
  change TakesArguments name (field.signature (field.type.expression scalars)) at taken
  rw [signature] at taken
  split at taken
  next =>
    refine absurd taken (not_takesArguments_expression free inName fun name member => named name ?_)
    exact List.mem_cons_of_mem _ (List.mem_append_left _ member)
  next given =>
    refine ⟨_, argumentClass?_eq_some_iff.mpr ⟨by simpa using given, rfl⟩, ?_⟩
    have whole : (argumentsName field.name ++ " => " ++ field.type.expression scalars).toList =
        (argumentsName field.name).toList ++ ' ' :: ("=> ".toList ++ (field.type.expression scalars).toList) := by
      simp [String.toList_append]
    have inArguments := (named field.name (List.mem_cons_self ..)).argumentsName_continues
    obtain ⟨same, -⟩ := taken.front_eq inName inArguments (by decide) whole
    exact (String.toList_inj.mp same).symm

theorem RecordType.caseClass_takesArguments {type : RecordType} {parent : Option String} {parameter : Parameter}
    (named : ∀ field ∈ type.fields, ∀ name ∈ field.names, IsName name)
    (member : parameter ∈ (type.caseClass scalars parent).parameters) (taken : TakesArguments name parameter.type) :
    ∃ arguments ∈ type.argumentClasses scalars, arguments.name = name := by
  obtain ⟨field, inside, rfl⟩ := List.mem_map.mp member
  obtain ⟨arguments, given, same⟩ := field.parameter_takesArguments free inName (named field inside) taken
  exact ⟨arguments, RecordType.mem_argumentClasses_iff.mpr ⟨field, inside, given⟩, same⟩

theorem Argument.parameter_not_takesArguments {argument : Argument} (named : ∀ name ∈ argument.names, IsName name) :
    ¬TakesArguments name (argument.parameter scalars).type :=
  not_takesArguments_expression free inName fun name member => named name (List.mem_cons_of_mem _ member)

/-- An argument class refers to no argument class. -/
theorem Field.argumentClass_not_takesArguments {field : Field} {arguments : CaseClass} {parameter : Parameter}
    (named : ∀ name ∈ field.names, IsName name) (given : field.argumentClass? scalars = some arguments)
    (member : parameter ∈ arguments.parameters) : ¬TakesArguments name parameter.type := by
  obtain ⟨-, rfl⟩ := argumentClass?_eq_some_iff.mp given
  obtain ⟨argument, inside, rfl⟩ := List.mem_map.mp member
  refine argument.parameter_not_takesArguments free inName fun name member => named name ?_
  exact List.mem_cons_of_mem _ (List.mem_append_right _ (List.mem_flatMap.mpr ⟨argument, inside, member⟩))

theorem Definition.declaration_takesArguments {definition : Definition} {parameter : Parameter}
    (named : schema.Named) (defined : definition ∈ schema.definitions)
    (member : parameter ∈ (definition.declaration schema scalars).parameters)
    (taken : TakesArguments name parameter.type) :
    ∃ arguments ∈ definition.argumentClasses schema scalars, arguments.name = name := by
  cases definition with
  | object type => exact type.caseClass_takesArguments free inName (fun _ => named.field defined) member taken
  | input type =>
    obtain ⟨field, inside, rfl⟩ := List.mem_map.mp member
    refine absurd taken (not_takesArguments_expression free inName fun name listed => ?_)
    exact named.field defined inside name (List.mem_cons_of_mem _ (List.mem_append_left _ listed))
  | enum type =>
    obtain ⟨variant, inside, member⟩ := List.mem_flatMap.mp member
    obtain ⟨value, -, rfl⟩ := List.mem_map.mp inside
    cases member
  | union type =>
    obtain ⟨variant, inside, member⟩ := List.mem_flatMap.mp member
    obtain ⟨object, listed, rfl⟩ := List.mem_map.mp inside
    obtain ⟨_, _, found⟩ := UnionType.mem_objects_iff.mp listed
    have definedObject := Schema.mem_of_objectType? found
    obtain ⟨arguments, given, same⟩ :=
      object.caseClass_takesArguments free inName (fun _ => named.field definedObject) member taken
    exact ⟨arguments, List.mem_flatMap.mpr ⟨object, listed, given⟩, same⟩

/-- Whatever refers to an argument class is emitted behind it. -/
theorem Definition.emitted_takesArguments {definition : Definition} {front back : List Declaration}
    {declaration : Declaration} {parameter : Parameter} (named : schema.Named)
    (defined : definition ∈ schema.definitions)
    (emitted : definition.emitted schema scalars = front ++ declaration :: back)
    (member : parameter ∈ declaration.parameters) (taken : TakesArguments name parameter.type) :
    ∃ arguments ∈ front, arguments.name = name := by
  rcases append_eq_append_cons emitted with ⟨rest, classes⟩ | ⟨middle, rfl, own⟩
  · have inside : declaration ∈ (definition.argumentClasses schema scalars).map .caseClass := by
      rw [classes]
      exact List.mem_append_right _ (List.mem_cons_self ..)
    obtain ⟨arguments, own, rfl⟩ := List.mem_map.mp inside
    obtain ⟨type, field, definedType, inField, given⟩ := exists_field_of_argumentClass defined own
    have namedField := named.field definedType inField
    exact absurd taken (field.argumentClass_not_takesArguments free inName namedField given member)
  · have same : declaration = definition.declaration schema scalars := by
      split at own
      · exact (List.mem_singleton.mp (own ▸ List.mem_append_right _ (List.mem_cons_self ..)))
      · simp at own
    subst same
    obtain ⟨arguments, given, same⟩ := definition.declaration_takesArguments free inName named defined member taken
    exact ⟨.caseClass arguments, List.mem_append_left _ (List.mem_map_of_mem given), same⟩

end Order

/-- Every argument that a shown field takes is declared, once and as the field has it; and the class stands in front of
every data type with a field, or a variant with a field, that refers to it. The blocks of the document are in the order
of its data types. -/
theorem argumentClasses_declared {settings : Settings} {effect : Option String} {document : Document}
    (written : settings.write schema effect = .ok document) {type : RecordType} (shown : schema.Shows type)
    {field : Field} (inside : field ∈ type.fields) (bearing : field.arguments ≠ []) :
    document.LaidOut (document.types.map Declaration.text) (document.operations.map CaseClass.text) ∧
    ∃ declared : CaseClass,
      document.types.filter (·.name = argumentsName field.name) = [.caseClass declared] ∧
      (field.argumentClass? settings.scalars).map CaseClass.signature = some declared.signature ∧
      (schema.Named → (∀ entry ∈ settings.scalarMappings, ¬['=', '>'] <:+: entry.2.toList) →
        ∀ before declaration after, document.types = before ++ declaration :: after →
          ∀ parameter ∈ declaration.parameters, TakesArguments (argumentsName field.name) parameter.type →
            .caseClass declared ∈ before) := by
  obtain ⟨-, -, compatible, rfl⟩ := Schema.write_eq_ok written
  change Compatible (schema.emitted settings.scalars) at compatible
  have given : field.argumentClass? settings.scalars = some _ :=
    Field.argumentClass?_eq_some_iff.mpr ⟨bearing, rfl⟩
  have emitted := Schema.mem_emitted_iff.mpr (.argumentClass shown.defined inside given)
  obtain ⟨declared, kept, sameName, sameSignature⟩ := exists_argumentClass compatible emitted (by simpa using bearing)
  refine ⟨Document.laidOut _, declared, ?_, ?_, ?_⟩
  · have once := filter_name_eq_singleton kept
    rwa [show (Declaration.caseClass declared).name = argumentsName field.name from sameName] at once
  · rw [given, sameSignature]
    rfl
  · intro named mappings before declaration after split parameter member taken
    have inName := (named.field shown.defined inside field.name (List.mem_cons_self ..)).argumentsName_continues
    have free := Settings.scalars_freeOfArrows mappings
    obtain ⟨earlier, later, whole, rfl⟩ := firstOfEachName_split split
    obtain ⟨definition, defined, front, back, own, ahead⟩ := exists_of_flatMap_eq whole
    obtain ⟨arguments, inFront, same⟩ :=
      definition.emitted_takesArguments free inName named defined own member taken
    obtain ⟨first, isKept, sameFirst⟩ := exists_kept (ahead arguments inFront)
    have isListed : first ∈ firstOfEachName (schema.emitted settings.scalars) := by
      change firstOfEachName (schema.emitted settings.scalars) = _ at split
      rw [split]
      exact List.mem_append_left _ isKept
    have only := eq_of_kept_of_name_eq isListed kept ((sameFirst.trans same).trans sameName.symm)
    rwa [only] at isKept

/-- One class serves the field of the root and that of the union's member, and stands in front of the union. -/
theorem argumentClasses_declared_roster :
    ∃ document, ({} : Settings).write Settings.roster none = .ok document ∧ Settings.roster.Named ∧
      document.typesGroup = Document.group "Types" "\n" (document.types.map Declaration.text) ∧
      ∃ type field, Settings.roster.Shows type ∧ field ∈ type.fields ∧ field.arguments ≠ [] ∧
        ∃ declared : CaseClass,
          document.types.filter (·.name = argumentsName field.name) = [.caseClass declared] ∧
          (field.argumentClass? Scalars.builtin).map CaseClass.signature = some declared.signature ∧
          ∀ before declaration after, document.types = before ++ declaration :: after →
            ∀ parameter ∈ declaration.parameters, TakesArguments (argumentsName field.name) parameter.type →
              .caseClass declared ∈ before := by
  have named : Settings.roster.Named := by decide
  have written : ({} : Settings).write Settings.roster none =
      .ok (Settings.roster.document (({} : Settings).context none) none) := rfl
  have defined : .union { name := "Crew", members := ["User"] } ∈ Settings.roster.definitions := by decide
  have shown : Settings.roster.Shows _ := .variant defined (List.mem_singleton.mpr rfl) rfl
  obtain ⟨laidOut, declared, once, own, earlier⟩ :=
    argumentClasses_declared written shown (List.mem_singleton.mpr rfl) (by decide)
  exact ⟨_, written, named, laidOut.typesGroup, _, _, shown, List.mem_singleton.mpr rfl, by decide, declared, once, own,
    earlier named nofun⟩

end SchemaScribe
