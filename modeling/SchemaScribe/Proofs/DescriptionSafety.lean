import SchemaScribe.Proofs.QuoteFree
import SchemaScribe.Proofs.Redescription
import SchemaScribe.Proofs.VariantTexts
import SchemaScribe.Proofs.Writing

/-! The text of a description stays inside its string literal. Which elements are described decides on the layout, but
what the descriptions say has no influence on anything outside of the literals. -/

namespace SchemaScribe
open Text (joinWith)

/-- Tells a shown description from a missing one, and nothing else. -/
def maskDescription (description : Option String) : Option String :=
  if isDescribed description then some "described" else none

theorem isDescribed_maskDescription (description : Option String) :
    isDescribed (maskDescription description) = isDescribed description := by
  rw [maskDescription]
  cases isDescribed description <;> rfl

/-- Parts that are alike one by one are alike when they are joined. -/
theorem joinWith_map_alike {separator : String} {items : List α} {first second : α → String}
    (separates : Plain separator) (alike : ∀ item ∈ items, Alike (first item) (second item)) :
    Alike (joinWith separator (items.map first)) (joinWith separator (items.map second)) := by
  apply Alike.joinWith separates
  rw [List.forall₂_map_left_iff, List.forall₂_map_right_iff, List.forall₂_same]
  exact alike

/-- Texts one behind the other, each with the same ending, are alike where the texts are. -/
private theorem group_alike {items : List α} {first second : α → String} {ending : String} (ends : Plain ending)
    (alike : ∀ item ∈ items, Alike (first item) (second item)) :
    Alike (joinWith "" (items.map fun item => first item ++ ending))
      (joinWith "" (items.map fun item => second item ++ ending)) := by
  apply joinWith_map_alike (.fixed "" rfl)
  intro item member
  exact (alike item member).append (.plain ends)

section Texts

variable {change : Option String → Option String}
  (shown : ∀ description, isDescribed (change description) = isDescribed description)
include shown

theorem descriptionClause_alike (description : Option String) :
    Alike (descriptionClause description) (descriptionClause (change description)) := by
  have same := shown description
  cases given : isDescribed description with
  | false =>
    rw [descriptionClause_of_missing given, descriptionClause_of_missing (same.trans given)]
    exact .fixed "" rfl
  | true =>
    obtain ⟨text, written⟩ := descriptionClause_of_described given
    obtain ⟨other, otherWritten⟩ := descriptionClause_of_described (same.trans given)
    rw [written, otherWritten]
    exact ((Alike.fixed "@GQLDescription(" rfl).append (.literal text other)).append (.fixed ")\n" rfl)

theorem Parameter.text_alike {parameter : Parameter} (unquoted : parameter.Unquoted) :
    Alike parameter.text (parameter.redescribe change).text := by
  have front := (descriptionClause_alike shown parameter.description).append (.plain unquoted.1)
  exact (front.append (.fixed ": " rfl)).append (.plain unquoted.2)

namespace CaseClass

theorem hasDescribedParameter_redescribe (declaration : CaseClass) :
    (declaration.redescribe change).hasDescribedParameter = declaration.hasDescribedParameter := by
  simp only [hasDescribedParameter, redescribe, List.any_map, Function.comp_def, Parameter.redescribe, shown]

theorem parameterList_alike {declaration : CaseClass} (unquoted : declaration.Unquoted) :
    Alike declaration.parameterList (declaration.redescribe change).parameterList := by
  have joined {separator : String} (separates : Plain separator) :
      Alike (joinWith separator (declaration.parameters.map Parameter.text))
        (joinWith separator ((declaration.redescribe change).parameters.map Parameter.text)) := by
    rw [redescribe, List.map_map]
    apply joinWith_map_alike separates
    intro parameter member
    exact parameter.text_alike shown (unquoted.parameters parameter member)
  have sameLayout : (declaration.redescribe change).multiline = declaration.multiline := rfl
  rw [parameterList, parameterList, hasDescribedParameter_redescribe shown, sameLayout]
  split
  · exact ((Alike.fixed "(\n" rfl).append (joined (.fixed ",\n" rfl))).append (.fixed "\n)" rfl)
  · exact ((Alike.fixed "(" rfl).append (joined (.fixed ", " rfl))).append (.fixed ")" rfl)

omit shown in
theorem parentClause_plain {declaration : CaseClass} (unquoted : declaration.Unquoted) :
    Plain declaration.parentClause := by
  rw [parentClause]
  split
  next parent given =>
    split
    · exact .fixed "" rfl
    · exact (Plain.fixed " extends " rfl).append (unquoted.parent parent given)
  next => exact .fixed "" rfl

theorem text_alike {declaration : CaseClass} (unquoted : declaration.Unquoted) :
    Alike declaration.text (declaration.redescribe change).text := by
  have front := ((descriptionClause_alike shown declaration.description).append (.fixed "case class " rfl)).append
    (.plain unquoted.name)
  exact (front.append (parameterList_alike shown unquoted)).append (.plain (parentClause_plain unquoted))

theorem hasAnnotations_redescribe (declaration : CaseClass) :
    (declaration.redescribe change).hasAnnotations = declaration.hasAnnotations := by
  rw [hasAnnotations, hasDescribedParameter_redescribe shown, redescribe, shown, hasAnnotations]

end CaseClass

theorem Variant.text_alike {variant : Variant} (unquoted : variant.Unquoted) :
    Alike variant.text (variant.redescribe change).text := by
  cases variant with
  | caseObject variant =>
    have front := ((descriptionClause_alike shown variant.description).append (.fixed "case object " rfl)).append
      (.plain unquoted.1)
    exact (front.append (.fixed " extends " rfl)).append (.plain unquoted.2)
  | caseClass variant => exact variant.text_alike shown unquoted

theorem SealedTrait.text_alike {declaration : SealedTrait}
    (unquoted : (Declaration.sealedTrait declaration).Unquoted) :
    Alike declaration.text (declaration.redescribe change).text := by
  have header : Alike declaration.header (declaration.redescribe change).header := by
    have front := ((descriptionClause_alike shown declaration.description).append (.fixed "sealed trait " rfl)).append
      (.plain unquoted.1)
    exact front.append (.fixed " extends scala.Product with scala.Serializable" rfl)
  have object : Plain ("object " ++ declaration.name ++ " \x7b") :=
    ((Plain.fixed "object " rfl).append unquoted.1).append (.fixed " \x7b" rfl)
  have variants : List.Forall₂ Alike (declaration.variants.map Variant.text)
      ((declaration.redescribe change).variants.map Variant.text) := by
    rw [redescribe, List.map_map, List.forall₂_map_left_iff, List.forall₂_map_right_iff, List.forall₂_same]
    intro variant member
    exact variant.text_alike shown (unquoted.2 variant member)
  apply Alike.joinWith (.fixed "\n" rfl)
  exact .cons header (.cons (.fixed "" rfl) (.cons (.plain object)
    (List.rel_append variants (.cons (.fixed "\x7d" rfl) .nil))))

theorem SealedTrait.hasAnnotations_redescribe (declaration : SealedTrait) :
    (declaration.redescribe change).hasAnnotations = declaration.hasAnnotations := by
  have variant (variant : Variant) : (variant.redescribe change).hasAnnotations = variant.hasAnnotations := by
    cases variant with
    | caseObject variant => exact shown variant.description
    | caseClass variant => exact variant.hasAnnotations_redescribe shown
  simp only [hasAnnotations, redescribe, shown, List.any_map, Function.comp_def, variant]

namespace Declaration

theorem text_alike {declaration : Declaration} (unquoted : declaration.Unquoted) :
    Alike declaration.text (declaration.redescribe change).text := by
  cases declaration with
  | caseClass declaration => exact declaration.text_alike shown unquoted
  | sealedTrait declaration => exact declaration.text_alike shown unquoted

theorem hasAnnotations_redescribe (declaration : Declaration) :
    (declaration.redescribe change).hasAnnotations = declaration.hasAnnotations := by
  cases declaration with
  | caseClass declaration => exact declaration.hasAnnotations_redescribe shown
  | sealedTrait declaration => exact declaration.hasAnnotations_redescribe shown

end Declaration

namespace Document

omit shown in
theorem operations_redescribe (document : Document) :
    (document.redescribe change).operations = document.operations.map (·.redescribe change) := by
  obtain ⟨packageName, types, query, mutation, subscription⟩ := document
  cases query <;> cases mutation <;> cases subscription <;> rfl

theorem imports_redescribe (document : Document) : (document.redescribe change).imports = document.imports := by
  have annotated : (document.redescribe change).types.any Declaration.hasAnnotations =
      document.types.any Declaration.hasAnnotations := by
    simp only [redescribe, List.any_map, Function.comp_def, Declaration.hasAnnotations_redescribe shown]
  rw [imports, annotated, operations_redescribe, imports]
  simp only [redescribe, List.isEmpty_map, Option.isSome_map]

omit shown in
theorem packageClause_plain {document : Document} (unquoted : document.Unquoted) : Plain document.packageClause := by
  rw [packageClause]
  split
  next name given =>
    split
    · exact .fixed "" rfl
    · exact ((Plain.fixed "package " rfl).append (unquoted.packageName name given)).append (.fixed "\n\n" rfl)
  next => exact .fixed "" rfl

theorem importClauses_alike (document : Document) :
    Alike document.importClauses (document.redescribe change).importClauses := by
  rw [importClauses, importClauses, imports_redescribe shown]
  split
  · exact .fixed "" rfl
  · apply Alike.append _ (.fixed "\n" rfl)
    apply group_alike (.fixed "\n" rfl)
    intro clause _
    have plain : Plain clause.text := by cases clause <;> decide
    exact .plain plain

theorem typesGroup_alike {document : Document} (unquoted : document.Unquoted) :
    Alike document.typesGroup (document.redescribe change).typesGroup := by
  have types : (document.redescribe change).types = document.types.map (·.redescribe change) := rfl
  rw [typesGroup, typesGroup, types, List.isEmpty_map, List.map_map]
  split
  · exact .fixed "" rfl
  · refine .append (.append (.fixed "object Types \x7b\n\n" rfl) ?_) (.fixed "\n\x7d\n" rfl)
    apply group_alike (.fixed "\n" rfl)
    intro declaration member
    exact declaration.text_alike shown (unquoted.types declaration member)

theorem operationsGroup_alike {document : Document} (unquoted : document.Unquoted) :
    Alike document.operationsGroup (document.redescribe change).operationsGroup := by
  rw [operationsGroup, operationsGroup, operations_redescribe, List.isEmpty_map, List.map_map]
  split
  · exact .fixed "" rfl
  · refine .append (.append (.fixed "object Operations \x7b\n\n" rfl) ?_) (.fixed "\x7d\n" rfl)
    apply group_alike (.fixed "\n\n" rfl)
    intro declaration member
    exact declaration.text_alike shown (unquoted.operations declaration member)

theorem text_alike {document : Document} (unquoted : document.Unquoted) :
    Alike document.text (document.redescribe change).text := by
  have types : (document.redescribe change).types.isEmpty = document.types.isEmpty := List.isEmpty_map
  have operations : (document.redescribe change).operations.isEmpty = document.operations.isEmpty := by
    rw [operations_redescribe, List.isEmpty_map]
  have separator : Plain document.groupSeparator := by
    rw [groupSeparator]
    split
    · exact .fixed "" rfl
    · exact .fixed "\n" rfl
  have sameSeparator : (document.redescribe change).groupSeparator = document.groupSeparator := by
    rw [groupSeparator, types, operations, groupSeparator]
  have samePackage : (document.redescribe change).packageClause = document.packageClause := rfl
  rw [text, text, isEmpty, isEmpty, types, operations, sameSeparator, samePackage]
  split
  · exact .fixed "\n" rfl
  · have head := (Alike.plain (packageClause_plain unquoted)).append (importClauses_alike shown document)
    have middle := (head.append (typesGroup_alike shown unquoted)).append (.plain separator)
    exact middle.append (operationsGroup_alike shown unquoted)

end Document

end Texts

namespace Settings

/-- Two schemas that differ only in what their descriptions say are written as texts that differ only inside of string
literals: outside they are equal, line by line, and they declare the same. -/
theorem write_alike_of_mask_eq {origin : ValueOrigin} {values : Json} {settings : Settings} {effect : Option String}
    {firstText firstSource secondText secondSource : String} {first second : Schema}
    {firstDocument secondDocument : Document}
    (valid : validate origin values = .ok settings)
    (mappings : ∀ entry ∈ settings.scalarMappings, Plain entry.2) (effectPlain : Plain (settings.effectFor effect))
    (firstRead : Schema.ofText firstText firstSource = .ok first)
    (secondRead : Schema.ofText secondText secondSource = .ok second)
    (same : first.redescribe maskDescription = second.redescribe maskDescription)
    (firstWritten : settings.write first effect = .ok firstDocument)
    (secondWritten : settings.write second effect = .ok secondDocument) :
    blankLiterals firstDocument.text = blankLiterals secondDocument.text ∧
      (∀ c, isControl c → firstDocument.text.toList.count c = secondDocument.text.toList.count c) ∧
      firstDocument.redescribe maskDescription = secondDocument.redescribe maskDescription := by
  have masked {schema : Schema} {text source : String} {document : Document}
      (read : Schema.ofText text source = .ok schema) (written : settings.write schema effect = .ok document) :
      Alike document.text (document.redescribe maskDescription).text ∧
        document.redescribe maskDescription =
          (schema.redescribe maskDescription).document (settings.context effect) settings.packageName := by
    obtain ⟨-, -, -, rfl⟩ := Schema.write_eq_ok written
    have unquoted : (schema.document (settings.context effect) settings.packageName).Unquoted :=
      (Schema.ofText_proper read).document_unquoted (scalars_unquoted mappings) effectPlain
        fun name given => isPackageName_plain (isPackageName_of_validate valid given)
    exact ⟨Document.text_alike isDescribed_maskDescription unquoted, (Schema.document_redescribe rfl ..).symm⟩
  obtain ⟨firstAlike, firstMasked⟩ := masked firstRead firstWritten
  obtain ⟨secondAlike, secondMasked⟩ := masked secondRead secondWritten
  have sameDocument : firstDocument.redescribe maskDescription = secondDocument.redescribe maskDescription := by
    rw [firstMasked, secondMasked, same]
  rw [sameDocument] at firstAlike
  have alike := firstAlike.trans secondAlike.symm
  exact ⟨alike.blankLiterals_eq, fun c control => alike.count_eq control, sameDocument⟩

/-- An object type with a description. -/
def describedType (description : String) : Schema :=
  { definitions :=
      [.object
        { name := "A", fields := [{ name := "b", type := .named "Int" false }], description := some description }] }

/-- A description may try to close its literal and to go on with code of its own. -/
theorem write_alike_of_hostile_description :
    ∃ tame hostile : Document,
      Schema.ofText "\"tame\" type A \x7b b: Int \x7d" = .ok (describedType "tame") ∧
      Schema.ofText "\"\\\") case class B()\\n(\" type A \x7b b: Int \x7d" =
        .ok (describedType "\") case class B()\n(") ∧
      ({} : Settings).write (describedType "tame") = .ok tame ∧
      ({} : Settings).write (describedType "\") case class B()\n(") = .ok hostile ∧
      tame.text ≠ hostile.text ∧ blankLiterals tame.text = blankLiterals hostile.text ∧
      tame.text.toList.count '\n' = hostile.text.toList.count '\n' := by
  have plain : Plain (({} : Settings).effectFor none) := by decide
  have valid : validate .program (.object []) = .ok {} := rfl
  have tameRead : Schema.ofText "\"tame\" type A \x7b b: Int \x7d" = .ok (describedType "tame") := by decide +kernel
  have hostileRead : Schema.ofText "\"\\\") case class B()\\n(\" type A \x7b b: Int \x7d" =
      .ok (describedType "\") case class B()\n(") := by decide +kernel
  refine ⟨_, _, tameRead, hostileRead, rfl, rfl, by decide +kernel, ?_⟩
  obtain ⟨blanked, counts, -⟩ := write_alike_of_mask_eq valid nofun plain tameRead hostileRead rfl rfl rfl
  exact ⟨blanked, counts '\n' rfl⟩

end Settings

end SchemaScribe
