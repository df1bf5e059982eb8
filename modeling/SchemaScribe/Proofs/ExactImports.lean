import SchemaScribe.Proofs.DefinitionsDeclared
import SchemaScribe.Proofs.LineOpenings
import SchemaScribe.Proofs.VariantTexts
import SchemaScribe.Proofs.Vocabulary

/-! The imports of a document and its text. Whether descriptions are shown is decided by looking at the declarations,
and never at what is written for them; the two agree line by line. -/

namespace SchemaScribe
open Text (joinWith joinWith_empty_cons lines opening NeverOpens opening_append opening_of_neverOpens opening_of_opens)

/-- What all imports open with, and nothing else. -/
def importMark : String := "import "

def annotationMark : String := "@GQLDescription("

/-- The imports among the lines of a text, and whether some line opens with a description. -/
structure Lined (text : String) (imports : List String) (annotated : Bool) : Prop where
  imports : opening importMark text = imports
  annotations : opening annotationMark text ≠ [] ↔ annotated

theorem foreign_lineFeed : Foreign '\n' :=
  { word := by decide, sign := by decide }

namespace Lined

theorem blank : Lined "" [] false where
  imports := by decide
  annotations := by decide

/-- A line whose start tells that it is neither an import nor a description. -/
theorem line {start rest : String} (noImport : NeverOpens importMark start)
    (noDescription : NeverOpens annotationMark start) (oneLine : '\n' ∉ (start ++ rest).toList) :
    Lined (start ++ rest) [] false where
  imports := opening_of_neverOpens noImport oneLine
  annotations := by simp [opening_of_neverOpens noDescription oneLine]

theorem append {first second : String} {imports others : List String} {annotated other : Bool}
    (lined : Lined first imports annotated) (next : Lined second others other) :
    Lined (first ++ "\n" ++ second) (imports ++ others) (annotated || other) where
  imports := by rw [opening_append, lined.imports, next.imports]
  annotations := by
    rw [opening_append, Bool.or_eq_true, ← lined.annotations, ← next.annotations, Ne, List.append_eq_nil_iff,
      Classical.not_and_iff_not_or_not]

theorem after {first second : String} {imports : List String} {annotated : Bool} (next : Lined second imports annotated)
    (lined : Lined first [] false) : Lined (first ++ "\n" ++ second) imports annotated :=
  lined.append next

/-- Texts one behind the other that each end their last line. -/
theorem concat {items : List α} {written : α → String} {imports : α → List String} {annotated : α → Bool}
    (each : ∀ item ∈ items, Lined (written item) (imports item) (annotated item)) {rest : String} {others : List String}
    {other : Bool} (next : Lined rest others other) :
    Lined (joinWith "" (items.map fun item => written item ++ "\n") ++ rest) (items.flatMap imports ++ others)
      (items.any annotated || other) := by
  induction items with
  | nil => simpa [Text.joinWith] using next
  | cons first tail ih =>
    obtain ⟨here, later⟩ := List.forall_mem_cons.mp each
    rw [List.map_cons, joinWith_empty_cons, String.append_assoc, List.flatMap_cons, List.append_assoc, List.any_cons,
      Bool.or_assoc]
    exact here.append (ih later)

/-- Parts of which each but the last has the same ending. -/
theorem joinWith {items : List α} {written : α → String} {annotated : α → Bool} {ending : String}
    (each : ∀ item ∈ items,
      Lined (written item) [] (annotated item) ∧ Lined (written item ++ ending) [] (annotated item)) :
    Lined (joinWith (ending ++ "\n") (items.map written)) [] (items.any annotated) := by
  induction items with
  | nil => exact blank
  | cons first rest ih =>
    obtain ⟨⟨last, ended⟩, others⟩ := List.forall_mem_cons.mp each
    cases rest with
    | nil => simpa [Text.joinWith] using last
    | cons next rest =>
      rw [List.map_cons, List.map_cons, Text.joinWith, ← String.append_assoc, List.any_cons]
      exact ended.append (ih others)

theorem joinLines {parts : List (String × Bool)} (each : ∀ part ∈ parts, Lined part.1 [] part.2) :
    Lined (Text.joinWith "\n" (parts.map Prod.fst)) [] (parts.any Prod.snd) := by
  have ended : ∀ part ∈ parts, Lined part.1 [] part.2 ∧ Lined (part.1 ++ "") [] part.2 := by
    intro part member
    rw [String.append_empty]
    exact ⟨each part member, each part member⟩
  have whole := joinWith ended
  rwa [String.empty_append] at whole

end Lined

theorem stringLiteral_oneLine (text : String) : '\n' ∉ (stringLiteral text).toList := by
  intro member
  have control : '\n' ∈ (stringLiteral text).toList.filter isControl := List.mem_filter.mpr ⟨member, rfl⟩
  rw [(read_stringLiteral text).2.2] at control
  cases control

/-- A description takes a line of its own, in front of what it describes. -/
theorem Lined.annotated {text : String} {annotated : Bool} (lined : Lined text [] annotated)
    (description : Option String) :
    Lined (descriptionClause description ++ text) [] (isDescribed description || annotated) := by
  cases shown : isDescribed description with
  | false => simpa [descriptionClause_of_missing shown] using lined
  | true =>
    obtain ⟨content, written⟩ := descriptionClause_of_described shown
    have split : descriptionClause description ++ text =
        annotationMark ++ (stringLiteral content ++ ")") ++ "\n" ++ text := by
      rw [written]
      simp only [annotationMark, String.append_assoc]
      rfl
    have oneLine : '\n' ∉ (annotationMark ++ (stringLiteral content ++ ")")).toList :=
      not_mem_append (by decide) (not_mem_append (stringLiteral_oneLine content) (by decide))
    have own : Lined (annotationMark ++ (stringLiteral content ++ ")")) [] true :=
      { imports := opening_of_neverOpens (.fixed (by decide)) oneLine
        annotations := by
          rw [opening_of_opens oneLine (by rw [String.toList_append]; exact List.prefix_append ..)]
          simp }
    rw [split]
    exact own.append lined

/-- A name and a colon open neither: an import has a blank before any colon, and a name has no at sign. -/
theorem IsLabel.neverOpens {name : String} (label : IsLabel name) :
    NeverOpens importMark (name ++ ": ") ∧ NeverOpens annotationMark (name ++ ": ") := by
  have stands (rest : List Char) : (name ++ ": ").toList ++ rest = (name.toList ++ [':']) ++ ' ' :: rest := by
    simp [String.toList_append]
  have noBlank : ∀ c ∈ name.toList ++ [':'], decide (c ≠ ' ') = true := by
    refine List.forall_mem_append.mpr ⟨fun c member => ?_, List.forall_mem_singleton.mpr (by decide)⟩
    rcases label c member with word | rfl
    · exact decide_eq_true fun blank => absurd (blank ▸ word) (by decide)
    · decide
  refine ⟨?_, ?_⟩
  · rintro rest ⟨others, same⟩
    rw [stands] at same
    have front := congrArg (List.takeWhile (decide <| · ≠ ' ')) same
    rw [List.takeWhile_append_of_pos noBlank] at front
    have colon : ':' ∈ "import".toList := by
      have whole : (importMark.toList ++ others).takeWhile (decide <| · ≠ ' ') = "import".toList := rfl
      rw [← whole, front]
      simp
    exact absurd colon (by decide)
  · rintro rest ⟨others, same⟩
    rw [stands] at same
    cases chars : name.toList with
    | nil =>
      rw [chars] at same
      cases (List.cons.inj same).1
    | cons first letters =>
      rw [chars] at same
      have sign : '@' = first := (List.cons.inj same).1
      rcases label first (by simp [chars]) with word | quote
      · exact absurd (sign ▸ word) (by decide)
      · exact absurd (sign.trans quote) (by decide)

section Declarations

theorem Parameter.text_lined {parameter : Parameter} (clear : parameter.Clear '\n') {ending : String}
    (oneLine : '\n' ∉ ending.toList) : Lined (parameter.text ++ ending) [] (isDescribed parameter.description) := by
  obtain ⟨label, type⟩ := clear
  have own : Lined (parameter.name ++ ": " ++ (parameter.type ++ ending)) [] false := by
    refine .line label.neverOpens.1 label.neverOpens.2 ?_
    have name := foreign_lineFeed.not_mem_label label
    exact not_mem_append (not_mem_append name (by decide)) (not_mem_append type oneLine)
  have whole := own.annotated parameter.description
  rw [Bool.or_false] at whole
  simpa only [text, String.append_assoc] using whole

namespace CaseClass

variable {declaration : CaseClass} (clear : declaration.Clear '\n')
include clear

theorem parentClause_oneLine : '\n' ∉ declaration.parentClause.toList := by
  rw [parentClause]
  split
  next parent given =>
    split
    · decide
    · exact not_mem_append (by decide) (foreign_lineFeed.not_mem_word (clear.parent parent given))
  next => decide

theorem parameters_lined {ending : String} (oneLine : '\n' ∉ ending.toList) :
    Lined (joinWith (ending ++ "\n") (declaration.parameters.map Parameter.text)) []
      declaration.hasDescribedParameter := by
  refine Lined.joinWith fun parameter member => ⟨?_, ?_⟩
  · have last : Lined (parameter.text ++ "") [] _ :=
      Parameter.text_lined (clear.parameters parameter member) (by decide)
    rwa [String.append_empty] at last
  · exact Parameter.text_lined (clear.parameters parameter member) oneLine

/-- Without descriptions all parameters fit on one line. -/
theorem parameters_oneLine (undescribed : declaration.hasDescribedParameter = false) :
    '\n' ∉ (joinWith ", " (declaration.parameters.map Parameter.text)).toList := by
  refine not_mem_joinWith (by decide) (List.forall_mem_map.mpr fun parameter member => ?_)
  obtain ⟨label, type⟩ := clear.parameters parameter member
  have missing : isDescribed parameter.description = false :=
    Bool.eq_false_iff.mpr (List.any_eq_false.mp undescribed parameter member)
  rw [Parameter.text, descriptionClause_of_missing missing]
  have name := foreign_lineFeed.not_mem_label label
  exact not_mem_append (not_mem_append (not_mem_append (by decide) name) (by decide)) type

theorem text_lined : Lined declaration.text [] declaration.hasAnnotations := by
  have name := foreign_lineFeed.not_mem_word clear.name
  have parent := parentClause_oneLine clear
  have body : Lined ("case class " ++ (declaration.name ++ (declaration.parameterList ++ declaration.parentClause)))
      [] declaration.hasDescribedParameter := by
    rw [parameterList]
    split
    · have head : Lined ("case class " ++ (declaration.name ++ "(")) [] false :=
        .line (.fixed (by decide)) (.fixed (by decide)) (not_mem_append (by decide) (not_mem_append name (by decide)))
      have tail : Lined (")" ++ declaration.parentClause) [] false :=
        .line (.fixed (by decide)) (.fixed (by decide)) (not_mem_append (by decide) parent)
      have whole := (head.append (parameters_lined clear (by decide : '\n' ∉ ",".toList))).append tail
      rw [Bool.false_or, Bool.or_false] at whole
      have texts : "(\n" = "(" ++ "\n" ∧ "\n)" = "\n" ++ ")" ∧ "," ++ "\n" = ",\n" := by decide
      simpa only [texts, String.append_assoc, List.append_nil] using whole
    next oneLine =>
      have undescribed := (Bool.or_eq_false_iff.mp (Bool.eq_false_iff.mpr oneLine)).2
      rw [undescribed]
      refine .line (.fixed (by decide)) (.fixed (by decide)) ?_
      have parameters := parameters_oneLine clear undescribed
      exact not_mem_append (by decide) (not_mem_append name
        (not_mem_append (not_mem_append (not_mem_append (by decide) parameters) (by decide)) parent))
  have whole := body.annotated declaration.description
  simpa only [text, hasAnnotations, String.append_assoc] using whole

end CaseClass

theorem CaseObject.text_lined {declaration : CaseObject} (name : IsLabel declaration.name)
    (parent : IsWord declaration.parent) : Lined declaration.text [] (isDescribed declaration.description) := by
  have body : Lined ("case object " ++ (declaration.name ++ (" extends " ++ declaration.parent))) [] false := by
    refine .line (.fixed (by decide)) (.fixed (by decide)) ?_
    exact not_mem_append (by decide) (not_mem_append (foreign_lineFeed.not_mem_label name)
      (not_mem_append (by decide) (foreign_lineFeed.not_mem_word parent)))
  have whole := body.annotated declaration.description
  rw [Bool.or_false] at whole
  simpa only [text, String.append_assoc] using whole

theorem Variant.Clear.text_lined {variant : Variant} (clear : variant.Clear '\n') :
    Lined variant.text [] variant.hasAnnotations := by
  cases variant with
  | caseObject variant => exact variant.text_lined clear.1 clear.2
  | caseClass variant => exact CaseClass.text_lined clear

theorem SealedTrait.text_lined {declaration : SealedTrait} (clear : (Declaration.sealedTrait declaration).Clear '\n') :
    Lined declaration.text [] declaration.hasAnnotations := by
  obtain ⟨word, variants⟩ := clear
  have name := foreign_lineFeed.not_mem_word word
  have header : Lined declaration.header [] (isDescribed declaration.description) := by
    have body :
        Lined ("sealed trait " ++ (declaration.name ++ " extends scala.Product with scala.Serializable")) [] false :=
      .line (.fixed (by decide)) (.fixed (by decide)) (not_mem_append (by decide) (not_mem_append name (by decide)))
    have whole := body.annotated declaration.description
    rw [Bool.or_false] at whole
    simpa only [SealedTrait.header, String.append_assoc] using whole
  have companion : Lined ("object " ++ (declaration.name ++ " \x7b")) [] false :=
    .line (.fixed (by decide)) (.fixed (by decide)) (not_mem_append (by decide) (not_mem_append name (by decide)))
  have closing : Lined "\x7d" [] false := { imports := by decide, annotations := by decide }
  have parts : ∀ part ∈ [(declaration.header, isDescribed declaration.description), ("", false),
      ("object " ++ (declaration.name ++ " \x7b"), false)] ++
        declaration.variants.map (fun variant => (variant.text, variant.hasAnnotations)) ++ [("\x7d", false)],
      Lined part.1 [] part.2 := by
    refine List.forall_mem_append.mpr ⟨List.forall_mem_append.mpr ⟨?_, ?_⟩, List.forall_mem_singleton.mpr closing⟩
    · refine List.forall_mem_cons.mpr ⟨header, List.forall_mem_cons.mpr ⟨.blank, ?_⟩⟩
      exact List.forall_mem_singleton.mpr companion
    · exact List.forall_mem_map.mpr fun variant member => (variants variant member).text_lined
  have whole := Lined.joinLines parts
  simpa [text, hasAnnotations, String.append_assoc, Function.comp_def] using whole

namespace Declaration

theorem Clear.text_lined {declaration : Declaration} (clear : declaration.Clear '\n') :
    Lined declaration.text [] declaration.hasAnnotations := by
  cases declaration with
  | caseClass declaration => exact CaseClass.text_lined clear
  | sealedTrait declaration => exact SealedTrait.text_lined clear

end Declaration

end Declarations

namespace Document

variable {document : Document}

theorem packageClause_lined (package : ∀ name, document.packageName = some name → Settings.isPackageName name.toList)
    {rest : String} {imports : List String} {annotated : Bool} (next : Lined rest imports annotated) :
    Lined (document.packageClause ++ rest) imports annotated := by
  rw [packageClause]
  split
  next name given =>
    split
    · simpa using next
    · obtain ⟨words, made, same⟩ := Settings.exists_words_of_isPackageName (package name given)
      have oneLine : '\n' ∉ words.toList := by
        intro feed
        rcases made _ feed with word | point
        · exact foreign_lineFeed.word word
        · cases point
      have head : Lined ("package " ++ words) [] false :=
        .line (.fixed (by decide)) (.fixed (by decide)) (not_mem_append (by decide) oneLine)
      have feeds : "\n\n" = "\n" ++ "\n" := by decide
      rcases same with rfl | rfl
      · simpa only [feeds, String.append_assoc, String.empty_append] using (next.after .blank).after head
      · simpa only [feeds, String.append_assoc, String.empty_append] using ((next.after .blank).after .blank).after head
  next => simpa using next

theorem importClauses_lined (document : Document) {rest : String} {annotated : Bool} (next : Lined rest [] annotated) :
    Lined (document.importClauses ++ rest) (document.imports.map Import.text) annotated := by
  have clause (clause : Import) : Lined clause.text [clause.text] false := by
    cases clause <;> exact { imports := by decide, annotations := by decide }
  have whole := Lined.concat (fun item (_ : item ∈ document.imports) => clause item) (next.after .blank)
  rw [importClauses, List.isEmpty_map]
  split
  next empty =>
    rw [List.isEmpty_iff.mp empty, String.empty_append]
    exact next
  next =>
    rw [← List.map_eq_flatMap, List.append_nil, List.any_eq_false.mpr fun _ _ => Bool.false_ne_true] at whole
    simpa only [String.append_assoc, String.empty_append, Bool.false_or] using whole

theorem typesGroup_lined (clear : document.Clear '\n') {rest : String} {annotated : Bool}
    (next : Lined rest [] annotated) :
    Lined (document.typesGroup ++ rest) [] (document.types.any Declaration.hasAnnotations || annotated) := by
  have opens : Lined "object Types \x7b" [] false := { imports := by decide, annotations := by decide }
  have closes : Lined "\x7d" [] false := { imports := by decide, annotations := by decide }
  have types := Lined.concat (fun declaration member => (clear.types declaration member).text_lined)
    ((next.after closes).after .blank)
  rw [List.append_nil, List.flatMap_eq_nil_iff.mpr fun _ _ => rfl] at types
  have texts : "object Types \x7b\n\n" = "object Types \x7b" ++ "\n" ++ "\n" ∧ "\n\x7d\n" = "\n" ++ "\x7d" ++ "\n" := by
    decide
  rw [typesGroup]
  split
  next empty =>
    rw [List.isEmpty_iff.mp empty, String.empty_append]
    exact next
  next => simpa only [texts, String.append_assoc, String.empty_append] using (types.after .blank).after opens

/-- No description is shown for an operation. -/
theorem operationsGroup_lined (clear : document.Clear '\n')
    (bare : ∀ declared ∈ document.operations, declared.hasAnnotations = false) :
    Lined document.operationsGroup [] false := by
  have opens : Lined "object Operations \x7b" [] false := { imports := by decide, annotations := by decide }
  have closes : Lined "\x7d" [] false := { imports := by decide, annotations := by decide }
  have each (declared : CaseClass) (member : declared ∈ document.operations) :
      Lined (declared.text ++ "\n") [] false := by
    have own := CaseClass.text_lined (clear.operations declared member)
    rw [bare declared member] at own
    simpa using Lined.blank.after own
  have operations := Lined.concat each (Lined.blank.after closes)
  rw [List.append_nil, List.flatMap_eq_nil_iff.mpr fun _ _ => rfl,
    List.any_eq_false.mpr fun _ _ => Bool.false_ne_true] at operations
  have texts : "object Operations \x7b\n\n" = "object Operations \x7b" ++ "\n" ++ "\n" ∧ "\n\n" = "\n" ++ "\n" ∧
      "\x7d\n" = "\x7d" ++ "\n" := by
    decide
  rw [operationsGroup]
  split
  · exact .blank
  · have whole := (operations.after .blank).after opens
    simpa only [texts, String.append_assoc, String.empty_append, String.append_empty, Bool.false_or] using whole

theorem groupSeparator_lined (document : Document) {rest : String} {annotated : Bool} (next : Lined rest [] annotated) :
    Lined (document.groupSeparator ++ rest) [] annotated := by
  rw [groupSeparator]
  split
  · simpa only [String.empty_append] using next
  · simpa only [String.empty_append] using next.after .blank

theorem text_lined (clear : document.Clear '\n')
    (package : ∀ name, document.packageName = some name → Settings.isPackageName name.toList)
    (bare : ∀ declared ∈ document.operations, declared.hasAnnotations = false) :
    Lined document.text (document.imports.map Import.text) (document.types.any Declaration.hasAnnotations) := by
  rw [text]
  split
  next empty =>
    obtain ⟨types, operations⟩ := Bool.and_eq_true_iff.mp empty
    have subscription : document.subscription = none := by
      have all := List.filterMap_eq_nil_iff.mp (List.isEmpty_iff.mp operations)
      exact all document.subscription (by simp)
    rw [imports, subscription, List.isEmpty_iff.mp types]
    exact Lined.blank.after .blank
  next =>
    have groups := document.groupSeparator_lined (operationsGroup_lined clear bare)
    have whole := packageClause_lined package (document.importClauses_lined (typesGroup_lined clear groups))
    simpa only [String.append_assoc, Bool.or_false] using whole

end Document

/-- An import stands among the lines exactly if it is one of the imports. -/
theorem Lined.import_mem_iff {text : String} {imports : List Import} {annotated : Bool}
    (lined : Lined text (imports.map Import.text) annotated) (clause : Import) :
    clause.text ∈ lines text ↔ clause ∈ imports := by
  have opens : importMark.toList <+: clause.text.toList := by cases clause <;> decide
  have distinct : Function.Injective Import.text := by
    intro first second same
    cases first <;> cases second <;> first | rfl | exact absurd same (by decide)
  rw [← List.mem_map_of_injective distinct, ← lined.imports, Text.mem_opening_iff]
  exact ⟨fun inside => ⟨inside, opens⟩, fun found => found.1⟩

/-- The three imports come in a fixed order, and each at most once. -/
theorem Document.imports_sublist (document : Document) : document.imports.Sublist [.types, .annotations, .streams] := by
  rw [imports]
  split <;> split <;> split <;> decide

theorem RecordType.operationClass_bare (type : RecordType) (scalars : Scalars) (wrap : String → String) :
    (type.operationClass scalars wrap).hasAnnotations = false := by
  simp [operationClass, CaseClass.hasAnnotations, CaseClass.hasDescribedParameter, Field.operationParameter,
    isDescribed]

/-- No effect is written like a stream: the bracket stands elsewhere. -/
theorem effectOf_ne_streamOf (effect result : String) : effectOf effect result ≠ streamOf result := by
  intro same
  have chars := congrArg String.toList same
  unfold effectOf streamOf at chars
  simp only [String.toList_append] at chars
  have front := List.append_cancel_right (List.append_cancel_right chars)
  have ends : "[".toList <:+ "ZStream[Any, Nothing, ".toList := ⟨effect.toList, front⟩
  exact absurd ends (by decide)

namespace Schema

variable {schema : Schema} {context : WriteContext} {packageName : Option String}

theorem operations_bare : ∀ declared ∈ (schema.document context packageName).operations,
    declared.hasAnnotations = false := by
  intro declared member
  obtain ⟨root, listed, rfl⟩ := List.mem_filterMap.mp member
  simp only [document, List.mem_cons, List.not_mem_nil, or_false] at listed
  rcases listed with served | served | served
  all_goals
    obtain ⟨type, -, rfl⟩ := Option.map_eq_some_iff.mp served.symm
    exact type.operationClass_bare _ _

theorem isSome_subscription_iff (resolve : schema.RootsResolve) :
    (schema.document context packageName).subscription.isSome ↔
      ∃ type, schema.root .subscription = .ok (some type) := by
  rw [document, Option.isSome_map, root_of_rootsResolve resolve, Option.isSome_iff_exists]
  simp only [rootTypes, Except.ok.injEq]

end Schema

namespace Settings

/-- Under settings without line feeds, a document that was written for a text imports its data types exactly if there
are operations next to them, descriptions exactly if it shows one, and streams exactly for a subscription. These imports
stand in this order, and no other line opens like one. -/
theorem imports_exact {origin : ValueOrigin} {values : Json} {settings : Settings} {effect : Option String}
    {text source : String} {schema : Schema} {document : Document}
    (valid : validate origin values = .ok settings)
    (mappings : ∀ entry ∈ settings.scalarMappings, '\n' ∉ entry.2.toList)
    (effectLine : '\n' ∉ (settings.effectFor effect).toList)
    (read : Schema.ofText text source = .ok schema) (written : settings.write schema effect = .ok document) :
    (Import.annotations.text ∈ lines document.text ↔
      ∃ line ∈ lines document.text, annotationMark.toList <+: line.toList) ∧
    (Import.types.text ∈ lines document.text ↔ document.types ≠ [] ∧ document.operations ≠ []) ∧
    (Import.streams.text ∈ lines document.text ↔ ∃ type, schema.root .subscription = .ok (some type)) ∧
    (∀ operation type, schema.root operation = .ok (some type) →
      type.operationClass settings.scalars (operation.resultType (settings.effectFor effect)) ∈ document.operations ∧
      ∀ field ∈ type.fields,
        operation.resultType (settings.effectFor effect) (field.type.expression settings.scalars) =
          streamOf (field.type.expression settings.scalars) →
        Import.streams.text ∈ lines document.text) ∧
    (opening importMark document.text).Sublist [Import.types.text, Import.annotations.text, Import.streams.text] ∧
    ∀ declared ∈ document.operations, declared.hasAnnotations = false ∧ opening annotationMark declared.text = [] := by
  obtain ⟨resolve, -, -, same⟩ := Schema.write_eq_ok written
  have clear : document.Clear '\n' := by
    rw [same]
    have lacking := scalars_lack foreign_lineFeed mappings
    exact (Schema.ofText_proper read).document_clear foreign_lineFeed lacking effectLine
  have package : ∀ name, document.packageName = some name → isPackageName name.toList := by
    rw [same]
    exact fun name => isPackageName_of_validate valid
  have bare : ∀ declared ∈ document.operations, declared.hasAnnotations = false := by
    rw [same]
    exact Schema.operations_bare
  have subscribed : document.subscription.isSome ↔ ∃ type, schema.root .subscription = .ok (some type) := by
    rw [same]
    exact Schema.isSome_subscription_iff resolve
  have lined := Document.text_lined clear package bare
  have imported := lined.import_mem_iff
  have streams : Import.streams.text ∈ lines document.text ↔ ∃ type, schema.root .subscription = .ok (some type) := by
    rw [imported, ← subscribed]
    simp [Document.imports]
  refine ⟨?_, ?_, streams, ?_, ?_, ?_⟩
  · rw [imported, ← Text.opening_ne_nil_iff, lined.annotations]
    simp [Document.imports]
  · rw [imported]
    simp [Document.imports]
  · intro operation type served
    refine ⟨same ▸ Schema.operationClass_mem_operations served, fun field inside streamed => ?_⟩
    cases operation with
    | query => exact absurd streamed (effectOf_ne_streamOf _ _)
    | mutation => exact absurd streamed (effectOf_ne_streamOf _ _)
    | subscription => exact streams.mpr ⟨type, served⟩
  · rw [lined.imports]
    exact (Document.imports_sublist _).map Import.text
  · intro declared member
    have own := (CaseClass.text_lined (clear.operations declared member)).annotations
    rw [bare declared member] at own
    exact ⟨bare declared member, by simpa using own⟩

/-- A description that looks like an import. -/
def calendar : Schema :=
  { definitions :=
      [.object
        { name := "Day", fields := [{ name := "note", type := .named "Int" false }]
          description := some "Read\nimport Types._" }] }

theorem imports_exact_calendar :
    ∃ document, Schema.ofText "\"Read\\nimport Types._\" type Day \x7b note: Int \x7d" = .ok calendar ∧
      ({} : Settings).write calendar = .ok document ∧
      Import.annotations.text ∈ lines document.text ∧ Import.types.text ∉ lines document.text ∧
      Import.streams.text ∉ lines document.text := by
  have valid : validate .program (.object []) = .ok {} := rfl
  have read : Schema.ofText "\"Read\\nimport Types._\" type Day \x7b note: Int \x7d" = .ok calendar := by
    decide +kernel
  have written : ({} : Settings).write calendar = .ok _ := rfl
  obtain ⟨annotations, types, streams, -⟩ := imports_exact valid nofun (by decide) read written
  refine ⟨_, read, written, annotations.mpr ?_, fun inside => (types.mp inside).2 rfl, fun inside => ?_⟩
  · exact ⟨"@GQLDescription(\"Read\\nimport Types._\")", by decide +kernel, by decide⟩
  · obtain ⟨type, served⟩ := streams.mp inside
    cases served

/-- A described data type next to an operation. -/
def almanac : Schema :=
  { definitions :=
      [.object { name := "Query", fields := [{ name := "day", type := .named "Day" false }] },
        .object
          { name := "Day", fields := [{ name := "note", type := .named "Int" false }], description := some "Sunny" }] }

/-- The data types are imported before the descriptions. -/
theorem types_imported_first :
    ∃ document,
      Schema.ofText "type Query \x7b day: Day \x7d \"Sunny\" type Day \x7b note: Int \x7d" = .ok almanac ∧
      ({} : Settings).write almanac = .ok document ∧
      opening importMark document.text = [Import.types.text, Import.annotations.text] := by
  exact ⟨_, by decide +kernel, rfl, by decide +kernel⟩

end Settings

end SchemaScribe
