import SchemaScribe.Proofs.Literals
import SchemaScribe.Proofs.Vocabulary

/-! Where quotes can come from. A name cannot hold one, and what is made of names cannot either, so in the document of a
schema that was read from a text all quotes stand in descriptions, in mapped scalars or in the effect. -/

namespace SchemaScribe

theorem foreign_quote : Foreign '"' :=
  { word := by decide, sign := by decide }

def Scalars.Unquoted (scalars : Scalars) : Prop :=
  ∀ entry ∈ scalars, Plain entry.2

theorem Settings.scalars_unquoted {settings : Settings} (mappings : ∀ entry ∈ settings.scalarMappings, Plain entry.2) :
    settings.scalars.Unquoted :=
  scalars_lack foreign_quote mappings

theorem Settings.isPackageName_plain {name : String} (accepted : isPackageName name.toList) : Plain name := by
  obtain ⟨words, made, same⟩ := exists_words_of_isPackageName accepted
  have plain : Plain words := by
    intro quote
    rcases made _ quote with word | point
    · exact foreign_quote.word word
    · cases point
  rcases same with rfl | rfl
  · exact plain
  · exact plain.append (.fixed "\n" rfl)

def Parameter.Unquoted (parameter : Parameter) : Prop :=
  Plain parameter.name ∧ Plain parameter.type

/-- No quote outside of the descriptions. -/
structure CaseClass.Unquoted (declaration : CaseClass) : Prop where
  name : Plain declaration.name
  parameters : ∀ parameter ∈ declaration.parameters, parameter.Unquoted
  parent : ∀ parent, declaration.parent = some parent → Plain parent

def Variant.Unquoted : Variant → Prop
  | .caseObject variant => Plain variant.name ∧ Plain variant.parent
  | .caseClass variant => variant.Unquoted

def Declaration.Unquoted : Declaration → Prop
  | .caseClass declaration => declaration.Unquoted
  | .sealedTrait declaration => Plain declaration.name ∧ ∀ variant ∈ declaration.variants, variant.Unquoted

structure Document.Unquoted (document : Document) : Prop where
  packageName : ∀ name, document.packageName = some name → Plain name
  types : ∀ declaration ∈ document.types, declaration.Unquoted
  operations : ∀ declaration ∈ document.operations, declaration.Unquoted

theorem CaseClass.Clear.unquoted {declaration : CaseClass} (clear : declaration.Clear '"') : declaration.Unquoted where
  name := foreign_quote.not_mem_word clear.name
  parameters := by
    intro parameter member
    obtain ⟨label, type⟩ := clear.parameters parameter member
    exact ⟨foreign_quote.not_mem_label label, type⟩
  parent := fun parent given => foreign_quote.not_mem_word (clear.parent parent given)

theorem Variant.Clear.unquoted {variant : Variant} (clear : variant.Clear '"') : variant.Unquoted := by
  cases variant with
  | caseObject variant => exact ⟨foreign_quote.not_mem_label clear.1, foreign_quote.not_mem_word clear.2⟩
  | caseClass variant => exact CaseClass.Clear.unquoted clear

theorem Declaration.Clear.unquoted {declaration : Declaration} (clear : declaration.Clear '"') :
    declaration.Unquoted := by
  cases declaration with
  | caseClass declaration => exact CaseClass.Clear.unquoted clear
  | sealedTrait declaration =>
    exact ⟨foreign_quote.not_mem_word clear.1, fun variant member => (clear.2 variant member).unquoted⟩

theorem Schema.Proper.document_unquoted {schema : Schema} (proper : schema.Proper) {context : WriteContext}
    {packageName : Option String} (scalars : context.scalars.Unquoted) (effect : Plain context.effect)
    (package : ∀ name, packageName = some name → Plain name) : (schema.document context packageName).Unquoted := by
  have clear : (schema.document context packageName).Clear '"' := proper.document_clear foreign_quote scalars effect
  exact
    { packageName := package
      types := fun declaration member => (clear.types declaration member).unquoted
      operations := fun declaration member => (clear.operations declaration member).unquoted }

end SchemaScribe
