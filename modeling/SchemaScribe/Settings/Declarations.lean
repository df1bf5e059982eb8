import SchemaScribe.Settings.Basic

/-!
The texts of single declarations under the settings, without a document around them. Argument classes are written only
where they are asked for.
-/

namespace SchemaScribe.Settings

def objectText (settings : Settings) (type : RecordType) : Except WriteError String :=
  (type.writeObject (settings.context none).scalars none).map (·.1.text)

/-- The argument class of a field, or nothing for a field without arguments. -/
def argumentsText (settings : Settings) (field : Field) : Except WriteError String :=
  (field.writeArguments settings.scalars).map fun arguments => (arguments.map CaseClass.text).getD ""

def inputText (settings : Settings) (type : RecordType) : Except WriteError String :=
  (type.writeInput (settings.context none).scalars).map CaseClass.text

/-- The only text that no setting has a part in. -/
def enumText (type : EnumType) : String :=
  type.sealedTrait.text

def unionText (settings : Settings) (schema : Schema) (type : UnionType) : Except WriteError String :=
  (type.write schema (settings.context none).scalars).map (·.1.text)

/-- A root query or mutation. -/
def operationText (settings : Settings) (type : RecordType) (effect : Option String := none) :
    Except WriteError String :=
  (type.writeOperation (settings.context effect)).map CaseClass.text

def subscriptionText (settings : Settings) (type : RecordType) : Except WriteError String :=
  (type.writeSubscription (settings.context none)).map CaseClass.text

end SchemaScribe.Settings
