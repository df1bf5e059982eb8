import SchemaScribe.Schema.Basic

/-!
Dropping definitions by their names before anything is written. Rules look at the beginning or the end of a name;
an empty text is no rule.
-/

namespace SchemaScribe

structure NameFilter where
  excludeStart : Option String := none
  excludeEnd : Option String := none
  includeStart : Option String := none
  includeEnd : Option String := none

namespace NameFilter

def startsWith (text start : String) : Bool :=
  start.toList.isPrefixOf text.toList

def endsWith (text ending : String) : Bool :=
  ending.toList.isSuffixOf text.toList

/-- Whether a rule is given and the test holds for its text. -/
def rule (given : Option String) (test : String → Bool) : Bool :=
  given.any fun text => text ≠ "" && test text

def keeps (filter : NameFilter) (name : String) : Bool :=
  !rule filter.excludeStart (startsWith name ·) &&
    !rule filter.excludeEnd (endsWith name ·) &&
    !rule filter.includeStart (!startsWith name ·) &&
    !rule filter.includeEnd (!endsWith name ·)

end NameFilter

namespace Schema

def filter (schema : Schema) (rules : NameFilter) : Schema :=
  { schema with definitions := schema.definitions.filter fun definition => rules.keeps definition.name }

def filterAll (schema : Schema) (rules : List NameFilter) : Schema :=
  rules.foldl filter schema

end Schema

end SchemaScribe
