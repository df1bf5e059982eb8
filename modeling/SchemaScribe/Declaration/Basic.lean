import SchemaScribe.Declaration.Name
import SchemaScribe.Schema.Definition
import SchemaScribe.Text.Pieces

/-!
Scala declarations and their source text. Two declarations of one name may stand for each other when they have
the same `Shape`: a case class is known by its parameters, a sealed trait by the text of its variants.
-/

namespace SchemaScribe

open Text (joinWith)

/-- A description in front of what it describes; nothing for a missing or an empty one. -/
def descriptionClause (description : Option String) : String :=
  match description with
  | some text => if text = "" then "" else "@GQLDescription(" ++ stringLiteral text ++ ")\n"
  | none => ""

structure Parameter where
  name : String
  type : String
  description : Option String := none
  deriving DecidableEq

def Parameter.text (parameter : Parameter) : String :=
  descriptionClause parameter.description ++ parameter.name ++ ": " ++ parameter.type

structure CaseClass where
  name : String
  parameters : List Parameter := []
  description : Option String := none
  parent : Option String := none
  /-- Whether each parameter stands on a line of its own even if none is described. -/
  multiline : Bool := false
  deriving DecidableEq

structure CaseObject where
  name : String
  parent : String
  description : Option String := none
  deriving DecidableEq

inductive Variant
  | caseObject (variant : CaseObject)
  | caseClass (variant : CaseClass)
  deriving DecidableEq

/-- A sealed trait with its variants in the companion object. -/
structure SealedTrait where
  name : String
  variants : List Variant := []
  description : Option String := none
  deriving DecidableEq

inductive Declaration
  | caseClass (declaration : CaseClass)
  | sealedTrait (declaration : SealedTrait)
  deriving DecidableEq

/-- What two declarations of one name have to agree on. -/
inductive ShapeMember
  | parameter (name type : String)
  | variant (text : String)
  deriving DecidableEq

structure Shape where
  name : String
  members : List ShapeMember
  deriving DecidableEq

namespace CaseClass

def hasDescribedParameter (declaration : CaseClass) : Bool :=
  declaration.parameters.any (isDescribed ·.description)

def hasAnnotations (declaration : CaseClass) : Bool :=
  isDescribed declaration.description || declaration.hasDescribedParameter

def shape (declaration : CaseClass) : Shape :=
  { name := declaration.name
    members := declaration.parameters.map fun parameter => .parameter parameter.name parameter.type }

def parameterList (declaration : CaseClass) : String :=
  let parameters := declaration.parameters.map Parameter.text
  if declaration.multiline || declaration.hasDescribedParameter then "(\n" ++ joinWith ",\n" parameters ++ "\n)"
  else "(" ++ joinWith ", " parameters ++ ")"

def parentClause (declaration : CaseClass) : String :=
  match declaration.parent with
  | some parent => if parent = "" then "" else " extends " ++ parent
  | none => ""

def text (declaration : CaseClass) : String :=
  descriptionClause declaration.description ++ "case class " ++ declaration.name ++ declaration.parameterList ++
    declaration.parentClause

end CaseClass

def CaseObject.text (declaration : CaseObject) : String :=
  descriptionClause declaration.description ++ "case object " ++ declaration.name ++ " extends " ++ declaration.parent

namespace Variant

def hasAnnotations : Variant → Bool
  | caseObject variant => isDescribed variant.description
  | caseClass variant => variant.hasAnnotations

def text : Variant → String
  | caseObject variant => variant.text
  | caseClass variant => variant.text

end Variant

namespace SealedTrait

def hasAnnotations (declaration : SealedTrait) : Bool :=
  isDescribed declaration.description || declaration.variants.any Variant.hasAnnotations

def shape (declaration : SealedTrait) : Shape :=
  { name := declaration.name, members := declaration.variants.map fun variant => .variant variant.text }

def header (declaration : SealedTrait) : String :=
  descriptionClause declaration.description ++ "sealed trait " ++ declaration.name ++
    " extends scala.Product with scala.Serializable"

def text (declaration : SealedTrait) : String :=
  joinWith "\n" ([declaration.header, "", "object " ++ declaration.name ++ " \x7b"] ++
    declaration.variants.map Variant.text ++ ["\x7d"])

end SealedTrait

namespace Declaration

def name : Declaration → String
  | caseClass declaration => declaration.name
  | sealedTrait declaration => declaration.name

def hasAnnotations : Declaration → Bool
  | caseClass declaration => declaration.hasAnnotations
  | sealedTrait declaration => declaration.hasAnnotations

def shape : Declaration → Shape
  | caseClass declaration => declaration.shape
  | sealedTrait declaration => declaration.shape

def text : Declaration → String
  | caseClass declaration => declaration.text
  | sealedTrait declaration => declaration.text

end Declaration

end SchemaScribe
