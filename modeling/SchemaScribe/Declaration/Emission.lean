import SchemaScribe.Declaration.Basic
import SchemaScribe.Scalars

/-!
The declarations that a definition gives rise to. A field with arguments becomes a function from a case class
that holds them, so next to its own declaration a definition yields the argument classes of its fields.
-/

namespace SchemaScribe

/-- What the writing of results depends on. -/
structure WriteContext where
  scalars : Scalars := Scalars.builtin
  /-- The type constructor around the results of queries and mutations. -/
  effect : String := "zio.UIO"

/-- A result inside the effect. -/
def effectOf (effect result : String) : String :=
  effect ++ "[" ++ result ++ "]"

/-- A stream of results. -/
def streamOf (result : String) : String :=
  "ZStream[Any, Nothing, " ++ result ++ "]"

def Argument.parameter (scalars : Scalars) (argument : Argument) : Parameter :=
  { name := safeName argument.name, type := argument.type.expression scalars, description := argument.description }

namespace Field

def argumentClass? (scalars : Scalars) (field : Field) : Option CaseClass :=
  if field.arguments.isEmpty then none
  else some { name := argumentsName field.name, parameters := field.arguments.map (·.parameter scalars) }

/-- The type of the field, given the type of its result. -/
def signature (field : Field) (result : String) : String :=
  if field.arguments.isEmpty then result else argumentsName field.name ++ " => " ++ result

def parameter (scalars : Scalars) (field : Field) : Parameter :=
  { name := safeName field.name
    type := field.signature (field.type.expression scalars)
    description := field.description }

/-- A field of an input type, of which arguments do not show. -/
def inputParameter (scalars : Scalars) (field : Field) : Parameter :=
  { name := safeName field.name, type := field.type.expression scalars, description := field.description }

/-- A field of a root operation, whose result is wrapped. -/
def operationParameter (scalars : Scalars) (wrap : String → String) (field : Field) : Parameter :=
  { name := safeName field.name, type := field.signature (wrap (field.type.expression scalars)) }

/-- The malformed references in the types of the arguments. -/
def argumentFaults (field : Field) : List ValueKind :=
  field.arguments.filterMap (·.type.fault?)

/-- All malformed references, the arguments before the result. -/
def faults (field : Field) : List ValueKind :=
  field.argumentFaults ++ field.type.fault?.toList

/-- The argument class, unless some argument has a malformed type. -/
def writeArguments (scalars : Scalars) (field : Field) : Except WriteError (Option CaseClass) :=
  unlessMalformed field.argumentFaults.head? (field.argumentClass? scalars)

end Field

/-- The parameters of the fields and the argument classes that they refer to. -/
def writeFields (scalars : Scalars) (fields : List Field) : Except WriteError (List Parameter × List CaseClass) :=
  unlessMalformed (fields.flatMap Field.faults).head?
    (fields.map (·.parameter scalars), fields.filterMap (·.argumentClass? scalars))

namespace RecordType

def caseClass (scalars : Scalars) (parent : Option String) (type : RecordType) : CaseClass :=
  { name := type.name
    parameters := type.fields.map (·.parameter scalars)
    description := type.description
    parent }

def argumentClasses (scalars : Scalars) (type : RecordType) : List CaseClass :=
  type.fields.filterMap (·.argumentClass? scalars)

def inputClass (scalars : Scalars) (type : RecordType) : CaseClass :=
  { name := type.name
    parameters := type.fields.map (·.inputParameter scalars)
    description := type.description }

def operationClass (scalars : Scalars) (wrap : String → String) (type : RecordType) : CaseClass :=
  { name := type.name
    parameters := type.fields.map (·.operationParameter scalars wrap)
    multiline := true }

/-- The first malformed reference among arguments and results. -/
def fault? (type : RecordType) : Option ValueKind :=
  (type.fields.flatMap Field.faults).head?

/-- The first malformed reference among the results alone. -/
def resultFault? (type : RecordType) : Option ValueKind :=
  (type.fields.filterMap (·.type.fault?)).head?

def writeObject (scalars : Scalars) (parent : Option String) (type : RecordType) :
    Except WriteError (CaseClass × List CaseClass) :=
  unlessMalformed type.fault? (type.caseClass scalars parent, type.argumentClasses scalars)

def writeInput (scalars : Scalars) (type : RecordType) : Except WriteError CaseClass :=
  unlessMalformed type.resultFault? (type.inputClass scalars)

/-- A root query or mutation. -/
def writeOperation (context : WriteContext) (type : RecordType) : Except WriteError CaseClass :=
  unlessMalformed type.resultFault? (type.operationClass context.scalars (effectOf context.effect))

/-- A root subscription, whose results are streams. -/
def writeSubscription (context : WriteContext) (type : RecordType) : Except WriteError CaseClass :=
  unlessMalformed type.resultFault? (type.operationClass context.scalars streamOf)

end RecordType

def EnumType.sealedTrait (type : EnumType) : SealedTrait :=
  { name := type.name
    variants := type.values.map fun value =>
      .caseObject { name := safeName value.name, parent := type.name, description := value.description }
    description := type.description }

namespace UnionType

/-- A member as a variant of the union, with its argument classes. -/
def writeMember (schema : Schema) (scalars : Scalars) (type : UnionType) (member : String) :
    Except WriteError (CaseClass × List CaseClass) := do
  let object ← schema.requireObject member ("union '" ++ type.name ++ "'")
  object.writeObject scalars (some type.name)

def write (schema : Schema) (scalars : Scalars) (type : UnionType) :
    Except WriteError (SealedTrait × List CaseClass) := do
  let members ← type.members.mapM (type.writeMember schema scalars)
  let variants := members.map fun (variant, _) => Variant.caseClass variant
  return ({ name := type.name, variants, description := type.description }, members.flatMap Prod.snd)

end UnionType

/-- The declaration of a definition and the argument classes that it refers to. -/
def Definition.write (schema : Schema) (scalars : Scalars) :
    Definition → Except WriteError (Declaration × List CaseClass)
  | .object type => (type.writeObject scalars none).map (Prod.map .caseClass id)
  | .input type => (type.writeInput scalars).map fun declaration => (.caseClass declaration, [])
  | .enum type => .ok (.sealedTrait type.sealedTrait, [])
  | .union type => (type.write schema scalars).map (Prod.map .sealedTrait id)

/-- The same for a value that may turn out to be no definition. -/
def writeCandidate (schema : Schema) (scalars : Scalars) :
    Candidate Definition → Except WriteError (Declaration × List CaseClass)
  | .given definition => definition.write schema scalars
  | .foreign found => .error (.unsupportedDefinition found)

end SchemaScribe
