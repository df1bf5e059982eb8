import SchemaScribe.Schema.Basic
import SchemaScribe.Source.Token

/-!
What a schema document consists of, and the errors that end the reading of one. Definitions and extensions of
object types, input types, enums, unions and root operations are kept; all others are read and dropped.
-/

namespace SchemaScribe.Source

inductive Statement
  | object (type : RecordType)
  | extendObject (name : String) (fields : List Field)
  | input (type : RecordType)
  | extendInput (name : String) (fields : List Field)
  | enum (type : EnumType)
  | extendEnum (name : String) (values : List EnumValue)
  | union (type : UnionType)
  | extendUnion (name : String) (members : List String)
  | roots (names : List (Operation × String))
  | extendRoots (names : List (Operation × String))
  /-- A scalar, an interface, a directive, an operation or a fragment. -/
  | unmodelled
  deriving DecidableEq

/-- The type that a statement defines or extends. -/
def Statement.name? : Statement → Option String
  | .object type => some type.name
  | .extendObject name _ => some name
  | .input type => some type.name
  | .extendInput name _ => some name
  | .enum type => some type.name
  | .extendEnum name _ => some name
  | .union type => some type.name
  | .extendUnion name _ => some name
  | .roots _ => none
  | .extendRoots _ => none
  | .unmodelled => none

/-- What the grammar asks for at a place where only one thing can stand. -/
inductive Wanted
  | name
  | mark (punctuator : Punctuator)
  | keyword (word : String)
  | textEnd
  deriving DecidableEq

def Wanted.describe : Wanted → String
  | .name => "Name"
  | .mark punctuator => s!"'{punctuator.text}'"
  | .keyword word => s!"'{word}'"
  | .textEnd => "<EOF>"

inductive SyntaxError
  | lexical (error : LexicalError)
  | expected (wanted : Wanted) (found : Option Token)
  | unexpected (found : Option Token)
  | describedShorthand
  | misplacedDescription
  | variableInConstant (name : String)
  | reservedEnumValue (found : Token)
  | nestedTooDeeply
  deriving DecidableEq

def SyntaxError.reason : SyntaxError → String
  | .lexical error => error.message
  | .expected wanted found => s!"Expected {wanted.describe}, found {describeFound found}."
  | .unexpected found => s!"Unexpected {describeFound found}."
  | .describedShorthand => "Unexpected description, descriptions are not supported on shorthand queries."
  | .misplacedDescription => "Unexpected description, only GraphQL definitions support descriptions."
  | .variableInConstant name => s!"Unexpected variable '${name}' in constant value."
  | .reservedEnumValue found => s!"{found.describe} is reserved and cannot be used for an enum value."
  | .nestedTooDeeply => "Document is nested too deeply. Parsing aborted."

def SyntaxError.message (error : SyntaxError) : String :=
  "Syntax Error: " ++ error.reason

end SchemaScribe.Source
