import SchemaScribe.Source.Parser
import SchemaScribe.Source.Scan
import SchemaScribe.Source.Value

/-!
The grammar of documents. Everything that a document may hold is read, since an error anywhere refuses the whole;
list types, list and object values and selection sets may nest two hundred levels deep.
-/

namespace SchemaScribe.Source

open SchemaScribe.Source.Parser

/-- How many levels of nesting a document may have. -/
def nestingLimit : Nat := 200

/-- `room` is the number of levels that may still be opened. The bracket of a list type is accepted before its level
is counted, so that a lexical fault behind the bracket comes first; values and selection sets are counted at once. -/
def typeRef (room : Nat) : Parser TypeRef := do
  let ref ← if ← accept .bracketOpen then
      match room with
      | 0 => fail .nestedTooDeeply
      | room + 1 => do
        let element ← typeRef room
        expect .bracketClose
        pure (.list element false)
    else do pure (.named (← name) false)
  return if ← accept .bang then ref.require else ref

/-- Behind a dollar sign. A constant may not hold a variable. -/
def variableValue (constant : Bool) : Parser Value := do
  if constant then
    match ← current with
    | some (.name text) => fail (.variableInConstant text)
    | _ => fail (.unexpected (some (.punctuator .dollar)))
  else
    return .variableRef (← name)

def value (constant : Bool) (room : Nat) : Parser Value := do
  match ← current with
  | some (.punctuator .bracketOpen) =>
    match room with
    | 0 => fail .nestedTooDeeply
    | room + 1 => return .list (← anyBetween .bracketOpen (value constant room) .bracketClose)
  | some (.punctuator .braceOpen) =>
    match room with
    | 0 => fail .nestedTooDeeply
    | room + 1 =>
      let field : Parser (String × Value) := do
        let key ← name
        expect .colon
        return (key, ← value constant room)
      return .object (← anyBetween .braceOpen field .braceClose)
  | some (.punctuator .dollar) =>
    advance
    variableValue constant
  | some (.name text) =>
    advance
    return .word text
  | some (.int digits) =>
    advance
    return .word digits
  | some (.float digits) =>
    advance
    return .word digits
  | some (.string text) =>
    advance
    return .string text
  | some (.blockString text) =>
    advance
    return .block text
  | found => fail (.unexpected found)

def argumentValue (constant : Bool) (room : Nat) : Parser Unit := do
  let _ ← name
  expect .colon
  let _ ← value constant room

def argumentValues (constant : Bool) (room : Nat) : Parser Unit := do
  let _ ← optionalBetween .parenOpen (argumentValue constant room) .parenClose

def directive (constant : Bool) (room : Nat) : Parser Unit := do
  expect .atSign
  let _ ← name
  argumentValues constant room

/-- Whether there were any directives. -/
def directives (constant : Bool) (room : Nat) : Parser Bool := do
  let given ← itemsWhile .atSign (directive constant room) ((← remaining) + 1)
  return !given.isEmpty

def constantDirectives : Parser Bool :=
  directives true nestingLimit

def description : Parser (Option String) := do
  match ← current with
  | some (.string text) =>
    advance
    return some text
  | some (.blockString text) =>
    advance
    return some text
  | _ => return none

/-- An argument of a field, or a field of an input type. -/
def inputValue : Parser Argument := do
  let description ← description
  let name ← name
  expect .colon
  let type ← typeRef nestingLimit
  let defaultText ← if ← accept .equals then some <$> Value.text <$> value true nestingLimit else pure none
  let _ ← constantDirectives
  return { name, type, defaultText, description }

def argumentDefinitions : Parser (List Argument) :=
  optionalBetween .parenOpen inputValue .parenClose

def fieldDefinition : Parser Field := do
  let description ← description
  let name ← name
  let arguments ← argumentDefinitions
  expect .colon
  let type ← typeRef nestingLimit
  let _ ← constantDirectives
  return { name, type, arguments, description }

def fieldDefinitions : Parser (List Field) :=
  optionalBetween .braceOpen fieldDefinition .braceClose

/-- A field of an input type takes no arguments, and its default shows nowhere. -/
def inputField (argument : Argument) : Field :=
  { name := argument.name, type := argument.type, description := argument.description }

def inputFields : Parser (List Field) := do
  return (← optionalBetween .braceOpen inputValue .braceClose).map inputField

def isReservedValue (token : Token) : Bool :=
  token.value?.any fun text => text == "true" || text == "false" || text == "null"

def enumValueName : Parser String := do
  match ← current with
  | some token => if isReservedValue token then fail (.reservedEnumValue token) else name
  | none => name

def enumValue : Parser EnumValue := do
  let description ← description
  let name ← enumValueName
  let _ ← constantDirectives
  return { name, description }

def enumValues : Parser (List EnumValue) :=
  optionalBetween .braceOpen enumValue .braceClose

def unionMembers : Parser (List String) := do
  if ← accept .equals then delimited .pipe name else return []

/-- Whether there were any interfaces. -/
def interfaces : Parser Bool := do
  if ← acceptKeyword "implements" then
    let _ ← delimited .ampersand name
    return true
  else
    return false

def operationType : Parser Operation := do
  let word ← name
  match Operation.ofKeyword? word with
  | some operation => return operation
  | none => fail (.unexpected (some (.name word)))

def rootName : Parser (Operation × String) := do
  let operation ← operationType
  expect .colon
  return (operation, ← name)

def directiveLocations : List String :=
  ["QUERY", "MUTATION", "SUBSCRIPTION", "FIELD", "FRAGMENT_DEFINITION", "FRAGMENT_SPREAD", "INLINE_FRAGMENT",
   "VARIABLE_DEFINITION", "FRAGMENT_VARIABLE_DEFINITION", "SCHEMA", "SCALAR", "OBJECT", "FIELD_DEFINITION",
   "ARGUMENT_DEFINITION", "INTERFACE", "UNION", "ENUM", "ENUM_VALUE", "INPUT_OBJECT", "INPUT_FIELD_DEFINITION",
   "DIRECTIVE_DEFINITION"]

def directiveLocation : Parser Unit := do
  let word ← name
  unless directiveLocations.contains word do
    fail (.unexpected (some (.name word)))

/-- The word `on` itself names no fragment. -/
def fragmentName : Parser Unit := do
  let found ← current
  if (found.bind Token.value?) == some "on" then
    fail (.unexpected found)
  else
    let _ ← name

/-- One entry of a selection set; `nested` reads the selection set that may belong to it. -/
def selection (room : Nat) (nested : Parser Unit) : Parser Unit := do
  if ← accept .spread then
    if ← acceptKeyword "on" then
      let _ ← name
      let _ ← directives false room
      nested
    else
      match ← current with
      | some (.name _) =>
        fragmentName
        let _ ← directives false room
      | _ =>
        let _ ← directives false room
        nested
  else
    let _ ← name
    if ← accept .colon then
      let _ ← name
    argumentValues false room
    let _ ← directives false room
    if ← sees .braceOpen then
      nested

def selectionSet : Nat → Parser Unit
  | 0 => fail .nestedTooDeeply
  | room + 1 => do
    let _ ← anyBetween .braceOpen (selection room (selectionSet room)) .braceClose

def variableDefinition : Parser Unit := do
  let _ ← description
  expect .dollar
  let _ ← name
  expect .colon
  let _ ← typeRef nestingLimit
  if ← accept .equals then
    let _ ← value true nestingLimit
  let _ ← constantDirectives

def operationDefinition : Parser Statement := do
  let _ ← description
  let _ ← operationType
  if let some (.name _) ← current then
    let _ ← name
  let _ ← optionalBetween .parenOpen variableDefinition .parenClose
  let _ ← directives false nestingLimit
  selectionSet nestingLimit
  return .unmodelled

def fragmentDefinition : Parser Statement := do
  let _ ← description
  expectKeyword "fragment"
  fragmentName
  expectKeyword "on"
  let _ ← name
  let _ ← directives false nestingLimit
  selectionSet nestingLimit
  return .unmodelled

def schemaDefinition : Parser Statement := do
  let _ ← description
  expectKeyword "schema"
  let _ ← constantDirectives
  return .roots (← manyBetween .braceOpen rootName .braceClose)

def scalarDefinition : Parser Statement := do
  let _ ← description
  expectKeyword "scalar"
  let _ ← name
  let _ ← constantDirectives
  return .unmodelled

def objectDefinition : Parser Statement := do
  let description ← description
  expectKeyword "type"
  let name ← name
  let _ ← interfaces
  let _ ← constantDirectives
  let fields ← fieldDefinitions
  return .object { name, fields, description }

def interfaceDefinition : Parser Statement := do
  let _ ← description
  expectKeyword "interface"
  let _ ← name
  let _ ← interfaces
  let _ ← constantDirectives
  let _ ← fieldDefinitions
  return .unmodelled

def unionDefinition : Parser Statement := do
  let description ← description
  expectKeyword "union"
  let name ← name
  let _ ← constantDirectives
  let members ← unionMembers
  return .union { name, members, description }

def enumDefinition : Parser Statement := do
  let description ← description
  expectKeyword "enum"
  let name ← name
  let _ ← constantDirectives
  let values ← enumValues
  return .enum { name, values, description }

def inputDefinition : Parser Statement := do
  let description ← description
  expectKeyword "input"
  let name ← name
  let _ ← constantDirectives
  let fields ← inputFields
  return .input { name, fields, description }

def directiveDefinition : Parser Statement := do
  let _ ← description
  expectKeyword "directive"
  expect .atSign
  let _ ← name
  let _ ← argumentDefinitions
  let _ ← constantDirectives
  let _ ← acceptKeyword "repeatable"
  expectKeyword "on"
  let _ ← delimited .pipe directiveLocation
  return .unmodelled

/-- An extension has to add something. -/
def requireContent (given : Bool) : Parser Unit := do
  unless given do
    fail (.unexpected (← current))

def schemaExtension : Parser Statement := do
  let annotated ← constantDirectives
  let names ← optionalBetween .braceOpen rootName .braceClose
  requireContent (annotated || !names.isEmpty)
  return .extendRoots names

def scalarExtension : Parser Statement := do
  let _ ← name
  requireContent (← constantDirectives)
  return .unmodelled

def objectExtension : Parser Statement := do
  let name ← name
  let implementing ← interfaces
  let annotated ← constantDirectives
  let fields ← fieldDefinitions
  requireContent (implementing || annotated || !fields.isEmpty)
  return .extendObject name fields

def interfaceExtension : Parser Statement := do
  let _ ← objectExtension
  return .unmodelled

def unionExtension : Parser Statement := do
  let name ← name
  let annotated ← constantDirectives
  let members ← unionMembers
  requireContent (annotated || !members.isEmpty)
  return .extendUnion name members

def enumExtension : Parser Statement := do
  let name ← name
  let annotated ← constantDirectives
  let values ← enumValues
  requireContent (annotated || !values.isEmpty)
  return .extendEnum name values

def inputExtension : Parser Statement := do
  let name ← name
  let annotated ← constantDirectives
  let fields ← inputFields
  requireContent (annotated || !fields.isEmpty)
  return .extendInput name fields

def directiveExtension : Parser Statement := do
  expect .atSign
  let _ ← name
  requireContent (← constantDirectives)
  return .unmodelled

def extensionOf? : String → Option (Parser Statement)
  | "schema" => some schemaExtension
  | "scalar" => some scalarExtension
  | "type" => some objectExtension
  | "interface" => some interfaceExtension
  | "union" => some unionExtension
  | "enum" => some enumExtension
  | "input" => some inputExtension
  | "directive" => some directiveExtension
  | _ => none

/-- The word behind `extend` says what is extended. -/
def extension : Parser Statement := do
  let found ← lookahead
  match found with
  | some (.name word) =>
    match extensionOf? word with
    | some body =>
      advance
      advance
      body
    | none => fail (.unexpected found)
  | _ => fail (.unexpected found)

def definitionOf? : String → Option (Parser Statement)
  | "schema" => some schemaDefinition
  | "scalar" => some scalarDefinition
  | "type" => some objectDefinition
  | "interface" => some interfaceDefinition
  | "union" => some unionDefinition
  | "enum" => some enumDefinition
  | "input" => some inputDefinition
  | "directive" => some directiveDefinition
  | "query" => some operationDefinition
  | "mutation" => some operationDefinition
  | "subscription" => some operationDefinition
  | "fragment" => some fragmentDefinition
  | _ => none

/-- A definition that begins with the given keyword, which stands behind a description if there is one. -/
def definitionWith (described : Bool) (keyword : Option Token) : Parser Statement :=
  match keyword with
  | some (.name word) =>
    match definitionOf? word with
    | some body => body
    | none =>
      if described then fail .misplacedDescription
      else if word = "extend" then extension
      else fail (.unexpected keyword)
  | some (.punctuator .braceOpen) => if described then fail .describedShorthand else fail (.unexpected keyword)
  | _ => fail (.unexpected keyword)

def definition : Parser Statement := do
  match ← current with
  | some (.punctuator .braceOpen) =>
    selectionSet nestingLimit
    return .unmodelled
  | some (.string _) => definitionWith true (← lookahead)
  | some (.blockString _) => definitionWith true (← lookahead)
  | found => definitionWith false found

/-- A document holds at least one definition. -/
def document : Parser (List Statement) := do
  let first ← definition
  let rest ← itemsToEnd definition ((← remaining) + 1)
  return first :: rest

/-- Applies a rule of the grammar to a whole text. -/
def parseText (rule : Parser α) (text : String) : Except SyntaxError α := do
  let tokens ← (scan text.toList).checked
  let (result, _) ← rule.run tokens
  return result

def parseDocument (text : String) : Except SyntaxError (List Statement) :=
  parseText document text

/-- A single type reference and nothing else. -/
def parseTypeRef (text : String) : Except SyntaxError TypeRef :=
  parseText (do
    let ref ← typeRef nestingLimit
    expectEnd
    return ref) text

end SchemaScribe.Source
