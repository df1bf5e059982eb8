import SchemaScribe.Text.Lines
import SchemaScribe.Text.Pieces

/-!
Literal values of schema documents and the text in which a default value is kept. Lists and objects stand on one
line if that line has at most 80 characters, and otherwise give each of their items a line of its own.
-/

namespace SchemaScribe.Source
open SchemaScribe.Text

inductive Value
  /-- A number, a name, or one of the words for truth, falsehood and nothing. -/
  | word (text : String)
  | variableRef (name : String)
  | string (text : String)
  | block (text : String)
  | list (items : List Value)
  | object (fields : List (String × Value))

namespace Value

def upperHexDigit (digit : Nat) : Char :=
  (Nat.digitChar digit).toUpper

/-- Inside quotes, control characters are spelled by escapes. -/
def escapeCharacter (c : Char) : List Char :=
  if c = '\\' ∨ c = '"' then ['\\', c]
  else if c = '\x08' then ['\\', 'b']
  else if c = '\t' then ['\\', 't']
  else if c = '\n' then ['\\', 'n']
  else if c = '\x0c' then ['\\', 'f']
  else if c = '\r' then ['\\', 'r']
  else if c.toNat < 0x20 ∨ (0x7F ≤ c.toNat ∧ c.toNat ≤ 0x9F) then
    ['\\', 'u', '0', '0', upperHexDigit (c.toNat / 16), upperHexDigit (c.toNat % 16)]
  else [c]

def quoted (text : String) : String :=
  "\"" ++ String.ofList (text.toList.flatMap escapeCharacter) ++ "\""

/-- Three quotes in a row would close the block, so each such triple is written behind a backslash. -/
def escapeTriples : List Char → List Char
  | [] => []
  | '"' :: '"' :: '"' :: rest => '\\' :: '"' :: '"' :: '"' :: escapeTriples rest
  | c :: rest => c :: escapeTriples rest

def startsIndented (line : List Char) : Bool :=
  line.head?.any fun c => c == ' ' || c == '\t'

/-- A block of several lines, a long one, and one whose end could be misread stand between lines of quotes; a
single line that begins with a blank keeps to the line of the opening quotes. -/
def blockQuoted (text : String) : String :=
  let escaped := escapeTriples text.toList
  let lines := splitLines isLineEnd escaped
  let severalLines := decide (lines.length > 1)
  let looksIndented := severalLines && lines.tail.all fun line => line.isEmpty || startsIndented line
  let endsInTriple := ['\\', '"', '"', '"'].isSuffixOf escaped
  let endsUnsafely := (text.toList.getLast? == some '"' && !endsInTriple) || text.toList.getLast? == some '\\'
  let spread := severalLines || decide (text.length > 70) || endsUnsafely || looksIndented || endsInTriple
  let before := if looksIndented || (spread && !(!severalLines && startsIndented text.toList)) then "\n" else ""
  let after := if spread || endsUnsafely then "\n" else ""
  "\"\"\"" ++ before ++ String.ofList escaped ++ after ++ "\"\"\""

/-- Every line two places further in. -/
def indentLines (text : String) : String :=
  "  " ++ String.ofList (text.toList.flatMap fun c => if c = '\n' then ['\n', ' ', ' '] else [c])

def lineLimit : Nat := 80

def listText (items : List String) : String :=
  let line := "[" ++ joinWith ", " items ++ "]"
  if line.length > lineLimit then "[\n" ++ indentLines (joinWith "\n" items) ++ "\n]" else line

def objectText (fields : List String) : String :=
  let line := "\x7b " ++ joinWith ", " fields ++ " \x7d"
  if line.length > lineLimit then "\x7b\n" ++ indentLines (joinWith "\n" fields) ++ "\n\x7d" else line

mutual

def text : Value → String
  | word text => text
  | variableRef name => "$" ++ name
  | string text => quoted text
  | block text => blockQuoted text
  | list items => listText (itemTexts items)
  | object fields => objectText (fieldTexts fields)
termination_by structural value => value

def itemTexts : List Value → List String
  | [] => []
  | item :: items => item.text :: itemTexts items
termination_by structural items => items

def fieldTexts : List (String × Value) → List String
  | [] => []
  | (name, value) :: fields => (name ++ ": " ++ value.text) :: fieldTexts fields
termination_by structural fields => fields

end

end Value

end SchemaScribe.Source
