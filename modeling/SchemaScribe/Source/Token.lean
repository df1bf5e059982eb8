/-!
The lexical units of schema documents and the ways in which a text can fail to contain one. A text is read as
`Tokens`: its units in order, up to its end or to the first place where no unit can be read.
-/

namespace SchemaScribe.Source

inductive Punctuator
  | bang
  | dollar
  | ampersand
  | parenOpen
  | parenClose
  | spread
  | colon
  | equals
  | atSign
  | bracketOpen
  | bracketClose
  | braceOpen
  | pipe
  | braceClose
  deriving DecidableEq

def Punctuator.text : Punctuator → String
  | .bang => "!"
  | .dollar => "$"
  | .ampersand => "&"
  | .parenOpen => "("
  | .parenClose => ")"
  | .spread => "..."
  | .colon => ":"
  | .equals => "="
  | .atSign => "@"
  | .bracketOpen => "["
  | .bracketClose => "]"
  | .braceOpen => "\x7b"
  | .pipe => "|"
  | .braceClose => "\x7d"

/-- Numbers are kept as written; strings are kept as the text they stand for. -/
inductive Token
  | punctuator (mark : Punctuator)
  | name (text : String)
  | int (digits : String)
  | float (digits : String)
  | string (value : String)
  | blockString (value : String)
  deriving DecidableEq

namespace Token

def value? : Token → Option String
  | punctuator _ => none
  | name text => some text
  | int digits => some digits
  | float digits => some digits
  | string value => some value
  | blockString value => some value

def describe : Token → String
  | punctuator mark => s!"'{mark.text}'"
  | name text => s!"Name '{text}'"
  | int digits => s!"Int '{digits}'"
  | float digits => s!"Float '{digits}'"
  | string value => s!"String '{value}'"
  | blockString value => s!"BlockString '{value}'"

end Token

/-- A token, or the end of the text. -/
def describeFound : Option Token → String
  | some token => token.describe
  | none => "<EOF>"

inductive LexicalError
  | unexpectedCharacter (found : Char)
  | singleQuote
  | twoDots
  | missingWholePart (fraction : String)
  | digitAfterZero (found : Char)
  | missingDigit (found : Option Char)
  | unterminatedString
  | badEscape (written : String)
  | badUnicodeEscape (written : String)
  deriving DecidableEq

private def hexDigits (code : Nat) : String :=
  let digits := (Nat.toDigits 16 code).map Char.toUpper
  String.ofList (List.replicate (4 - digits.length) '0' ++ digits)

/-- Printable ASCII in quotes, any other character by its code point. -/
def describeCharacter (c : Char) : String :=
  if ' ' ≤ c ∧ c ≤ '~' then s!"'{c}'" else "U+" ++ hexDigits c.toNat

namespace LexicalError

def message : LexicalError → String
  | unexpectedCharacter found => s!"Unexpected character: {describeCharacter found}."
  | singleQuote => "Unexpected single quote character ('), did you mean to use a double quote (\")?"
  | twoDots => "Unexpected '..', did you mean '...'?"
  | missingWholePart fraction => s!"Invalid number, expected digit before '.', did you mean '0.{fraction}'?"
  | digitAfterZero found => s!"Invalid number, unexpected digit after 0: {describeCharacter found}."
  | missingDigit (some found) => s!"Invalid number, expected digit but got: {describeCharacter found}."
  | missingDigit none => "Invalid number, expected digit but got: <EOF>."
  | unterminatedString => "Unterminated string."
  | badEscape written => s!"Invalid character escape sequence: '{written}'."
  | badUnicodeEscape written => s!"Invalid Unicode escape sequence: '{written}'."

end LexicalError

inductive Tokens
  | done
  | fault (error : LexicalError)
  | next (token : Token) (rest : Tokens)
  deriving DecidableEq

/-- The number of tokens before the end or the fault. -/
def Tokens.length : Tokens → Nat
  | .done => 0
  | .fault _ => 0
  | .next _ rest => rest.length + 1

end SchemaScribe.Source
