import SchemaScribe.Text.UpperCase

/-!
Names and string literals in Scala source. A reserved word is written in back quotes; the arguments of a field
are collected under a name that is made from the field's.
-/

namespace SchemaScribe

def reservedWords : List String :=
  ["abstract", "case", "catch", "class", "def", "do", "else", "extends", "false", "final", "finally", "for",
   "forSome", "if", "implicit", "import", "lazy", "macro", "match", "new", "null", "object", "override",
   "package", "private", "protected", "return", "sealed", "super", "this", "throw", "trait", "true", "try",
   "type", "val", "var", "while", "with", "yield", "_"]

def safeName (name : String) : String :=
  if reservedWords.contains name then "\x60" ++ name ++ "\x60" else name

def argumentsName (field : String) : String :=
  Text.capitalize field ++ "Args"

/-- Inside a string literal, quotes, backslashes and control characters are spelled by escapes. -/
def literalCharacter (c : Char) : List Char :=
  if c = '\\' then ['\\', '\\']
  else if c = '"' then ['\\', '"']
  else if c = '\n' then ['\\', 'n']
  else if c = '\r' then ['\\', 'r']
  else if c = '\t' then ['\\', 't']
  else if c.toNat < 0x20 then ['\\', 'u', '0', '0', Nat.digitChar (c.toNat / 16), Nat.digitChar (c.toNat % 16)]
  else [c]

def stringLiteral (text : String) : String :=
  "\"" ++ String.ofList (text.toList.flatMap literalCharacter) ++ "\""

end SchemaScribe
