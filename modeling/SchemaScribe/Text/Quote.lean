import SchemaScribe.Text.Printable

/-!
Texts in quotes, for messages about paths and options. Single quotes are used unless only they would have to be
escaped; what cannot be printed is spelled in hexadecimal digits.
-/

namespace SchemaScribe.Text

/-- Lower-case hexadecimal digits, filled up with zeros. -/
def paddedHex (width code : Nat) : List Char :=
  let digits := Nat.toDigits 16 code
  List.replicate (width - digits.length) '0' ++ digits

def quoteCharacter (mark c : Char) : List Char :=
  if c = mark ∨ c = '\\' then ['\\', c]
  else if c = '\n' then ['\\', 'n']
  else if c = '\r' then ['\\', 'r']
  else if c = '\t' then ['\\', 't']
  else if isPrintable c then [c]
  else if c.toNat < 0x100 then '\\' :: 'x' :: paddedHex 2 c.toNat
  else if c.toNat < 0x10000 then '\\' :: 'u' :: paddedHex 4 c.toNat
  else '\\' :: 'U' :: paddedHex 8 c.toNat

def quote (text : String) : String :=
  let chars := text.toList
  let mark := if chars.contains '\x27' && !chars.contains '"' then '"' else '\x27'
  String.ofList (mark :: chars.flatMap (quoteCharacter mark) ++ [mark])

end SchemaScribe.Text
