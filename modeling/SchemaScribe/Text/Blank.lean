/-!
White space in texts that are judged before any token is read: settings, command-line values and whole sources.
The class is every character of bidirectional type WS, B or S or of category Zs; zero-width characters are not in it.
-/

namespace SchemaScribe.Text

/-- White space by Unicode's rule. -/
def isBlank (c : Char) : Bool :=
  let code := c.toNat
  (0x09 ≤ code && code ≤ 0x0D) || (0x1C ≤ code && code ≤ 0x20) || code == 0x85 || code == 0xA0 ||
    code == 0x1680 || (0x2000 ≤ code && code ≤ 0x200A) || code == 0x2028 || code == 0x2029 ||
    code == 0x202F || code == 0x205F || code == 0x3000

def isBlankText (text : String) : Bool :=
  text.toList.all isBlank

/-- Without the white space at the two ends. -/
def stripChars (chars : List Char) : List Char :=
  ((chars.dropWhile isBlank).reverse.dropWhile isBlank).reverse

end SchemaScribe.Text
