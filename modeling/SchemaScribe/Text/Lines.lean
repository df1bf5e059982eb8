/-!
Texts as lists of lines. A carriage return directly before a line feed never makes a line of its own; which other
characters end a line depends on the reader, so the class is a parameter.
-/

namespace SchemaScribe.Text

/-- The pieces between line ends. There is always at least one, and the last one is empty after a final line end. -/
def splitLines (isBreak : Char → Bool) : List Char → List (List Char)
  | [] => [[]]
  | '\r' :: '\n' :: rest => [] :: splitLines isBreak rest
  | c :: rest =>
    if isBreak c then [] :: splitLines isBreak rest
    else match splitLines isBreak rest with
      | [] => [[c]]
      | line :: lines => (c :: line) :: lines

/-- Line feed and carriage return. -/
def isLineEnd (c : Char) : Bool :=
  c == '\n' || c == '\r'

/-- Every character after which a text viewer starts a new line. -/
def isVisualLineEnd (c : Char) : Bool :=
  let code := c.toNat
  (0x0A ≤ code && code ≤ 0x0D) || (0x1C ≤ code && code ≤ 0x1E) || code == 0x85 || code == 0x2028 || code == 0x2029

/-- The number of visual lines; a final line end opens no further line. -/
def countLines (text : String) : Nat :=
  let lines := splitLines isVisualLineEnd text.toList
  if lines.getLast? = some [] then lines.length - 1 else lines.length

/-- Every line end as a single line feed. -/
def normalizeLineEnds : List Char → List Char
  | [] => []
  | '\r' :: '\n' :: rest => '\n' :: normalizeLineEnds rest
  | c :: rest => (if c = '\r' then '\n' else c) :: normalizeLineEnds rest

end SchemaScribe.Text
