import SchemaScribe.Text.Lines
import SchemaScribe.Text.Pieces

/-!
The text of a block string. Its lines lose the indentation that they share, and blank lines at both ends go, so
that the text does not depend on how far the block is indented in its document.
-/

namespace SchemaScribe.Source
open SchemaScribe.Text

def isIndent (c : Char) : Bool :=
  c == ' ' || c == '\t'

def indentOf (line : List Char) : Nat :=
  (line.takeWhile isIndent).length

def isBlankLine (line : List Char) : Bool :=
  line.all isIndent

/-- The least indentation of the lines that are not blank, if there are any. -/
def commonIndent (lines : List (List Char)) : Option Nat :=
  ((lines.filter (!isBlankLine ·)).map indentOf).min?

/-- The first line keeps its indentation; where no other line shows one, the others are blank and are cut whole. -/
def dedent : List (List Char) → List (List Char)
  | [] => []
  | first :: others =>
    match commonIndent others with
    | some indent => first :: others.map (·.drop indent)
    | none => first :: others.map fun _ => []

def trimBlankLines (lines : List (List Char)) : List (List Char) :=
  ((lines.dropWhile isBlankLine).reverse.dropWhile isBlankLine).reverse

def blockText (raw : List Char) : String :=
  joinWith "\n" ((trimBlankLines (dedent (splitLines isLineEnd raw))).map String.ofList)

end SchemaScribe.Source
