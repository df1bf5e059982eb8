import SchemaScribe.Text.Lines
import SchemaScribe.Text.Quote

/-!
Texts and bytes. A command line can hold bytes that are no text. Each of them is represented by a character that is set
aside for it: it can be handled like any other character, but it cannot be encoded.
-/

namespace SchemaScribe

/-- Bytes as text, in which every line ends in a line feed. -/
def decodeText? (content : ByteArray) : Option String :=
  (String.fromUTF8? content).map fun text => String.ofList (Text.normalizeLineEnds text.toList)

/-- The characters that stand for bytes that cannot be decoded. An ASCII character always stands for itself. -/
structure StandIns where
  byte? : Char → Option UInt8
  ascii : ∀ c : Char, c.toNat < 0x80 → byte? c = none

namespace StandIns

/-- Every byte has been decoded. -/
def none : StandIns where
  byte? _ := Option.none
  ascii _ _ := rfl

def isText (standIns : StandIns) (text : String) : Bool :=
  text.toList.all fun c => (standIns.byte? c).isNone

def encode? (standIns : StandIns) (text : String) : Option ByteArray :=
  if standIns.isText text then some text.toUTF8 else Option.none

/-- The text with the number of each undecoded byte in its place. -/
def spellOut (standIns : StandIns) (text : String) : String :=
  String.ofList (text.toList.flatMap fun c =>
    match standIns.byte? c with
    | some byte => "\\udc".toList ++ Text.paddedHex 2 byte.toNat
    | Option.none => [c])

end StandIns

end SchemaScribe
