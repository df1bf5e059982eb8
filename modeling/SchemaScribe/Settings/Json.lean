import SchemaScribe.Source.Number
import SchemaScribe.Text.Escape

/-!
JSON values and a strict reader for them: no comments, no trailing commas, no bare control characters in strings.
Numbers are written as in schema documents, or as the words for infinity and for no number at all, and are kept as
written. All entries of an object are kept, also several of one key.
-/

namespace SchemaScribe

inductive Json
  | null
  | boolean (value : Bool)
  | number (written : String)
  | string (text : String)
  | array (items : List Json)
  | object (entries : List (String × Json))

namespace Json

open Text

def isSpace (c : Char) : Bool :=
  c == ' ' || c == '\t' || c == '\n' || c == '\r'

def skipSpace (chars : List Char) : List Char :=
  chars.dropWhile isSpace

/-- Behind the opening quote, up to and including the closing one. -/
def readString (chars : List Char) : Option (List Char × List Char) :=
  match chars with
  | [] => none
  | '"' :: rest => some ([], rest)
  | '\\' :: 'u' :: rest =>
    match _read : readCodePoint? rest with
    | none => none
    | some (value, rest) => (readString rest).map (Prod.map (value :: ·) id)
  | '\\' :: c :: rest =>
    match escapedCharacter? c with
    | none => none
    | some value => (readString rest).map (Prod.map (value :: ·) id)
  | c :: rest => if c.toNat < 0x20 then none else (readString rest).map (Prod.map (c :: ·) id)
termination_by chars.length
decreasing_by
  · have := readCodePoint?_shorter _read
    simp only [List.length_cons]
    omega
  · simp only [List.length_cons]
    omega
  · simp

/-- A key in quotes. -/
def readKey (chars : List Char) : Option (String × List Char) :=
  match skipSpace chars with
  | '"' :: rest => (readString rest).map (Prod.map String.ofList id)
  | _ => none

/-- Further items up to the closing bracket, of which there are fewer than `bound`. -/
def readItems (item : List Char → Option (α × List Char)) (close : Char) :
    Nat → List Char → Option (List α × List Char)
  | 0, _ => none
  | bound + 1, chars =>
    match skipSpace chars with
    | ',' :: rest => do
      let (first, rest) ← item rest
      let (others, rest) ← readItems item close bound rest
      return (first :: others, rest)
    | c :: rest => if c = close then some ([], rest) else none
    | [] => none

/-- What is behind the closing bracket, if that comes next. -/
def readEmpty (close : Char) (chars : List Char) : Option (List Char) :=
  match skipSpace chars with
  | c :: rest => if c = close then some rest else none
  | [] => none

/-- Items behind an opening bracket, with commas between them. -/
def readBracketed (item : List Char → Option (α × List Char)) (close : Char) (chars : List Char) :
    Option (List α × List Char) :=
  match readEmpty close chars with
  | some rest => some ([], rest)
  | none => do
    let (first, rest) ← item chars
    let (others, rest) ← readItems item close (rest.length + 1) rest
    return (first :: others, rest)

def readEntry (value : List Char → Option (Json × List Char)) (chars : List Char) :
    Option ((String × Json) × List Char) := do
  let (key, rest) ← readKey chars
  match skipSpace rest with
  | ':' :: rest =>
    let (value, rest) ← value rest
    return ((key, value), rest)
  | _ => none

def readDecimal (chars : List Char) : Option (Json × List Char) :=
  match Source.readNumber chars with
  | .ok (.int written, rest) => some (.number written, rest)
  | .ok (.float written, rest) => some (.number written, rest)
  | _ => none

/-- Infinity may have a minus sign; the word for no number has none. -/
def readNumber (chars : List Char) : Option (Json × List Char) :=
  match chars with
  | 'N' :: 'a' :: 'N' :: rest => some (.number "NaN", rest)
  | 'I' :: 'n' :: 'f' :: 'i' :: 'n' :: 'i' :: 't' :: 'y' :: rest => some (.number "Infinity", rest)
  | '-' :: 'I' :: 'n' :: 'f' :: 'i' :: 'n' :: 'i' :: 't' :: 'y' :: rest => some (.number "-Infinity", rest)
  | chars => readDecimal chars

/-- `room` is the number of levels of arrays and objects that may still be opened; an empty one opens none. -/
def readValue (room : Nat) (chars : List Char) : Option (Json × List Char) :=
  match skipSpace chars with
  | 'n' :: 'u' :: 'l' :: 'l' :: rest => some (.null, rest)
  | 't' :: 'r' :: 'u' :: 'e' :: rest => some (.boolean true, rest)
  | 'f' :: 'a' :: 'l' :: 's' :: 'e' :: rest => some (.boolean false, rest)
  | '"' :: rest => (readString rest).map (Prod.map (.string ∘ String.ofList) id)
  | '[' :: rest =>
    match room with
    | 0 => (readEmpty ']' rest).map (.array [], ·)
    | room + 1 => (readBracketed (readValue room) ']' rest).map (Prod.map .array id)
  | '\x7b' :: rest =>
    match room with
    | 0 => (readEmpty '\x7d' rest).map (.object [], ·)
    | room + 1 => (readBracketed (readEntry (readValue room)) '\x7d' rest).map (Prod.map .object id)
  | rest => readNumber rest

/-- How deep arrays and objects may nest. -/
def nestingLimit : Nat := 200

/-- A single value and nothing else but space around it. -/
def parse? (text : String) : Option Json :=
  match readValue nestingLimit text.toList with
  | some (value, rest) => if (skipSpace rest).isEmpty then some value else none
  | none => none

end Json

end SchemaScribe
