import SchemaScribe.Source.Number
import SchemaScribe.Source.Quoted
import SchemaScribe.Source.BlockText

/-!
Reading the tokens off a text. Each token is the longest of its kind, and what follows it is shorter than what
was there, so `scan` ends after at most one step for each character.
-/

namespace SchemaScribe.Source

/-- What may stand between tokens without a meaning, comments apart. -/
def isIgnored (c : Char) : Bool :=
  c == ' ' || c == '\t' || c == ',' || c == '\uFEFF' || c == '\n' || c == '\r'

def punctuatorOf? : Char → Option Punctuator
  | '!' => some .bang
  | '$' => some .dollar
  | '&' => some .ampersand
  | '(' => some .parenOpen
  | ')' => some .parenClose
  | ':' => some .colon
  | '=' => some .equals
  | '@' => some .atSign
  | '[' => some .bracketOpen
  | ']' => some .bracketClose
  | '\x7b' => some .braceOpen
  | '|' => some .pipe
  | '\x7d' => some .braceClose
  | _ => none

/-- Reads behind a point. -/
def readDots : List Char → Except LexicalError (Token × List Char)
  | '.' :: '.' :: rest => .ok (.punctuator .spread, rest)
  | '.' :: _ => .error .twoDots
  | chars =>
    if (chars.head?.any isDigit) then .error (.missingWholePart (String.ofList (chars.takeWhile isDigit)))
    else .error (.unexpectedCharacter '.')

/-- The token that begins with `c`. -/
def readToken (c : Char) (rest : List Char) : Except LexicalError (Token × List Char) :=
  match punctuatorOf? c with
  | some mark => .ok (.punctuator mark, rest)
  | none =>
    if isNameStart c then
      .ok (.name (String.ofList (c :: rest.takeWhile isNameContinue)), rest.dropWhile isNameContinue)
    else if isDigit c || c = '-' then readNumber (c :: rest)
    else if c = '.' then readDots rest
    else if c = '"' then
      match rest with
      | '"' :: '"' :: rest => (readBlock rest).map (Prod.map (.blockString ∘ blockText) id)
      | rest => (readString rest).map (Prod.map (.string ∘ String.ofList) id)
    else if c = '\x27' then .error .singleQuote
    else .error (.unexpectedCharacter c)

theorem readDots_shorter {chars token rest} (read : readDots chars = .ok (token, rest)) :
    rest.length < chars.length := by
  unfold readDots at read
  split at read
  · cases read
    simp only [List.length_cons]
    omega
  · cases read
  · split at read <;> cases read

theorem readToken_shorter {c chars token rest} (read : readToken c chars = .ok (token, rest)) :
    rest.length ≤ chars.length := by
  unfold readToken at read
  split at read
  · cases read
    exact Nat.le_refl _
  · split at read
    · cases read
      exact length_dropWhile_le _ _
    · split at read
      · have := readNumber_shorter read
        simp only [List.length_cons] at this
        omega
      · split at read
        · exact Nat.le_of_lt (readDots_shorter read)
        · split at read
          · split at read
            · obtain ⟨inner, read⟩ := map_fst_eq_ok read
              have := readBlock_shorter read
              simp only [List.length_cons]
              omega
            · obtain ⟨inner, read⟩ := map_fst_eq_ok read
              exact Nat.le_of_lt (readString_shorter read)
          · split at read <;> cases read

/-- A comment runs from a number sign to the end of its line. -/
def scan (chars : List Char) : Tokens :=
  match chars with
  | [] => .done
  | c :: rest =>
    if isIgnored c then scan rest
    else if c = '#' then scan (rest.dropWhile (!Text.isLineEnd ·))
    else match _read : readToken c rest with
      | .error error => .fault error
      | .ok (token, rest) => .next token (scan rest)
termination_by chars.length
decreasing_by
  · simp
  · exact Nat.lt_succ_of_le (length_dropWhile_le _ _)
  · exact Nat.lt_succ_of_le (readToken_shorter _read)

end SchemaScribe.Source
