import SchemaScribe.Source.Token
import SchemaScribe.Source.Progress

/-!
Character classes of names and numbers, and the reader of numbers. A number is kept as written, so reading one
only finds where it ends and whether it has a fraction or an exponent.
-/

namespace SchemaScribe.Source

def isDigit (c : Char) : Bool :=
  '0' ≤ c && c ≤ '9'

def isNameStart (c : Char) : Bool :=
  ('a' ≤ c && c ≤ 'z') || ('A' ≤ c && c ≤ 'Z') || c == '_'

def isNameContinue (c : Char) : Bool :=
  isNameStart c || isDigit c

def readDigits (chars : List Char) : Except LexicalError (List Char × List Char) :=
  match chars with
  | [] => .error (.missingDigit none)
  | c :: _ =>
    if isDigit c then .ok (chars.takeWhile isDigit, chars.dropWhile isDigit) else .error (.missingDigit (some c))

def splitSign : List Char → List Char × List Char
  | '-' :: rest => (['-'], rest)
  | chars => ([], chars)

/-- Either a single zero or digits that do not begin with one. -/
def readWholePart : List Char → Except LexicalError (List Char × List Char)
  | '0' :: c :: rest => if isDigit c then .error (.digitAfterZero c) else .ok (['0'], c :: rest)
  | chars => readDigits chars

def readFraction : List Char → Except LexicalError (List Char × List Char)
  | '.' :: rest => (readDigits rest).map (Prod.map ('.' :: ·) id)
  | chars => .ok ([], chars)

def splitExponentSign : List Char → List Char × List Char
  | '+' :: rest => (['+'], rest)
  | chars => splitSign chars

def readExponent : List Char → Except LexicalError (List Char × List Char)
  | [] => .ok ([], [])
  | c :: rest =>
    if c = 'e' ∨ c = 'E' then
      let (sign, rest) := splitExponentSign rest
      (readDigits rest).map (Prod.map (c :: sign ++ ·) id)
    else .ok ([], c :: rest)

/-- A number may not touch a point or the start of a name. -/
def checkNumberEnd : List Char → Except LexicalError Unit
  | [] => .ok ()
  | c :: _ => if c = '.' || isNameStart c then .error (.missingDigit (some c)) else .ok ()

def readNumber (chars : List Char) : Except LexicalError (Token × List Char) := do
  let (sign, rest) := splitSign chars
  let (whole, rest) ← readWholePart rest
  let (fraction, rest) ← readFraction rest
  let (exponent, rest) ← readExponent rest
  checkNumberEnd rest
  let written := String.ofList (sign ++ whole ++ fraction ++ exponent)
  .ok (if fraction.isEmpty && exponent.isEmpty then .int written else .float written, rest)

theorem readDigits_shorter {chars digits rest} (read : readDigits chars = .ok (digits, rest)) :
    rest.length < chars.length := by
  unfold readDigits at read
  split at read
  · cases read
  · next c tail =>
    split at read
    · next digit =>
      obtain ⟨_, rfl⟩ := Prod.mk.inj (Except.ok.inj read)
      simp only [List.dropWhile_cons, digit, ↓reduceIte, List.length_cons]
      exact Nat.lt_succ_of_le (length_dropWhile_le _ _)
    · cases read

theorem readWholePart_shorter {chars digits rest} (read : readWholePart chars = .ok (digits, rest)) :
    rest.length < chars.length := by
  unfold readWholePart at read
  split at read
  · split at read
    · cases read
    · cases read
      simp
  · exact readDigits_shorter read

theorem readFraction_shorter {chars digits rest} (read : readFraction chars = .ok (digits, rest)) :
    rest.length ≤ chars.length := by
  unfold readFraction at read
  split at read
  · obtain ⟨inner, read⟩ := map_fst_eq_ok read
    have := readDigits_shorter read
    simp only [List.length_cons]
    omega
  · cases read
    exact Nat.le_refl _

theorem splitSign_shorter (chars : List Char) : (splitSign chars).2.length ≤ chars.length := by
  unfold splitSign
  split <;> simp

theorem splitExponentSign_shorter (chars : List Char) : (splitExponentSign chars).2.length ≤ chars.length := by
  unfold splitExponentSign
  split
  · simp
  · exact splitSign_shorter _

theorem readExponent_shorter {chars digits rest} (read : readExponent chars = .ok (digits, rest)) :
    rest.length ≤ chars.length := by
  unfold readExponent at read
  split at read
  · cases read
    exact Nat.le_refl _
  · next tail =>
    split at read
    · obtain ⟨inner, read⟩ := map_fst_eq_ok read
      have : rest.length < (splitExponentSign tail).2.length := readDigits_shorter read
      have := splitExponentSign_shorter tail
      simp only [List.length_cons]
      omega
    · cases read
      exact Nat.le_refl _

theorem readNumber_shorter {chars token rest} (read : readNumber chars = .ok (token, rest)) :
    rest.length < chars.length := by
  obtain ⟨⟨whole, afterWhole⟩, wholeRead, read⟩ := bind_eq_ok read
  obtain ⟨⟨fraction, afterFraction⟩, fractionRead, read⟩ := bind_eq_ok read
  obtain ⟨⟨exponent, afterExponent⟩, exponentRead, read⟩ := bind_eq_ok read
  obtain ⟨_, _, read⟩ := bind_eq_ok read
  obtain ⟨_, rfl⟩ := Prod.mk.inj (Except.ok.inj read)
  have := splitSign_shorter chars
  have : afterWhole.length < (splitSign chars).2.length := readWholePart_shorter wholeRead
  have := readFraction_shorter fractionRead
  have := readExponent_shorter exponentRead
  omega

end SchemaScribe.Source
