import SchemaScribe.Source.Token
import SchemaScribe.Source.Progress
import SchemaScribe.Text.Escape
import SchemaScribe.Text.Lines

/-!
Readers of quoted strings. A plain string stands on one line and spells special characters by escapes; a block
string runs over lines, and its only escape is a backslash before three quotes.
-/

namespace SchemaScribe.Source

open Text

/-- Reads behind a backslash and a `u`. -/
def readFixedEscape (chars : List Char) : Except LexicalError (Char × List Char) :=
  match readCodePoint? chars with
  | some result => .ok result
  | none => .error (.badUnicodeEscape (String.ofList ('\\' :: 'u' :: chars.take 4)))

/-- Reads behind a backslash, a `u` and an opening brace: at most eight digits and the closing brace. -/
def readBracedEscape (chars : List Char) : Except LexicalError (Char × List Char) :=
  let digits := (chars.take 9).takeWhile isHexDigit
  let code := hexNumber digits
  let refused : LexicalError :=
    .badUnicodeEscape (String.ofList ('\\' :: 'u' :: '\x7b' :: (chars.take 9).take (digits.length + 1)))
  match chars.drop digits.length with
  | [] => .error refused
  | c :: rest =>
    if c = '\x7d' ∧ digits ≠ [] ∧ digits.length ≤ 8 ∧ code.isValidChar then .ok (Char.ofNat code, rest)
    else .error refused

/-- Reads behind a backslash. -/
def readEscape : List Char → Except LexicalError (Char × List Char)
  | [] => .error (.badEscape "\\")
  | 'u' :: '\x7b' :: rest => readBracedEscape rest
  | 'u' :: rest => readFixedEscape rest
  | c :: rest =>
    match escapedCharacter? c with
    | some value => .ok (value, rest)
    | none => .error (.badEscape (String.ofList ['\\', c]))

theorem readFixedEscape_shorter {chars value rest} (read : readFixedEscape chars = .ok (value, rest)) :
    rest.length ≤ chars.length := by
  unfold readFixedEscape at read
  split at read
  · next found =>
    rw [Except.ok.inj read] at found
    exact readCodePoint?_shorter found
  · cases read

theorem readBracedEscape_shorter {chars value rest} (read : readBracedEscape chars = .ok (value, rest)) :
    rest.length ≤ chars.length := by
  simp only [readBracedEscape] at read
  split at read
  · cases read
  · next closing =>
    have cut := congrArg List.length closing
    simp only [List.length_drop, List.length_cons] at cut
    split at read
    · obtain ⟨_, rfl⟩ := Prod.mk.inj (Except.ok.inj read)
      omega
    · cases read

theorem readEscape_shorter {chars value rest} (read : readEscape chars = .ok (value, rest)) :
    rest.length < chars.length := by
  unfold readEscape at read
  split at read
  · cases read
  · have := readBracedEscape_shorter read
    simp only [List.length_cons]
    omega
  · have := readFixedEscape_shorter read
    simp only [List.length_cons]
    omega
  · split at read
    · cases read
      simp
    · cases read

/-- Reads behind the opening quote, up to and including the closing one. -/
def readString (chars : List Char) : Except LexicalError (List Char × List Char) :=
  match chars with
  | [] => .error .unterminatedString
  | '"' :: rest => .ok ([], rest)
  | '\\' :: rest =>
    match _read : readEscape rest with
    | .error error => .error error
    | .ok (value, rest) => (readString rest).map (Prod.map (value :: ·) id)
  | c :: rest =>
    if isLineEnd c then .error .unterminatedString
    else (readString rest).map (Prod.map (c :: ·) id)
termination_by chars.length
decreasing_by
  · have := readEscape_shorter _read
    simp only [List.length_cons]
    omega
  · simp

/-- Reads behind the opening quotes, up to and including the closing ones; three quotes may stand inside behind a
backslash. -/
def readBlock : List Char → Except LexicalError (List Char × List Char)
  | [] => .error .unterminatedString
  | '"' :: '"' :: '"' :: rest => .ok ([], rest)
  | '\\' :: '"' :: '"' :: '"' :: rest => (readBlock rest).map (Prod.map ('"' :: '"' :: '"' :: ·) id)
  | c :: rest => (readBlock rest).map (Prod.map (c :: ·) id)

theorem readString_shorter {chars value rest} (read : readString chars = .ok (value, rest)) :
    rest.length < chars.length := by
  fun_induction readString chars generalizing value with
  | case1 => cases read
  | case2 =>
    cases read
    simp
  | case3 => cases read
  | case4 _ _ _ escape ih =>
    obtain ⟨inner, read⟩ := map_fst_eq_ok read
    have := readEscape_shorter escape
    have := ih read
    simp only [List.length_cons]
    omega
  | case5 => cases read
  | case6 _ _ _ _ _ ih =>
    obtain ⟨inner, read⟩ := map_fst_eq_ok read
    have := ih read
    simp only [List.length_cons]
    omega

theorem readBlock_shorter {chars value rest} (read : readBlock chars = .ok (value, rest)) :
    rest.length < chars.length := by
  fun_induction readBlock chars generalizing value with
  | case1 => cases read
  | case2 =>
    cases read
    simp only [List.length_cons]
    omega
  | case3 _ ih =>
    obtain ⟨inner, read⟩ := map_fst_eq_ok read
    have := ih read
    simp only [List.length_cons]
    omega
  | case4 _ _ _ _ ih =>
    obtain ⟨inner, read⟩ := map_fst_eq_ok read
    have := ih read
    simp only [List.length_cons]
    omega

end SchemaScribe.Source
