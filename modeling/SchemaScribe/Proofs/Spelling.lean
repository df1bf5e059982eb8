import SchemaScribe.Proofs.Names
import SchemaScribe.Source.Scan
import SchemaScribe.Source.Value

/-! Tokens in writing. Names, strings and marks that are written one after the other, with blanks where the eye expects
them, are read back as the same tokens; for strings this is because every escape stands for one character. -/

namespace SchemaScribe.Source
open Text

def Token.text : Token → String
  | .punctuator mark => mark.text
  | .name text => text
  | .int digits => digits
  | .float digits => digits
  | .string value => Value.quoted value
  | .blockString value => Value.blockQuoted value

/-- Marks that stand close to what is in front of them. -/
def Punctuator.isClose : Punctuator → Bool
  | .parenOpen | .parenClose | .bracketClose | .colon | .bang => true
  | _ => false

/-- Whether the second token is written right behind the first. -/
def Token.joins : Token → Token → Bool
  | .punctuator .parenOpen, _ => true
  | .punctuator .bracketOpen, _ => true
  | _, .punctuator mark => mark.isClose
  | _, _ => false

/-- The tokens on one line. -/
def spell : List Token → String
  | [] => ""
  | [token] => token.text
  | token :: next :: rest => token.text ++ (if token.joins next then "" else " ") ++ spell (next :: rest)

/-- The tokens, without a fault behind them. -/
def Tokens.ofList (tokens : List Token) : Tokens :=
  tokens.foldr .next .done

/-- The tokens that make up definitions without directives and default values. -/
def Token.Plain : Token → Prop
  | .punctuator mark => mark ≠ .spread
  | .name text => IsName text
  | .string _ => True
  | .int _ | .float _ | .blockString _ => False

section Strings

/-- Four digits spell the character of their number, unless it is one half of a pair. -/
theorem readCodePoint?_digits {digits : List Char} (four : digits.length = 4) (hex : digits.all isHexDigit)
    (single : hexNumber digits < 0xD800) (chars : List Char) :
    readCodePoint? (digits ++ chars) = some (Char.ofNat (hexNumber digits), chars) := by
  have unit : readCodeUnit? (digits ++ chars) = some (hexNumber digits, chars) := by
    rw [readCodeUnit?, List.take_left' four, List.drop_left' four]
    exact if_pos ⟨four, hex⟩
  have leading : isLeadingSurrogate (hexNumber digits) = false := by simp [isLeadingSurrogate]; omega
  have trailing : isTrailingSurrogate (hexNumber digits) = false := by simp [isTrailingSurrogate]; omega
  simp only [readCodePoint?, unit, leading, trailing, Bool.false_eq_true, if_false]

theorem readCodePoint?_upperHexDigits {code : Nat} (small : code < 0xA0) (chars : List Char) :
    readCodePoint? ('0' :: '0' :: Value.upperHexDigit (code / 16) :: Value.upperHexDigit (code % 16) :: chars) =
      some (Char.ofNat code, chars) := by
  have digits : ∀ code < 0xA0,
      let written := ['0', '0', Value.upperHexDigit (code / 16), Value.upperHexDigit (code % 16)]
      written.all isHexDigit ∧ hexNumber written = code := by decide +kernel
  obtain ⟨hex, same⟩ := digits code small
  have read := readCodePoint?_digits rfl hex (by omega) chars
  rwa [same] at read

theorem readString_escape {chars after : List Char} {value : Char} (escape : readEscape chars = .ok (value, after)) :
    readString ('\\' :: chars) = (readString after).map (Prod.map (value :: ·) id) := by
  rw [readString]
  split
  next error failed =>
    rw [escape] at failed
    cases failed
  next other rest read =>
    rw [escape] at read
    cases read
    rfl

theorem readString_plain {c : Char} (quote : c ≠ '"') (backslash : c ≠ '\\') (inLine : ¬isLineEnd c)
    (chars : List Char) : readString (c :: chars) = (readString chars).map (Prod.map (c :: ·) id) := by
  rw [readString]
  · exact if_neg inLine
  · exact quote
  · exact backslash

/-- Whatever a character is written as, it is read as that character. -/
theorem readString_escapeCharacter (c : Char) (chars : List Char) :
    readString (Value.escapeCharacter c ++ chars) = (readString chars).map (Prod.map (c :: ·) id) := by
  rw [Value.escapeCharacter]
  split
  next marked =>
    apply readString_escape
    rcases marked with rfl | rfl <;> rfl
  next unmarked =>
    obtain ⟨backslash, quote⟩ := not_or.mp unmarked
    split
    next same => exact same ▸ readString_escape rfl
    split
    next same => exact same ▸ readString_escape rfl
    split
    next same => exact same ▸ readString_escape rfl
    split
    next same => exact same ▸ readString_escape rfl
    split
    next same => exact same ▸ readString_escape rfl
    split
    next control =>
      have small : c.toNat < 0xA0 := by omega
      apply readString_escape
      have spelled := readCodePoint?_upperHexDigits small chars
      rw [Char.ofNat_toNat] at spelled
      simp [readEscape, readFixedEscape, spelled]
    next lineFeed _ carriageReturn _ =>
      apply readString_plain quote backslash
      simp [isLineEnd, lineFeed, carriageReturn]

theorem readString_quoted (text chars : List Char) :
    readString (text.flatMap Value.escapeCharacter ++ '"' :: chars) = .ok (text, chars) := by
  induction text with
  | nil => rw [List.flatMap_nil, List.nil_append, readString]
  | cons c rest ih =>
    rw [List.flatMap_cons, List.append_assoc, readString_escapeCharacter, ih]
    rfl

theorem escapeCharacter_eq_cons (c : Char) : ∃ first rest, Value.escapeCharacter c = first :: rest ∧ first ≠ '"' := by
  rw [Value.escapeCharacter]
  split
  next => exact ⟨_, _, rfl, by decide⟩
  next unmarked =>
    repeat' split
    all_goals first | exact ⟨_, _, rfl, by decide⟩ | exact ⟨c, [], rfl, fun same => unmarked (Or.inr same)⟩

end Strings

section Scanning

/-- Neither a name nor an empty string goes on here. -/
def Ends (chars : List Char) : Prop :=
  ∀ c, chars.head? = some c → ¬isNameContinue c ∧ c ≠ '"'

theorem ends_nil : Ends [] := by
  intro first same
  cases same

theorem ends_cons {c : Char} (apart : ¬isNameContinue c) (quote : c ≠ '"') (chars : List Char) : Ends (c :: chars) := by
  intro first same
  cases same
  exact ⟨apart, quote⟩

theorem scan_of_readToken {c : Char} {chars after : List Char} {token : Token} (shown : ¬isIgnored c) (code : c ≠ '#')
    (read : readToken c chars = .ok (token, after)) : scan (c :: chars) = .next token (scan after) := by
  rw [scan, if_neg shown, if_neg code]
  split
  next error failed =>
    rw [read] at failed
    cases failed
  next other rest found =>
    rw [read] at found
    cases found
    rfl

theorem scan_nil : scan [] = .done := by
  rw [scan]

theorem scan_ignored {c : Char} (ignored : isIgnored c) (chars : List Char) : scan (c :: chars) = scan chars := by
  rw [scan, if_pos ignored]

theorem isNameStart_cases {c : Char} (starts : isNameStart c) :
    punctuatorOf? c = none ∧ ¬isIgnored c ∧ c ≠ '#' ∧ ¬isBlank c := by
  have continues : isNameContinue c := by rw [isNameContinue, starts, Bool.true_or]
  refine forall_char_below (fun c => isNameStart c → punctuatorOf? c = none ∧ ¬isIgnored c ∧ c ≠ '#' ∧ ¬isBlank c) ?_
    (isNameContinue_toNat_lt continues) starts
  decide

theorem Punctuator.text_eq (mark : Punctuator) (single : mark ≠ .spread) :
    ∃ c, mark.text.toList = [c] ∧ punctuatorOf? c = some mark ∧ ¬isIgnored c ∧ c ≠ '#' := by
  cases mark with
  | spread => exact absurd rfl single
  | _ => exact ⟨_, rfl, rfl, by decide, by decide⟩

theorem readToken_punctuator {c : Char} {mark : Punctuator} (known : punctuatorOf? c = some mark) (chars : List Char) :
    readToken c chars = .ok (.punctuator mark, chars) := by
  unfold readToken
  simp only [known]

theorem readToken_name {c : Char} (starts : isNameStart c) (chars : List Char) :
    readToken c chars =
      .ok (.name (String.ofList (c :: chars.takeWhile isNameContinue)), chars.dropWhile isNameContinue) := by
  unfold readToken
  simp only [(isNameStart_cases starts).1, if_pos starts]

theorem readToken_string {chars : List Char} (single : ∀ rest, chars ≠ '"' :: '"' :: rest) :
    readToken '"' chars = (readString chars).map (Prod.map (.string ∘ String.ofList) id) := by
  rw [readToken]
  · rfl
  · exact single

theorem scan_punctuator {mark : Punctuator} (single : mark ≠ .spread) (chars : List Char) :
    scan (mark.text.toList ++ chars) = .next (.punctuator mark) (scan chars) := by
  obtain ⟨c, text, known, shown, code⟩ := mark.text_eq single
  rw [text, List.singleton_append]
  exact scan_of_readToken shown code (readToken_punctuator known chars)

theorem takeWhile_ends {chars : List Char} (ends : Ends chars) : chars.takeWhile isNameContinue = [] := by
  cases chars with
  | nil => rfl
  | cons c rest => exact List.takeWhile_cons_of_neg (ends c rfl).1

theorem dropWhile_ends {chars : List Char} (ends : Ends chars) : chars.dropWhile isNameContinue = chars := by
  cases chars with
  | nil => rfl
  | cons c rest => exact List.dropWhile_cons_of_neg (ends c rfl).1

theorem exists_cons_of_isName {text : String} (named : IsName text) :
    ∃ c letters, text.toList = c :: letters ∧ isNameStart c ∧ ∀ letter ∈ letters, isNameContinue letter := by
  unfold IsName at named
  cases spelled : text.toList with
  | nil =>
    rw [spelled] at named
    cases named
  | cons c letters =>
    rw [spelled] at named
    obtain ⟨starts, continues⟩ := Bool.and_eq_true_iff.mp named
    exact ⟨c, letters, rfl, starts, List.all_eq_true.mp continues⟩

theorem scan_name {text : String} (named : IsName text) {chars : List Char} (ends : Ends chars) :
    scan (text.toList ++ chars) = .next (.name text) (scan chars) := by
  obtain ⟨c, letters, spelled, starts, all⟩ := exists_cons_of_isName named
  obtain ⟨-, shown, code, -⟩ := isNameStart_cases starts
  rw [spelled]
  apply scan_of_readToken shown code
  change readToken c (letters ++ chars) = _
  rw [readToken_name starts, List.takeWhile_append_of_pos all, List.dropWhile_append_of_pos all,
    takeWhile_ends ends, dropWhile_ends ends, List.append_nil, ← spelled, String.ofList_toList]

theorem toList_quoted (value : String) :
    (Value.quoted value).toList = '"' :: (value.toList.flatMap Value.escapeCharacter ++ ['"']) := by
  simp [Value.quoted]

theorem scan_string (value : String) {chars : List Char} (ends : Ends chars) :
    scan ((Value.quoted value).toList ++ chars) = .next (.string value) (scan chars) := by
  have single : ∀ rest, value.toList.flatMap Value.escapeCharacter ++ '"' :: chars ≠ '"' :: '"' :: rest := by
    intro rest same
    cases spelled : value.toList with
    | nil =>
      rw [spelled] at same
      cases chars with
      | nil => cases same
      | cons c others =>
        cases same
        exact (ends '"' rfl).2 rfl
    | cons c others =>
      obtain ⟨first, more, escaped, apart⟩ := escapeCharacter_eq_cons c
      rw [spelled, List.flatMap_cons, escaped] at same
      exact apart (List.cons.inj same).1
  rw [toList_quoted, List.cons_append, List.append_assoc, List.singleton_append]
  apply scan_of_readToken (by decide) (by decide)
  rw [readToken_string single, readString_quoted value.toList chars]
  exact congrArg (fun text => Except.ok (Token.string text, chars)) value.ofList_toList

/-- A mark can be followed by anything; all other tokens have to end. -/
theorem scan_text {token : Token} (plain : token.Plain) {chars : List Char}
    (ends : (∃ mark, token = .punctuator mark) ∨ Ends chars) :
    scan (token.text.toList ++ chars) = .next token (scan chars) := by
  cases token with
  | punctuator mark => exact scan_punctuator plain chars
  | name text => exact scan_name plain (ends.resolve_left nofun)
  | string value => exact scan_string value (ends.resolve_left nofun)
  | int digits => cases plain
  | float digits => cases plain
  | blockString value => cases plain

theorem toList_spell_cons (token : Token) (rest : List Token) :
    ∃ chars, (spell (token :: rest)).toList = token.text.toList ++ chars := by
  cases rest with
  | nil => exact ⟨[], (List.append_nil _).symm⟩
  | cons next rest =>
    rw [spell, String.toList_append, String.toList_append, List.append_assoc]
    exact ⟨_, rfl⟩

theorem ends_of_joins {token next : Token} (joined : token.joins next) (rest : List Token) :
    (∃ mark, token = .punctuator mark) ∨ Ends (spell (next :: rest)).toList := by
  obtain ⟨chars, spelled⟩ := toList_spell_cons next rest
  have marked (mark : Punctuator) : Ends (mark.text.toList ++ chars) := by
    cases mark <;> exact ends_cons (by decide) (by decide) _
  cases token with
  | punctuator mark => exact Or.inl ⟨mark, rfl⟩
  | _ =>
    cases next with
    | punctuator mark =>
      rw [spelled]
      exact Or.inr (marked mark)
    | _ => cases joined

/-- What is written can be read back token by token. -/
theorem scan_spell {tokens : List Token} (plain : ∀ token ∈ tokens, token.Plain) :
    scan (spell tokens).toList = Tokens.ofList tokens := by
  induction tokens with
  | nil => exact scan.eq_1
  | cons token rest ih =>
    obtain ⟨head, tail⟩ := List.forall_mem_cons.mp plain
    cases rest with
    | nil =>
      have read := scan_text head (Or.inr ends_nil)
      rw [List.append_nil] at read
      rw [spell, read, scan_nil]
      rfl
    | cons next rest =>
      rw [spell, String.toList_append, String.toList_append, List.append_assoc]
      split
      next joined =>
        rw [show "".toList = [] from rfl, List.nil_append, scan_text head (ends_of_joins joined rest), ih tail]
        rfl
      next =>
        have blank : Ends (' ' :: (spell (next :: rest)).toList) := ends_cons (by decide) (by decide) _
        rw [show " ".toList = [' '] from rfl, List.singleton_append, scan_text head (Or.inr blank), scan_ignored rfl,
          ih tail]
        rfl

theorem isBlankText_spell {token : Token} (plain : token.Plain) (rest : List Token) :
    ¬isBlankText (spell (token :: rest)) := by
  obtain ⟨chars, spelled⟩ := toList_spell_cons token rest
  have first : ∃ c others, token.text.toList = c :: others ∧ ¬isBlank c := by
    cases token with
    | punctuator mark => cases mark <;> exact ⟨_, _, rfl, by decide⟩
    | name text =>
      obtain ⟨c, letters, spelled, starts, -⟩ := exists_cons_of_isName plain
      exact ⟨c, letters, spelled, (isNameStart_cases starts).2.2.2⟩
    | string value => exact ⟨'"', _, toList_quoted value, by decide⟩
    | int digits => cases plain
    | float digits => cases plain
    | blockString value => cases plain
  obtain ⟨c, others, text, shown⟩ := first
  rw [isBlankText, spelled, text]
  intro blank
  exact shown (List.all_eq_true.mp blank c (List.mem_cons_self ..))

end Scanning

end SchemaScribe.Source
