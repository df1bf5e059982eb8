import Mathlib.Algebra.Group.Nat.Even
import Mathlib.Data.List.Induction
import SchemaScribe.Proofs.Literals
import SchemaScribe.Proofs.Spelling

/-! String literals read back. A reader that knows the escapes takes a written literal for the text it was written for
and stops right behind it, whatever follows. A text that spells an escape itself does not become one, since each of its
backslashes is doubled. -/

namespace SchemaScribe
open Place
open Text (readCodePoint? isHexDigit hexNumber)

/-- What a single character behind a backslash stands for. -/
def letterEscape? : Char → Option Char
  | '\\' => some '\\'
  | '"' => some '"'
  | 'n' => some '\n'
  | 'r' => some '\r'
  | 't' => some '\t'
  | _ => none

/-- The character that is spelled behind a backslash. -/
def readLiteralEscape? : List Char → Option (Char × List Char)
  | [] => none
  | 'u' :: digits => readCodePoint? digits
  | c :: rest => (letterEscape? c).map (·, rest)

theorem readLiteralEscape?_shorter {chars rest : List Char} {c : Char}
    (read : readLiteralEscape? chars = some (c, rest)) : rest.length < chars.length := by
  unfold readLiteralEscape? at read
  split at read
  · cases read
  · have := Text.readCodePoint?_shorter read
    simp only [List.length_cons]
    omega
  · obtain ⟨_, -, same⟩ := Option.map_eq_some_iff.mp read
    cases same
    simp

/-- What an open literal says up to the first quote that is not escaped, and what stands behind it. -/
def readOpenLiteral (chars : List Char) : Option (List Char × List Char) :=
  match chars with
  | [] => none
  | '"' :: rest => some ([], rest)
  | '\\' :: escape =>
    match read : readLiteralEscape? escape with
    | none => none
    | some (c, rest) =>
      have := readLiteralEscape?_shorter read
      (readOpenLiteral rest).map (Prod.map (c :: ·) id)
  | c :: rest => (readOpenLiteral rest).map (Prod.map (c :: ·) id)
termination_by chars.length

/-- The text of the literal at the front, and what stands behind it. -/
def readLiteral (text : String) : Option (String × String) :=
  match text.toList with
  | '"' :: chars => (readOpenLiteral chars).map (Prod.map String.ofList String.ofList)
  | _ => none

section Reading

theorem readOpenLiteral_escape {escape rest : List Char} {c : Char}
    (read : readLiteralEscape? escape = some (c, rest)) :
    readOpenLiteral ('\\' :: escape) = (readOpenLiteral rest).map (Prod.map (c :: ·) id) := by
  rw [readOpenLiteral]
  split
  next failed =>
    rw [read] at failed
    cases failed
  next other behind found =>
    rw [read] at found
    cases found
    rfl

theorem readLiteralEscape?_control {c : Char} (control : c.toNat < 0x20) (rest : List Char) :
    readLiteralEscape?
        ('u' :: '0' :: '0' :: Nat.digitChar (c.toNat / 16) :: Nat.digitChar (c.toNat % 16) :: rest) =
      some (c, rest) := by
  have digits : ∀ code < 0x20, let written := ['0', '0', Nat.digitChar (code / 16), Nat.digitChar (code % 16)]
      written.all isHexDigit ∧ hexNumber written = code := by decide
  obtain ⟨hex, same⟩ := digits c.toNat control
  have read := Source.readCodePoint?_digits rfl hex (by omega) rest
  rwa [same, Char.ofNat_toNat] at read

/-- A character stands for itself, or is spelled by an escape that is read as that character. -/
theorem literalCharacter_cases (c : Char) :
    literalCharacter c = [c] ∧ c ≠ '"' ∧ c ≠ '\\' ∨
      ∃ escape, literalCharacter c = '\\' :: escape ∧ ∀ rest, readLiteralEscape? (escape ++ rest) = some (c, rest) := by
  have spelled {known : Char} {escape : List Char} (same : c = known)
      (read : ∀ rest, readLiteralEscape? (escape ++ rest) = some (known, rest)) :
      ∃ others, '\\' :: escape = '\\' :: others ∧ ∀ rest, readLiteralEscape? (others ++ rest) = some (c, rest) :=
    ⟨escape, rfl, same ▸ read⟩
  rw [literalCharacter]
  split
  next same => exact Or.inr (spelled same fun _ => rfl)
  next backslash =>
    split
    next same => exact Or.inr (spelled same fun _ => rfl)
    next quote =>
      split
      next same => exact Or.inr (spelled same fun _ => rfl)
      split
      next same => exact Or.inr (spelled same fun _ => rfl)
      split
      next same => exact Or.inr (spelled same fun _ => rfl)
      split
      next control => exact Or.inr (spelled rfl (readLiteralEscape?_control control))
      next => exact Or.inl ⟨rfl, quote, backslash⟩

theorem readOpenLiteral_literalCharacter (c : Char) (rest : List Char) :
    readOpenLiteral (literalCharacter c ++ rest) = (readOpenLiteral rest).map (Prod.map (c :: ·) id) := by
  rcases literalCharacter_cases c with ⟨written, quote, backslash⟩ | ⟨escape, written, read⟩
  · rw [written, List.singleton_append, readOpenLiteral]
    · exact quote
    · exact backslash
  · rw [written, List.cons_append, readOpenLiteral_escape (read rest)]

theorem readOpenLiteral_literalCharacters (text rest : List Char) :
    readOpenLiteral (text.flatMap literalCharacter ++ '"' :: rest) = some (text, rest) := by
  induction text with
  | nil => rw [List.flatMap_nil, List.nil_append, readOpenLiteral]
  | cons c others ih =>
    rw [List.flatMap_cons, List.append_assoc, readOpenLiteral_literalCharacter, ih]
    rfl

theorem readLiteral_stringLiteral (text following : String) :
    readLiteral (stringLiteral text ++ following) = some (text, following) := by
  have whole : (stringLiteral text ++ following).toList =
      '"' :: (text.toList.flatMap literalCharacter ++ '"' :: following.toList) := by
    rw [String.toList_append, toList_stringLiteral]
    simp
  rw [readLiteral, whole]
  simp only [readOpenLiteral_literalCharacters, Option.map_some, Prod.map_apply, String.ofList_toList]

/-- A literal says itself what its text is and where it ends. -/
theorem stringLiteral_append_inj {text other : String} {rest others : List Char}
    (same : (stringLiteral text).toList ++ rest = (stringLiteral other).toList ++ others) :
    text = other ∧ rest = others := by
  have read (text : String) (rest : List Char) :
      readLiteral (String.ofList ((stringLiteral text).toList ++ rest)) = some (text, String.ofList rest) := by
    rw [String.ofList_append, String.ofList_toList, readLiteral_stringLiteral]
  have both := read text rest
  rw [same, read other others] at both
  obtain ⟨sameText, sameRest⟩ := Prod.mk.inj (Option.some.inj both.symm)
  exact ⟨sameText, String.ofList_inj.mp sameRest⟩

end Reading

section Escapes

/-- How many backslashes stand at the end. -/
def trailingBackslashes (chars : List Char) : Nat :=
  (chars.reverse.takeWhile (· = '\\')).length

theorem trailingBackslashes_concat (chars : List Char) (c : Char) :
    trailingBackslashes (chars ++ [c]) = if c = '\\' then trailingBackslashes chars + 1 else 0 := by
  rw [trailingBackslashes, List.reverse_concat, List.takeWhile_cons]
  split
  next same => simp [of_decide_eq_true same, trailingBackslashes]
  next other => rw [if_neg (fun same => other (decide_eq_true same)), List.length_nil]

/-- Inside of a literal, backslashes pair up, and the reader stands behind an open one if one is left over. -/
theorem even_trailingBackslashes (chars : List Char) :
    (outside.after chars = inside → Even (trailingBackslashes chars)) ∧
      (outside.after chars = escaped → ¬Even (trailingBackslashes chars)) := by
  induction chars using List.reverseRecOn with
  | nil => exact ⟨nofun, nofun⟩
  | append_singleton chars c ih =>
    obtain ⟨even, odd⟩ := ih
    have moved : outside.after (chars ++ [c]) = (outside.after chars).step c := after_append ..
    rw [moved, trailingBackslashes_concat]
    by_cases backslash : c = '\\'
    · subst backslash
      rw [if_pos rfl, Nat.even_add_one]
      cases place : outside.after chars with
      | outside => exact ⟨nofun, nofun⟩
      | inside => exact ⟨nofun, fun _ => not_not.mpr (even place)⟩
      | escaped => exact ⟨fun _ => odd place, nofun⟩
    · rw [if_neg backslash]
      refine ⟨fun _ => Even.zero, fun behind => ?_⟩
      cases place : outside.after chars with
      | outside =>
        rw [place, step] at behind
        split at behind <;> cases behind
      | inside =>
        rw [place, step, if_neg backslash] at behind
        split at behind <;> cases behind
      | escaped =>
        rw [place] at behind
        cases behind

/-- Behind its first character, only the spelling of a backslash holds one. -/
theorem eq_backslash_of_mem_tail {c : Char} (later : '\\' ∈ (literalCharacter c).tail) : c = '\\' := by
  by_cases control : c.toNat < 0x20
  · refine forall_char_below (fun c => '\\' ∈ (literalCharacter c).tail → c = '\\') ?_ control later
    decide
  · unfold literalCharacter at later
    simp only [if_neg control] at later
    split at later
    next same => exact same
    · repeat' split at later
      all_goals simp at later

/-- Of a backslash that is spelled by two, the second is escaped by the first. -/
theorem eq_nil_of_unescaped {c : Char} {front back : List Char} (spelled : literalCharacter c = front ++ '\\' :: back)
    (unescaped : inside.after front = inside) : front = [] := by
  cases front with
  | nil => rfl
  | cons first inner =>
    have backslash : c = '\\' := eq_backslash_of_mem_tail (by simp [spelled])
    subst backslash
    have pair : ['\\', '\\'] = first :: (inner ++ '\\' :: back) := spelled
    cases inner with
    | nil =>
      obtain ⟨rfl, -⟩ := List.cons.inj pair
      cases unescaped
    | cons => simp at pair

/-- A backslash that no other escapes begins the spelling of a character. -/
theorem exists_of_unescaped {text front back : List Char}
    (split : text.flatMap literalCharacter ++ ['"'] = front ++ '\\' :: back) (unescaped : inside.after front = inside) :
    ∃ before c after, text = before ++ c :: after ∧ front = before.flatMap literalCharacter ∧
      '\\' :: back = literalCharacter c ++ (after.flatMap literalCharacter ++ ['"']) := by
  induction text generalizing front with
  | nil => cases front <;> simp at split
  | cons c rest ih =>
    rw [List.flatMap_cons, List.append_assoc] at split
    -- The backslash is in the spelling of the first character or behind all of it.
    rcases append_eq_append_cons split with ⟨others, spelled⟩ | ⟨middle, rfl, behind⟩
    · have start := eq_nil_of_unescaped spelled unescaped
      subst start
      exact ⟨[], c, rest, rfl, rfl, split.symm⟩
    · rw [after_append, (read_literalCharacter c).1] at unescaped
      obtain ⟨before, other, after, rfl, rfl, remains⟩ := ih behind unescaped
      exact ⟨c :: before, other, after, rfl, rfl, remains⟩

theorem isControl_of_coded {c : Char} {rest back : List Char}
    (coded : '\\' :: 'u' :: back = literalCharacter c ++ rest) :
    isControl c := by
  apply decide_eq_true
  by_contra printable
  unfold literalCharacter at coded
  rw [if_neg printable] at coded
  grind

section Places

variable {text : String} {front back : List Char}

/-- Before the last quote of a literal the reader stands inside of it. -/
theorem outside_ne_of_split (split : (stringLiteral text).toList = front ++ '\\' :: back) :
    outside.after front ≠ outside := by
  intro closed
  have shown := (read_stringLiteral text).2.1
  rw [split, blankFrom_append, closed] at shown
  have stays : '\\' ∈ ['"', '"'] := shown ▸ List.mem_append_right _ (List.mem_cons_self ..)
  revert stays
  decide

theorem unescaped_iff_even (split : (stringLiteral text).toList = front ++ '\\' :: back) :
    outside.after front = inside ↔ Even (trailingBackslashes front) := by
  obtain ⟨even, odd⟩ := even_trailingBackslashes front
  refine ⟨even, fun isEven => ?_⟩
  cases place : outside.after front with
  | outside => exact absurd place (outside_ne_of_split split)
  | inside => rfl
  | escaped => exact absurd isEven (odd place)

theorem unescaped_iff_written (split : (stringLiteral text).toList = front ++ '\\' :: 'u' :: back) :
    outside.after front = inside ↔ ∃ before c after, text.toList = before ++ c :: after ∧ isControl c ∧
      front = '"' :: before.flatMap literalCharacter := by
  have opens : outside.step '"' = inside := rfl
  rw [toList_stringLiteral] at split
  cases front with
  | nil => cases (List.cons.inj split).1
  | cons first inner =>
    obtain ⟨rfl, behind⟩ := List.cons.inj split
    rw [after, List.foldl_cons, opens, ← after]
    constructor
    · intro unescaped
      obtain ⟨before, c, after, same, rfl, coded⟩ := exists_of_unescaped behind unescaped
      exact ⟨before, c, after, same, isControl_of_coded coded, rfl⟩
    · rintro ⟨before, c, after, -, -, same⟩
      rw [(List.cons.inj same).2]
      exact (read_literalCharacters before).1

end Places

end Escapes

/-- A literal is read as its text and ends where it says, whatever follows it. No control character stands in it. Where
it has a backslash and a `u`, an even number of backslashes before them tells that this is an escape, and then it is one
that was written for a control character of the text. -/
theorem stringLiteral_exact (text following : String) :
    readLiteral (stringLiteral text ++ following) = some (text, following) ∧
      (∀ c ∈ (stringLiteral text).toList, 0x20 ≤ c.toNat) ∧
      ∀ front back, (stringLiteral text).toList = front ++ '\\' :: 'u' :: back →
        (outside.after front = inside ↔ Even (trailingBackslashes front)) ∧
        (outside.after front = inside ↔ ∃ before c after, text.toList = before ++ c :: after ∧ isControl c ∧
          front = '"' :: before.flatMap literalCharacter) := by
  refine ⟨readLiteral_stringLiteral text following, fun c member => ?_, fun front back split => ?_⟩
  · have printable := List.filter_eq_nil_iff.mp (read_stringLiteral text).2.2 c member
    exact Nat.not_lt.mp fun control => printable (decide_eq_true control)
  · exact ⟨unescaped_iff_even split, unescaped_iff_written split⟩

/-- The first backslash and `u` come from the text, which spells a quote there; the second are an escape. -/
theorem stringLiteral_exact_spelledQuote :
    readLiteral (stringLiteral "\\u0022\x01" ++ "\")") = some ("\\u0022\x01", "\")") ∧
      (stringLiteral "\\u0022\x01").toList = "\"\\".toList ++ '\\' :: 'u' :: "0022\\u0001\"".toList ∧
      outside.after "\"\\".toList ≠ inside ∧
      (stringLiteral "\\u0022\x01").toList = "\"\\\\u0022".toList ++ '\\' :: 'u' :: "0001\"".toList ∧
      Even (trailingBackslashes "\"\\\\u0022".toList) := by
  obtain ⟨read, -, escapes⟩ := stringLiteral_exact "\\u0022\x01" "\")"
  refine ⟨read, by decide +kernel, ?_, by decide +kernel, ?_⟩
  · intro unescaped
    have even := (escapes _ "0022\\u0001\"".toList (by decide +kernel)).1.mp unescaped
    exact absurd even (by decide +kernel)
  · exact (escapes _ "0001\"".toList (by decide +kernel)).1.mp (by decide +kernel)

end SchemaScribe
