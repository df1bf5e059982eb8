import SchemaScribe.Proofs.Spelling

/-! The words that tokens are read off. A reader looks at what stands behind a word only to find out that the word does
not go on, so what it leaves behind can be cut off and the same is read. -/

namespace SchemaScribe.Source
open Text

/-- Of the text that is left behind, a part at the end has no influence on what is read. -/
def Cuts (read : List Char → Except LexicalError (α × List Char)) : Prop :=
  ∀ ⦃chars value more tail⦄, read chars = .ok (value, more ++ tail) →
    ∃ front, chars = front ++ tail ∧ read front = .ok (value, more)

theorem Cuts.map {read : List Char → Except LexicalError (α × List Char)} (cuts : Cuts read) (f : α → β) :
    Cuts fun chars => (read chars).map (Prod.map f id) := by
  intro chars value more tail done
  obtain ⟨⟨inner, rest⟩, found, same⟩ := map_eq_ok done
  cases same
  obtain ⟨front, rfl, again⟩ := cuts found
  exact ⟨front, rfl, congrArg (Except.map _) again⟩

theorem Cuts.bind {read : List Char → Except LexicalError (α × List Char)}
    {next : α → List Char → Except LexicalError (β × List Char)} (cuts : Cuts read)
    (others : ∀ value, Cuts (next value)) :
    Cuts fun chars => read chars >>= fun result => next result.1 result.2 := by
  intro chars value more tail done
  obtain ⟨⟨first, rest⟩, found, done⟩ := bind_eq_ok done
  obtain ⟨middle, rfl, last⟩ := others first done
  obtain ⟨front, rfl, again⟩ := cuts found
  exact ⟨front, rfl, (congrArg (· >>= _) again).trans last⟩

section Numbers

/-- Where the run of characters ends is seen at the character behind it, if there is one. -/
theorem takeWhile_cut {p : Char → Bool} {chars more tail : List Char} (left : chars.dropWhile p = more ++ tail) :
    chars = chars.takeWhile p ++ more ++ tail ∧ (chars.takeWhile p ++ more).takeWhile p = chars.takeWhile p ∧
      (chars.takeWhile p ++ more).dropWhile p = more := by
  have taken : ∀ c ∈ chars.takeWhile p, p c := List.all_eq_true.mp List.all_takeWhile
  have ends : more.takeWhile p = [] ∧ more.dropWhile p = more := by
    cases more with
    | nil => exact ⟨rfl, rfl⟩
    | cons c rest =>
      have stops := List.head?_dropWhile_not p chars
      rw [left] at stops
      have stops : ¬p c := Bool.eq_false_iff.mp stops
      exact ⟨List.takeWhile_cons_of_neg stops, List.dropWhile_cons_of_neg stops⟩
  refine ⟨?_, ?_, ?_⟩
  · rw [List.append_assoc, ← left, List.takeWhile_append_dropWhile]
  · rw [List.takeWhile_append_of_pos taken, ends.1, List.append_nil]
  · rw [List.dropWhile_append_of_pos taken, ends.2]

theorem readDigits_cuts : Cuts readDigits := by
  intro chars value more tail read
  cases chars with
  | nil => cases read
  | cons c rest =>
    simp only [readDigits] at read
    split at read
    next digit =>
      obtain ⟨rfl, left⟩ := Prod.mk.inj (Except.ok.inj read)
      obtain ⟨whole, taken, dropped⟩ := takeWhile_cut left
      refine ⟨_, whole, ?_⟩
      rw [List.takeWhile_cons_of_pos digit] at taken dropped ⊢
      simp only [List.cons_append] at taken dropped ⊢
      rw [readDigits, if_pos digit, taken, dropped]
    next => cases read

theorem readWholePart_cuts : Cuts readWholePart := by
  intro chars value more tail read
  unfold readWholePart at read
  split at read
  next c rest =>
    split at read
    next => cases read
    next apart =>
      obtain ⟨rfl, left⟩ := Prod.mk.inj (Except.ok.inj read)
      refine ⟨'0' :: more, congrArg ('0' :: ·) left, ?_⟩
      cases more with
      | nil => rfl
      | cons d others =>
        cases left
        exact if_neg apart
  next other =>
    obtain ⟨front, rfl, again⟩ := readDigits_cuts read
    refine ⟨front, rfl, ?_⟩
    rw [← again, readWholePart]
    rintro c rest rfl
    exact other c (rest ++ tail) rfl

theorem readFraction_cuts : Cuts readFraction := by
  intro chars value more tail read
  unfold readFraction at read
  split at read
  next rest =>
    obtain ⟨front, rfl, again⟩ := (readDigits_cuts.map ('.' :: ·)) read
    exact ⟨'.' :: front, rfl, again⟩
  next other =>
    obtain ⟨rfl, rfl⟩ := Prod.mk.inj (Except.ok.inj read)
    refine ⟨more, rfl, ?_⟩
    rw [readFraction]
    rintro rest rfl
    exact other (rest ++ tail) rfl

theorem splitSign_cuts : Cuts fun chars => .ok (splitSign chars) := by
  intro chars value more tail read
  simp only [splitSign] at read
  split at read
  next rest =>
    cases read
    exact ⟨'-' :: more, rfl, rfl⟩
  next other =>
    cases read
    refine ⟨more, rfl, congrArg Except.ok ?_⟩
    rw [splitSign]
    rintro rest rfl
    exact other (rest ++ tail) rfl

theorem splitExponentSign_cuts : Cuts fun chars => .ok (splitExponentSign chars) := by
  intro chars value more tail read
  simp only [splitExponentSign] at read
  split at read
  next rest =>
    cases read
    exact ⟨'+' :: more, rfl, rfl⟩
  next other =>
    obtain ⟨front, rfl, again⟩ := splitSign_cuts read
    refine ⟨front, rfl, Eq.trans (congrArg Except.ok ?_) again⟩
    rw [splitExponentSign]
    rintro rest rfl
    exact other (rest ++ tail) rfl

theorem readExponent_cuts : Cuts readExponent := by
  intro chars value more tail read
  cases chars with
  | nil =>
    obtain ⟨rfl, left⟩ := Prod.mk.inj (Except.ok.inj read)
    obtain ⟨rfl, rfl⟩ := List.append_eq_nil_iff.mp left.symm
    exact ⟨[], rfl, rfl⟩
  | cons c rest =>
    simp only [readExponent] at read
    split at read
    next exponent =>
      obtain ⟨front, rfl, again⟩ := (splitExponentSign_cuts.bind fun sign => readDigits_cuts.map (c :: sign ++ ·)) read
      exact ⟨c :: front, rfl, (if_pos exponent).trans again⟩
    next apart =>
      obtain ⟨rfl, left⟩ := Prod.mk.inj (Except.ok.inj read)
      refine ⟨more, left, ?_⟩
      cases more with
      | nil => rfl
      | cons d others =>
        cases left
        exact if_neg apart

theorem checkNumberEnd_cuts (value : α) : Cuts fun chars => checkNumberEnd chars >>= fun _ => .ok (value, chars) := by
  intro chars result more tail read
  obtain ⟨_, checked, done⟩ := bind_eq_ok read
  cases done
  refine ⟨more, rfl, ?_⟩
  cases more with
  | nil => rfl
  | cons c rest => exact congrArg (· >>= _) checked

theorem readNumber_cuts : Cuts readNumber := by
  have parts := splitSign_cuts.bind fun sign => readWholePart_cuts.bind fun whole =>
    readFraction_cuts.bind fun fraction => readExponent_cuts.bind fun exponent => checkNumberEnd_cuts <|
      if fraction.isEmpty && exponent.isEmpty then Token.int (String.ofList (sign ++ whole ++ fraction ++ exponent))
      else Token.float (String.ofList (sign ++ whole ++ fraction ++ exponent))
  exact parts

end Numbers

section Strings

theorem readCodeUnit?_cut {chars more tail : List Char} {code : Nat}
    (read : readCodeUnit? chars = some (code, more ++ tail)) :
    ∃ front, chars = front ++ tail ∧ readCodeUnit? front = some (code, more) := by
  simp only [readCodeUnit?, Option.ite_none_right_eq_some, Option.some.injEq, Prod.mk.injEq] at read
  obtain ⟨digits, rfl, left⟩ := read
  have taken : (chars.take 4 ++ more).take 4 = chars.take 4 := List.take_left' digits.1
  refine ⟨chars.take 4 ++ more, by rw [List.append_assoc, ← left, List.take_append_drop], ?_⟩
  simp only [readCodeUnit?, taken, List.drop_left' digits.1, if_pos digits]

theorem readTrailingSurrogate?_cut {chars more tail : List Char} {code : Nat}
    (read : readTrailingSurrogate? chars = some (code, more ++ tail)) :
    ∃ front, chars = front ++ tail ∧ readTrailingSurrogate? front = some (code, more) := by
  unfold readTrailingSurrogate? at read
  split at read
  next rest =>
    split at read
    next unit =>
      split at read
      next trailing =>
        cases read
        obtain ⟨front, rfl, again⟩ := readCodeUnit?_cut unit
        exact ⟨'\\' :: 'u' :: front, rfl, by simp only [readTrailingSurrogate?, again, if_pos trailing]⟩
      next => cases read
    next => cases read
  next => cases read

theorem readCodePoint?_cut {chars more tail : List Char} {value : Char}
    (read : readCodePoint? chars = some (value, more ++ tail)) :
    ∃ front, chars = front ++ tail ∧ readCodePoint? front = some (value, more) := by
  unfold readCodePoint? at read
  split at read
  next => cases read
  next code rest unit =>
    split at read
    next leading =>
      split at read
      next trailing =>
        obtain ⟨rfl, rfl⟩ := Prod.mk.inj (Option.some.inj read)
        obtain ⟨middle, rfl, pair⟩ := readTrailingSurrogate?_cut trailing
        obtain ⟨front, rfl, again⟩ := readCodeUnit?_cut unit
        exact ⟨front, rfl, by simp only [readCodePoint?, again, if_pos leading, pair]⟩
      next => cases read
    next apart =>
      split at read
      next => cases read
      next single =>
        obtain ⟨rfl, rfl⟩ := Prod.mk.inj (Option.some.inj read)
        obtain ⟨front, rfl, again⟩ := readCodeUnit?_cut unit
        exact ⟨front, rfl, by simp only [readCodePoint?, again, if_neg apart, if_neg single]⟩

theorem readFixedEscape_cuts : Cuts readFixedEscape := by
  intro chars value more tail read
  unfold readFixedEscape at read
  split at read
  next found =>
    rw [Except.ok.inj read] at found
    obtain ⟨front, rfl, again⟩ := readCodePoint?_cut found
    exact ⟨front, rfl, by simp only [readFixedEscape, again]⟩
  next => cases read

/-- The closing brace ends the digits, so that nothing behind it is looked at. -/
theorem readBracedEscape_cuts : Cuts readBracedEscape := by
  intro chars value more tail read
  simp only [readBracedEscape] at read
  split at read
  next => cases read
  next c rest closing =>
    split at read
    next valid =>
      obtain ⟨rfl, rfl⟩ := Prod.mk.inj (Except.ok.inj read)
      obtain ⟨rfl, given, few, code⟩ := valid
      obtain ⟨behind, whole⟩ : (chars.take 9).takeWhile isHexDigit <+: chars :=
        (List.takeWhile_prefix _).trans (List.take_prefix ..)
      have hex : ∀ c ∈ (chars.take 9).takeWhile isHexDigit, isHexDigit c := List.all_eq_true.mp List.all_takeWhile
      generalize (chars.take 9).takeWhile isHexDigit = digits at *
      subst whole
      rw [List.drop_left] at closing
      subst closing
      refine ⟨digits ++ '\x7d' :: more, by simp, ?_⟩
      have again : ((digits ++ '\x7d' :: more).take 9).takeWhile isHexDigit = digits := by
        obtain ⟨left, room⟩ : ∃ left, 9 - digits.length = left + 1 := ⟨8 - digits.length, by omega⟩
        rw [List.take_append, List.take_of_length_le (by omega), room, List.take_succ_cons,
          List.takeWhile_append_of_pos hex, List.takeWhile_cons_of_neg (by decide), List.append_nil]
      simp only [readBracedEscape, again, List.drop_left]
      exact if_pos ⟨trivial, given, few, code⟩
    next => cases read

theorem readEscape_cuts : Cuts readEscape := by
  intro chars value more tail read
  unfold readEscape at read
  split at read
  next => cases read
  next rest =>
    obtain ⟨front, rfl, again⟩ := readBracedEscape_cuts read
    exact ⟨'u' :: '\x7b' :: front, rfl, again⟩
  next rest plain =>
    obtain ⟨front, rfl, again⟩ := readFixedEscape_cuts read
    refine ⟨'u' :: front, rfl, ?_⟩
    rw [← again, readEscape]
    rintro others rfl
    exact plain (others ++ tail) rfl
  next c rest _ other =>
    split at read
    next known =>
      cases read
      refine ⟨c :: more, rfl, ?_⟩
      rw [readEscape]
      · rw [known]
      · exact fun _ same _ => other same
      · exact other
    next => cases read

theorem readString_cuts : Cuts readString := by
  intro chars value more tail read
  fun_induction readString chars generalizing value with
  | case1 => cases read
  | case2 =>
    cases read
    exact ⟨'"' :: more, rfl, by rw [readString]⟩
  | case3 => cases read
  | case4 _ _ _ escape ih =>
    obtain ⟨⟨inner, rest⟩, found, same⟩ := map_eq_ok read
    cases same
    obtain ⟨middle, rfl, again⟩ := ih found
    obtain ⟨front, rfl, escaped⟩ := readEscape_cuts escape
    exact ⟨'\\' :: front, rfl, by rw [readString_escape escaped, again]; rfl⟩
  | case5 => cases read
  | case6 c rest quote backslash inLine ih =>
    obtain ⟨⟨inner, rest⟩, found, same⟩ := map_eq_ok read
    cases same
    obtain ⟨front, rfl, again⟩ := ih found
    exact ⟨c :: front, rfl, by rw [readString_plain quote backslash inLine, again]; rfl⟩

theorem readBlock_cuts : Cuts readBlock := by
  intro chars value more tail read
  fun_induction readBlock chars generalizing value with
  | case1 => cases read
  | case2 =>
    cases read
    exact ⟨'"' :: '"' :: '"' :: more, rfl, rfl⟩
  | case3 rest ih =>
    obtain ⟨⟨inner, rest⟩, found, same⟩ := map_eq_ok read
    cases same
    obtain ⟨front, rfl, again⟩ := ih found
    exact ⟨'\\' :: '"' :: '"' :: '"' :: front, rfl, congrArg (Except.map _) again⟩
  | case4 c rest closing escaped ih =>
    obtain ⟨⟨inner, rest⟩, found, same⟩ := map_eq_ok read
    cases same
    obtain ⟨front, rfl, again⟩ := ih found
    refine ⟨c :: front, rfl, ?_⟩
    rw [readBlock, again]
    · rfl
    · exact fun rest same behind => closing (rest ++ tail) same (by rw [behind]; rfl)
    · exact fun rest same behind => escaped (rest ++ tail) same (by rw [behind]; rfl)

end Strings

section Words

theorem readDots_cuts : Cuts readDots := by
  intro chars value more tail read
  unfold readDots at read
  split at read
  next rest =>
    cases read
    exact ⟨'.' :: '.' :: more, rfl, rfl⟩
  next => cases read
  next => split at read <;> cases read

theorem readToken_quote_cuts : Cuts (readToken '"') := by
  intro chars value more tail read
  by_cases double : ∃ rest, chars = '"' :: '"' :: rest
  · obtain ⟨rest, rfl⟩ := double
    obtain ⟨front, rfl, again⟩ := (readBlock_cuts.map (Token.blockString ∘ blockText)) read
    exact ⟨'"' :: '"' :: front, rfl, again⟩
  · have single : ∀ rest, chars ≠ '"' :: '"' :: rest := fun rest same => double ⟨rest, same⟩
    rw [readToken_string single] at read
    obtain ⟨front, rfl, again⟩ := (readString_cuts.map (Token.string ∘ String.ofList)) read
    refine ⟨front, rfl, (readToken_string ?_).trans again⟩
    rintro rest rfl
    exact single (rest ++ tail) rfl

theorem readToken_cuts (c : Char) : Cuts (readToken c) := by
  intro chars value more tail read
  cases known : punctuatorOf? c with
  | some mark =>
    rw [readToken_punctuator known] at read
    obtain ⟨rfl, rfl⟩ := Prod.mk.inj (Except.ok.inj read)
    exact ⟨more, rfl, readToken_punctuator known more⟩
  | none =>
    by_cases starts : isNameStart c
    · rw [readToken_name starts] at read
      obtain ⟨rfl, left⟩ := Prod.mk.inj (Except.ok.inj read)
      obtain ⟨whole, taken, dropped⟩ := takeWhile_cut left
      refine ⟨_, whole, ?_⟩
      rw [readToken_name starts, taken, dropped]
    · by_cases quote : c = '"'
      · subst quote
        exact readToken_quote_cuts read
      · simp only [readToken, known, if_neg starts, if_neg quote] at read ⊢
        split at read
        next number =>
          obtain ⟨front, whole, again⟩ := readNumber_cuts read
          cases front with
          | nil => cases again
          | cons d rest =>
            obtain ⟨rfl, rfl⟩ := List.cons.inj whole
            exact ⟨rest, rfl, (if_pos number).trans again⟩
        next apart =>
          simp only [if_neg apart]
          split at read
          next point =>
            simp only [if_pos point]
            exact readDots_cuts read
          next => split at read <;> cases read

/-- A token is read off its word alone. -/
theorem readToken_word {c : Char} {word text : List Char} {token : Token}
    (read : readToken c (word ++ text) = .ok (token, text)) : readToken c word = .ok (token, []) := by
  obtain ⟨front, whole, again⟩ : ∃ front, word ++ text = front ++ text ∧ readToken c front = .ok (token, []) :=
    readToken_cuts c read
  rw [List.append_cancel_right whole]
  exact again

end Words

end SchemaScribe.Source
