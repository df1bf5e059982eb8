import SchemaScribe.Proofs.TokenWords
import SchemaScribe.Schema.Build

/-! Texts as words with gaps between them. Every text is laid out in this way, its words decide its tokens, and the
tokens decide what the text adds to a schema. Only a text without a token is judged by what stands in its gaps. -/

namespace SchemaScribe

namespace Source
open Text

/-- What may stand in front of a token: ignored characters, and comments up to the ends of their lines. -/
inductive Gap : List Char → Prop
  | nil : Gap []
  | ignored {c rest} (skipped : isIgnored c) (more : Gap rest) : Gap (c :: rest)
  | comment {body c rest} (inLine : ∀ c ∈ body, ¬isLineEnd c) (ends : isLineEnd c) (more : Gap rest) :
    Gap ('#' :: (body ++ c :: rest))

/-- Behind the last token, where the last comment needs no line end. -/
inductive LastGap : List Char → Prop
  | gap {chars} (gap : Gap chars) : LastGap chars
  | comment {chars body} (gap : Gap chars) (inLine : ∀ c ∈ body, ¬isLineEnd c) : LastGap (chars ++ '#' :: body)

/-- A text, its words and the tokens that are read off them. Where no token can be read, all the rest is one word. -/
inductive Layout : List Char → List (List Char) → Tokens → Prop
  | done {gap} (skipped : LastGap gap) : Layout gap [] .done
  | fault {gap c rest error} (skipped : Gap gap) (shown : ¬isIgnored c) (code : c ≠ '#')
      (read : readToken c rest = .error error) : Layout (gap ++ c :: rest) [c :: rest] (.fault error)
  | next {gap c word text token words tokens} (skipped : Gap gap) (shown : ¬isIgnored c) (code : c ≠ '#')
      (read : readToken c (word ++ text) = .ok (token, text)) (rest : Layout text words tokens) :
    Layout (gap ++ c :: (word ++ text)) ((c :: word) :: words) (.next token tokens)

theorem Gap.append {gap more : List Char} (skipped : Gap gap) (others : Gap more) : Gap (gap ++ more) := by
  induction skipped with
  | nil => exact others
  | ignored skipped _ ih => exact .ignored skipped ih
  | comment inLine ends _ ih =>
    rw [List.cons_append, List.append_assoc, List.cons_append]
    exact .comment inLine ends ih

section Scanning

theorem scan_comment {body : List Char} (inLine : ∀ c ∈ body, ¬isLineEnd c) (chars : List Char) :
    scan ('#' :: (body ++ chars)) = scan (chars.dropWhile (!isLineEnd ·)) := by
  have shown : ¬isIgnored '#' := by decide
  have body_inLine : ∀ c ∈ body, !isLineEnd c := fun c member => by simp [inLine c member]
  rw [scan, if_neg shown, if_pos rfl, List.dropWhile_append_of_pos body_inLine]

theorem isIgnored_of_isLineEnd {c : Char} (ends : isLineEnd c) : isIgnored c := by
  simp only [isLineEnd, Bool.or_eq_true, beq_iff_eq] at ends
  rcases ends with rfl | rfl <;> rfl

theorem scan_line {body : List Char} {c : Char} (inLine : ∀ c ∈ body, ¬isLineEnd c) (ends : isLineEnd c)
    (chars : List Char) : scan ('#' :: (body ++ c :: chars)) = scan chars := by
  have stops : (c :: chars).dropWhile (!isLineEnd ·) = c :: chars := List.dropWhile_cons_of_neg (by simp [ends])
  rw [scan_comment inLine, stops, scan_ignored (isIgnored_of_isLineEnd ends)]

theorem Gap.scan_append {gap : List Char} (skipped : Gap gap) (chars : List Char) :
    scan (gap ++ chars) = scan chars := by
  induction skipped with
  | nil => rfl
  | ignored skipped more ih => rw [List.cons_append, scan_ignored skipped, ih]
  | comment inLine ends more ih => rw [List.cons_append, List.append_assoc, List.cons_append, scan_line inLine ends, ih]

theorem LastGap.scan_eq {gap : List Char} (skipped : LastGap gap) : scan gap = .done := by
  cases skipped with
  | gap gap =>
    have skips := gap.scan_append []
    rwa [List.append_nil, scan_nil] at skips
  | comment gap inLine =>
    have skips := scan_comment inLine []
    rwa [List.append_nil, List.dropWhile_nil, scan_nil, ← gap.scan_append] at skips

theorem scan_of_refused {c : Char} {chars : List Char} {error : LexicalError} (shown : ¬isIgnored c) (code : c ≠ '#')
    (read : readToken c chars = .error error) : scan (c :: chars) = .fault error := by
  rw [scan, if_neg shown, if_neg code]
  split
  next other failed =>
    rw [read] at failed
    cases failed
    rfl
  next found =>
    rw [read] at found
    cases found

end Scanning

/-- No white space of any kind stands at the beginning of a token. -/
theorem readToken_not_isBlank {c : Char} {chars : List Char} {result : Token × List Char}
    (read : readToken c chars = .ok result) : ¬isBlank c := by
  have continues : isNameContinue c → ¬isBlank c := fun continues =>
    forall_char_below (fun c => isNameContinue c → ¬isBlank c) (by decide) (isNameContinue_toNat_lt continues) continues
  unfold readToken at read
  split at read
  next mark known =>
    unfold punctuatorOf? at known
    split at known
    case h_14 => cases known
    all_goals decide
  next =>
    split at read
    next starts => exact (isNameStart_cases starts).2.2.2
    split at read
    next number =>
      rcases Bool.or_eq_true _ _ |>.mp number with digit | minus
      · exact continues (by rw [isNameContinue, digit, Bool.or_true])
      · rw [of_decide_eq_true minus]
        decide
    split at read
    next point => exact point ▸ by decide
    split at read
    next quote => exact quote ▸ by decide
    split at read <;> cases read

namespace Layout

variable {chars : List Char} {words : List (List Char)} {tokens : Tokens}

theorem scan_eq (laid : Layout chars words tokens) : scan chars = tokens := by
  induction laid with
  | done skipped => exact skipped.scan_eq
  | fault skipped shown code read => rw [skipped.scan_append, scan_of_refused shown code read]
  | next skipped shown code read rest ih => rw [skipped.scan_append, scan_of_readToken shown code read, ih]

theorem behind_gap {gap : List Char} (skipped : Gap gap) (laid : Layout chars words tokens) :
    Layout (gap ++ chars) words tokens := by
  cases laid with
  | done last =>
    cases last with
    | gap more => exact done (.gap (skipped.append more))
    | comment more inLine =>
      rw [← List.append_assoc]
      exact done (.comment (skipped.append more) inLine)
  | fault more shown code read =>
    rw [← List.append_assoc]
    exact fault (skipped.append more) shown code read
  | next more shown code read rest =>
    rw [← List.append_assoc]
    exact next (skipped.append more) shown code read rest

/-- The words decide the tokens: what follows a word in one text or the other has no part in reading it. -/
theorem tokens_eq {others : List Char} {otherTokens : Tokens} (laid : Layout chars words tokens)
    (other : Layout others words otherTokens) : tokens = otherTokens := by
  induction laid generalizing others otherTokens with
  | done =>
    cases other
    rfl
  | fault _ _ _ read =>
    cases other with
    | fault _ _ _ again =>
      rw [read] at again
      cases again
      rfl
    | next _ _ _ again =>
      rw [readToken_word again] at read
      cases read
  | next _ _ _ read _ ih =>
    cases other with
    | fault _ _ _ again =>
      rw [readToken_word read] at again
      cases again
    | next _ _ _ again rest =>
      have same := (readToken_word read).symm.trans (readToken_word again)
      cases same
      rw [ih rest]

theorem not_isBlankText {text : String} {token : Token} (laid : Layout text.toList words (.next token tokens)) :
    ¬isBlankText text := by
  intro blank
  rw [isBlankText, List.all_eq_true] at blank
  generalize text.toList = chars at laid blank
  cases laid with
  | next _ _ _ read => exact readToken_not_isBlank read (blank _ (List.mem_append_right _ (List.mem_cons_self ..)))

end Layout

theorem exists_layout (chars : List Char) : ∃ words, Layout chars words (scan chars) := by
  match chars with
  | [] => exact ⟨[], scan_nil ▸ .done (.gap .nil)⟩
  | c :: rest =>
    by_cases ignored : isIgnored c
    · obtain ⟨words, laid⟩ := exists_layout rest
      rw [scan_ignored ignored]
      exact ⟨words, laid.behind_gap (.ignored ignored .nil)⟩
    · by_cases code : c = '#'
      · subst code
        cases found : rest.find? isLineEnd with
        | none =>
          have last := LastGap.comment .nil (List.find?_eq_none.mp found)
          exact ⟨[], last.scan_eq ▸ .done last⟩
        | some c =>
          obtain ⟨ends, body, others, rfl, before⟩ := List.find?_eq_some_iff_append.mp found
          have inLine : ∀ c ∈ body, ¬isLineEnd c := fun c member => by simpa using before c member
          obtain ⟨words, laid⟩ := exists_layout others
          have gap := laid.behind_gap (.comment inLine ends .nil)
          rw [List.cons_append, List.append_assoc, List.singleton_append] at gap
          rw [scan_line inLine ends]
          exact ⟨words, gap⟩
      · cases read : readToken c rest with
        | error error =>
          rw [scan_of_refused ignored code read]
          exact ⟨_, .fault .nil ignored code read⟩
        | ok result =>
          obtain ⟨token, text⟩ := result
          obtain ⟨word, rfl, -⟩ : ∃ word, rest = word ++ text ∧ readToken c word = .ok (token, []) :=
            readToken_cuts c read
          obtain ⟨words, laid⟩ := exists_layout text
          rw [scan_of_readToken ignored code read]
          exact ⟨_, .next .nil ignored code read laid⟩
termination_by chars.length

theorem parseDocument_congr {first second : String} (same : scan first.toList = scan second.toList) :
    parseDocument first = parseDocument second := by
  rw [parseDocument, parseDocument, parseText, parseText, same]

theorem parseDocument_done {text : String} (read : scan text.toList = .done) :
    parseDocument text = .error (.unexpected none) := by
  rw [parseDocument, parseText, read]
  rfl

theorem parseDocument_fault {text : String} {error : LexicalError} (read : scan text.toList = .fault error) :
    parseDocument text = .error (.lexical error) := by
  rw [parseDocument, parseText, read]
  rfl

end Source

namespace Schema
open Source Text

theorem addSource_of_refused {text : String} {cause : SyntaxError} (refused : parseDocument text = .error cause)
    (schema : Schema) (source : String) :
    schema.addSource source text = if isBlankText text then .ok schema else .error (.unreadable source cause) := by
  rw [addSource, refused]

/-- Every text is words and gaps. Of two texts with the same words, or with the same tokens, each adds to a schema
what the other adds, or fails as the other fails, as long as there is a token. A text without one adds nothing if it
is blank, and fails otherwise. -/
theorem addSource_sees_tokens (schema : Schema) (source first second : String) :
    (∃ words tokens, Layout first.toList words tokens) ∧
      ∀ {words others tokens otherTokens}, Layout first.toList words tokens → Layout second.toList others otherTokens →
        words = others ∨ tokens = otherTokens →
        (tokens.first? ≠ none → schema.addSource source first = schema.addSource source second) ∧
        (tokens = .done → schema.addSource source first =
          if isBlankText first then .ok schema else .error (.unreadable source (.unexpected none))) ∧
        ∀ error, tokens = .fault error → schema.addSource source first =
          if isBlankText first then .ok schema else .error (.unreadable source (.lexical error)) := by
  refine ⟨(exists_layout first.toList).imp fun words laid => ⟨_, laid⟩, ?_⟩
  intro words others tokens otherTokens laid other same
  have equal : tokens = otherTokens := by
    rcases same with rfl | same
    · exact laid.tokens_eq other
    · exact same
  subst equal
  refine ⟨?_, ?_, ?_⟩
  · intro given
    cases tokens with
    | next token rest =>
      have read := parseDocument_congr (laid.scan_eq.trans other.scan_eq.symm)
      rw [addSource, addSource, if_neg laid.not_isBlankText, if_neg other.not_isBlankText, read]
    | _ => exact absurd rfl given
  · rintro rfl
    exact addSource_of_refused (parseDocument_done laid.scan_eq) schema source
  · rintro error rfl
    exact addSource_of_refused (parseDocument_fault laid.scan_eq) schema source

def unionWords : List (List Char) :=
  ["union".toList, "U".toList, "=".toList, "A".toList]

def unionTokens : Tokens :=
  .ofList [.name "union", .name "U", .punctuator .equals, .name "A"]

theorem layout_union : Layout "union U=A".toList unionWords unionTokens := by
  have chars : "union U=A".toList = [] ++ 'u' :: ("nion".toList ++ (" ".toList ++ 'U' :: ([] ++
      ([] ++ '=' :: ([] ++ ([] ++ 'A' :: ([] ++ []))))))) := by decide
  rw [chars]
  exact .next .nil (by decide) (by decide) rfl <|
    .next (.ignored rfl .nil) (by decide) (by decide) rfl <|
    .next .nil (by decide) (by decide) rfl <|
    .next .nil (by decide) (by decide) rfl <| .done (.gap .nil)

theorem layout_spacedUnion : Layout "\uFEFFunion,U #or\n= A#".toList unionWords unionTokens := by
  have chars : "\uFEFFunion,U #or\n= A#".toList =
      "\uFEFF".toList ++ 'u' :: ("nion".toList ++ (",".toList ++ 'U' :: ([] ++
        (' ' :: '#' :: ("or".toList ++ "\n".toList) ++ '=' :: ([] ++ (" ".toList ++ 'A' :: ([] ++
          ([] ++ "#".toList)))))))) := by decide
  have remark : Gap (' ' :: '#' :: ("or".toList ++ "\n".toList)) :=
    .ignored rfl (.comment (List.find?_eq_none.mp (by decide)) rfl .nil)
  rw [chars]
  exact .next (.ignored rfl .nil) (by decide) (by decide) rfl <|
    .next (.ignored rfl .nil) (by decide) (by decide) rfl <|
    .next remark (by decide) (by decide) rfl <|
    .next (.ignored rfl .nil) (by decide) (by decide) rfl <| .done (.comment .nil nofun)

theorem addSource_sees_tokens_union : Layout "union U=A".toList unionWords unionTokens ∧
    Layout "\uFEFFunion,U #or\n= A#".toList unionWords unionTokens ∧
    Schema.addSource {} "a" "union U=A" = Schema.addSource {} "a" "\uFEFFunion,U #or\n= A#" :=
  ⟨layout_union, layout_spacedUnion,
    ((addSource_sees_tokens {} "a" _ _).2 layout_union layout_spacedUnion (.inl rfl)).1 nofun⟩

/-- Without a token the gaps are looked at: nothing at all is a source, a comment is not. -/
theorem comment_refused : Layout "".toList [] .done ∧ Layout "# only comment".toList [] .done ∧
    Schema.ofText "" = .ok {} ∧
    Schema.ofText "# only comment" = .error (.unreadable "<string>" (.unexpected none)) := by
  have comment : Layout "# only comment".toList [] .done :=
    .done (@LastGap.comment [] " only comment".toList .nil (List.find?_eq_none.mp (by decide)))
  refine ⟨.done (.gap .nil), comment, rfl, ?_⟩
  exact addSource_of_refused (parseDocument_done comment.scan_eq) {} "<string>"

end Schema

end SchemaScribe
