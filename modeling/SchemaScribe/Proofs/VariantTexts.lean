import SchemaScribe.Declaration.Basic
import SchemaScribe.Proofs.LiteralReading

/-! What can be read off the text of a variant. The description in front of it is closed by its own literal, so that
kind and name of the variant stand where nothing else can be taken for them. -/

namespace SchemaScribe

/-- The text that a description has to show; a missing one and an empty one show nothing. -/
def shownDescription (description : Option String) : Option String :=
  description.filter (· ≠ "")

theorem isSome_shownDescription (description : Option String) :
    (shownDescription description).isSome = isDescribed description := by
  cases description with
  | none => rfl
  | some text => by_cases empty : text = "" <;> simp [shownDescription, isDescribed, empty]

theorem descriptionClause_of_missing {description : Option String} (missing : isDescribed description = false) :
    descriptionClause description = "" := by
  cases description with
  | none => rfl
  | some text => simpa [isDescribed, descriptionClause] using missing

theorem descriptionClause_of_shown {description : Option String} {text : String}
    (shown : shownDescription description = some text) :
    descriptionClause description = "@GQLDescription(" ++ stringLiteral text ++ ")\n" := by
  obtain ⟨rfl, nonempty⟩ := Option.filter_eq_some_iff.mp shown
  exact if_neg (of_decide_eq_true nonempty)

theorem descriptionClause_of_described {description : Option String} (described : isDescribed description = true) :
    ∃ text, descriptionClause description = "@GQLDescription(" ++ stringLiteral text ++ ")\n" := by
  rw [← isSome_shownDescription] at described
  obtain ⟨text, shown⟩ := Option.isSome_iff_exists.mp described
  exact ⟨text, descriptionClause_of_shown shown⟩

theorem descriptionClause_congr {first second : Option String}
    (same : shownDescription first = shownDescription second) :
    descriptionClause first = descriptionClause second := by
  cases shown : shownDescription first with
  | none =>
    have missing {description : Option String} (none : shownDescription description = none) :
        isDescribed description = false := by
      rw [← isSome_shownDescription, none]
      rfl
    rw [descriptionClause_of_missing (missing shown), descriptionClause_of_missing (missing (same ▸ shown))]
  | some text => rw [descriptionClause_of_shown shown, descriptionClause_of_shown (same ▸ shown)]

/-- Descriptions end before anything that does not begin like one, so that none can be part of another. -/
theorem descriptionClause_append_inj {first second : Option String} {front back : List Char}
    (apart : front.head? ≠ some '@') (otherApart : back.head? ≠ some '@')
    (same : (descriptionClause first).toList ++ front = (descriptionClause second).toList ++ back) :
    shownDescription first = shownDescription second ∧ front = back := by
  have opening {description : Option String} {text : String} (shown : shownDescription description = some text)
      (rest : List Char) : (descriptionClause description).toList ++ rest =
        '@' :: ("GQLDescription(".toList ++ ((stringLiteral text).toList ++ (")\n".toList ++ rest))) := by
    rw [descriptionClause_of_shown shown]
    simp [String.toList_append]
  have nothing {description : Option String} (missing : shownDescription description = none) (rest : List Char) :
      (descriptionClause description).toList ++ rest = rest := by
    have same : descriptionClause description = descriptionClause none := descriptionClause_congr missing
    rw [same]
    rfl
  cases shown : shownDescription first with
  | none =>
    rw [nothing shown] at same
    cases otherShown : shownDescription second with
    | none =>
      rw [nothing otherShown] at same
      exact ⟨rfl, same⟩
    | some text =>
      rw [opening otherShown] at same
      exact absurd (congrArg List.head? same) apart
  | some text =>
    rw [opening shown] at same
    cases otherShown : shownDescription second with
    | none =>
      rw [nothing otherShown] at same
      exact absurd (congrArg List.head? same.symm) otherApart
    | some other =>
      rw [opening otherShown] at same
      obtain ⟨rfl, behind⟩ := stringLiteral_append_inj (List.append_cancel_left (List.cons.inj same).2)
      exact ⟨rfl, List.append_cancel_left behind⟩

/-- The keyword behind a description tells where the description ends. -/
theorem descriptionClause_keyword_inj {first second : Option String} {front back : List Char}
    (same : (descriptionClause first).toList ++ 'c' :: front = (descriptionClause second).toList ++ 'c' :: back) :
    shownDescription first = shownDescription second ∧ front = back := by
  obtain ⟨shown, behind⟩ := descriptionClause_append_inj (by simp) (by simp) same
  exact ⟨shown, (List.cons.inj behind).2⟩

theorem CaseObject.toList_text (declaration : CaseObject) :
    declaration.text.toList = (descriptionClause declaration.description).toList ++
      'c' :: ("ase object ".toList ++ (declaration.name.toList ++ (" extends " ++ declaration.parent).toList)) := by
  simp [text, String.toList_append]

/-- The text of a case class behind the bracket that opens its parameter list. -/
def CaseClass.inside (declaration : CaseClass) : List Char :=
  let parameters := declaration.parameters.map Parameter.text
  if declaration.multiline || declaration.hasDescribedParameter then
    '\n' :: ((Text.joinWith ",\n" parameters).toList ++ '\n' :: ')' :: declaration.parentClause.toList)
  else (Text.joinWith ", " parameters).toList ++ ')' :: declaration.parentClause.toList

theorem CaseClass.toList_text (declaration : CaseClass) :
    declaration.text.toList = (descriptionClause declaration.description).toList ++
      'c' :: ("ase class ".toList ++ (declaration.name.toList ++ '(' :: declaration.inside)) := by
  rw [text, parameterList, inside]
  split
  · simp [String.toList_append]
  · simp [String.toList_append]

theorem CaseObject.name_eq_of_text_eq {first second : CaseObject} (sameParent : first.parent = second.parent)
    (same : first.text = second.text) : first.name = second.name := by
  have behind := congrArg String.toList same
  rw [toList_text, toList_text, sameParent] at behind
  have names := List.append_cancel_left (descriptionClause_keyword_inj behind).2
  exact String.toList_inj.mp (List.append_cancel_right names)

theorem CaseObject.text_ne_caseClass (first : CaseObject) (second : CaseClass) : first.text ≠ second.text := by
  intro same
  have behind := congrArg String.toList same
  rw [toList_text, CaseClass.toList_text] at behind
  have keywords := (descriptionClause_keyword_inj behind).2
  simp at keywords

/-- Description, name and what follows them can be told apart in the text of a case class. -/
theorem CaseClass.parts_eq_of_text_eq {first second : CaseClass}
    (inFirst : ∀ c ∈ first.name.toList, Source.isNameContinue c)
    (inSecond : ∀ c ∈ second.name.toList, Source.isNameContinue c) (same : first.text = second.text) :
    shownDescription first.description = shownDescription second.description ∧ first.name = second.name ∧
      first.inside = second.inside := by
  have behind := congrArg String.toList same
  rw [toList_text, toList_text] at behind
  obtain ⟨shown, keywords⟩ := descriptionClause_keyword_inj behind
  obtain ⟨sameName, -, inside⟩ :=
    span_append_unique inFirst inSecond (by decide) (by decide) (List.append_cancel_left keywords)
  exact ⟨shown, String.toList_inj.mp sameName, inside⟩

theorem CaseClass.name_eq_of_text_eq {first second : CaseClass} (firstNamed : IsName first.name)
    (secondNamed : IsName second.name) (same : first.text = second.text) : first.name = second.name :=
  (parts_eq_of_text_eq firstNamed.continues secondNamed.continues same).2.1

end SchemaScribe
