import SchemaScribe.Proofs.Names
import SchemaScribe.Proofs.Tables

/-! What can stand at the front of a Scala type. Where names and mapped scalars are free of arrows, only the type of a
field with arguments begins with a name and an arrow. -/

namespace SchemaScribe
open Source (isNameContinue)

/-- A name stands for itself or for a Scala type out of the table. -/
theorem Scalars.resolve_cases (scalars : Scalars) (name : String) :
    scalars.resolve name = name ∨ ∃ entry ∈ scalars, scalars.resolve name = entry.2 := by
  rw [resolve]
  cases found : scalars.find? name with
  | none => exact Or.inl rfl
  | some type =>
    obtain ⟨before, after, rfl, -⟩ := List.lookup_eq_some_iff.mp found
    exact Or.inr ⟨(name, type), List.mem_append_right _ (List.mem_cons_self ..), rfl⟩

theorem Settings.mem_scalars {settings : Settings} {entry : String × String} (member : entry ∈ settings.scalars) :
    entry ∈ Scalars.builtin ∨ entry ∈ settings.scalarMappings :=
  Table.mem_insertAll member

/-- No Scala type out of the table holds an arrow. -/
def Scalars.FreeOfArrows (scalars : Scalars) : Prop :=
  ∀ entry ∈ scalars, ¬['=', '>'] <:+: entry.2.toList

theorem Settings.scalars_freeOfArrows {settings : Settings}
    (mappings : ∀ entry ∈ settings.scalarMappings, ¬['=', '>'] <:+: entry.2.toList) :
    settings.scalars.FreeOfArrows := by
  intro entry member
  rcases mem_scalars member with builtin | mapped
  · have builtins : ∀ entry ∈ Scalars.builtin, '=' ∉ entry.2.toList := by decide
    exact fun arrow => builtins entry builtin (arrow.subset (List.mem_cons_self ..))
  · exact mappings entry mapped

/-- The type expression begins with the name and an arrow behind it. -/
def TakesArguments (name type : String) : Prop :=
  (name ++ " => ").toList <+: type.toList

variable {scalars : Scalars} {name : String}

private theorem toList_arrow (name : String) : (name ++ " => ").toList = name.toList ++ ' ' :: ['=', '>', ' '] := by
  rw [String.toList_append]
  rfl

/-- Behind the word at its front, such a type has a blank. -/
theorem TakesArguments.front_eq {type : String} {front rest : List Char} {c : Char}
    (taken : TakesArguments name type) (inName : ∀ c ∈ name.toList, isNameContinue c)
    (inFront : ∀ c ∈ front, isNameContinue c) (stops : ¬isNameContinue c) (whole : type.toList = front ++ c :: rest) :
    name.toList = front ∧ c = ' ' := by
  obtain ⟨others, same⟩ := taken
  rw [toList_arrow, List.append_assoc, whole] at same
  obtain ⟨sameFront, sameBlank, -⟩ := span_append_unique inName inFront (by decide) stops same
  exact ⟨sameFront, sameBlank.symm⟩

theorem TakesArguments.arrow_infix {type : String} (taken : TakesArguments name type) :
    ['=', '>'] <:+: type.toList := by
  obtain ⟨rest, same⟩ := taken
  refine ⟨name.toList ++ [' '], ' ' :: rest, ?_⟩
  rw [← same, toList_arrow]
  simp

private theorem not_takesArguments_bracketed (front type ending : String)
    (inName : ∀ c ∈ name.toList, isNameContinue c) (inFront : ∀ c ∈ front.toList, isNameContinue c) :
    ¬TakesArguments name (front ++ "[" ++ type ++ ending) := by
  intro taken
  have whole : (front ++ "[" ++ type ++ ending).toList = front.toList ++ '[' :: (type.toList ++ ending.toList) := by
    simp [String.toList_append]
  obtain ⟨-, impossible⟩ := taken.front_eq inName inFront (by decide) whole
  cases impossible

theorem not_takesArguments_expression {ref : TypeRef} (free : scalars.FreeOfArrows)
    (inName : ∀ c ∈ name.toList, isNameContinue c) (named : ∀ name ∈ ref.names, IsName name) :
    ¬TakesArguments name (ref.expression scalars) := by
  have optional (type : String) : ¬TakesArguments name ("Option[" ++ type ++ "]") :=
    not_takesArguments_bracketed "Option" type "]" inName (List.all_eq_true.mp (by decide))
  cases ref with
  | named own required =>
    cases required with
    | false => exact optional _
    | true =>
      intro taken
      change TakesArguments name (scalars.resolve own) at taken
      rcases scalars.resolve_cases own with same | ⟨entry, member, same⟩
      · rw [same] at taken
        have equals : '=' ∈ own.toList := taken.arrow_infix.subset (List.mem_cons_self ..)
        exact (named own (List.mem_singleton.mpr rfl)).not_mem (by decide) equals
      · rw [same] at taken
        exact free entry member taken.arrow_infix
  | list element required =>
    cases required with
    | false => exact optional _
    | true =>
      exact not_takesArguments_bracketed "List" (element.expression scalars) "]" inName
        (List.all_eq_true.mp (by decide))
  | malformed found =>
    rintro ⟨rest, impossible⟩
    rw [toList_arrow] at impossible
    simp [TypeRef.expression] at impossible

end SchemaScribe
