import SchemaScribe.Schema.Basic
import SchemaScribe.Settings.Basic

/-! The names of a schema and the characters they are made of. Letters, digits and underscores are all that a name may
hold, so a name ends where any other character stands. -/

namespace SchemaScribe
open Source (isNameStart isNameContinue isDigit)

def IsName (text : String) : Prop :=
  Settings.isIdentifier text.toList

instance (text : String) : Decidable (IsName text) :=
  inferInstanceAs (Decidable (Settings.isIdentifier text.toList = true))

def TypeRef.names : TypeRef → List String
  | .named name _ => [name]
  | .list element _ => element.names
  | .malformed _ => []

def Argument.names (argument : Argument) : List String :=
  argument.name :: argument.type.names

def Field.names (field : Field) : List String :=
  field.name :: (field.type.names ++ field.arguments.flatMap Argument.names)

def RecordType.names (type : RecordType) : List String :=
  type.name :: type.fields.flatMap Field.names

def EnumType.names (type : EnumType) : List String :=
  type.name :: type.values.map (·.name)

def UnionType.names (type : UnionType) : List String :=
  type.name :: type.members

def Definition.names : Definition → List String
  | .object type => type.names
  | .input type => type.names
  | .enum type => type.names
  | .union type => type.names

def RootNames.names (roots : RootNames) : List String :=
  [roots.query, roots.mutation, roots.subscription].filterMap id

/-- Every name that stands anywhere in the schema. -/
def Schema.names (schema : Schema) : List String :=
  schema.definitions.flatMap Definition.names ++ (schema.rootNames.map RootNames.names).getD []

def Schema.Named (schema : Schema) : Prop :=
  ∀ name ∈ schema.names, IsName name

instance (schema : Schema) : Decidable schema.Named :=
  inferInstanceAs (Decidable (∀ name ∈ schema.names, IsName name))

theorem Schema.Named.field {schema : Schema} {definition : Definition} {field : Field} (named : schema.Named)
    (defined : definition ∈ schema.definitions) (inside : field ∈ definition.fields) :
    ∀ name ∈ field.names, IsName name := by
  intro name member
  apply named
  refine List.mem_append_left _ (List.mem_flatMap.mpr ⟨definition, defined, ?_⟩)
  have listed : name ∈ definition.fields.flatMap Field.names := List.mem_flatMap.mpr ⟨field, inside, member⟩
  cases definition with
  | object type => exact List.mem_cons_of_mem _ listed
  | input type => exact List.mem_cons_of_mem _ listed
  | enum type => cases inside
  | union type => cases inside

theorem isNameContinue_toNat_lt {c : Char} (continues : isNameContinue c) : c.toNat < 0x80 := by
  simp only [isNameContinue, isNameStart, isDigit, Bool.or_eq_true, Bool.and_eq_true, decide_eq_true_eq, beq_iff_eq,
    Char.le_def, UInt32.le_iff_toNat_le] at continues
  rcases continues with ((⟨-, upper⟩ | ⟨-, upper⟩) | rfl) | ⟨-, upper⟩
  · exact Nat.lt_of_le_of_lt upper (by decide)
  · exact Nat.lt_of_le_of_lt upper (by decide)
  · decide
  · exact Nat.lt_of_le_of_lt upper (by decide)

/-- A property of characters is shown below a limit by running through the codes. -/
theorem forall_char_below {limit : Nat} (holds : Char → Prop) (below : ∀ code < limit, holds (Char.ofNat code))
    {c : Char} (lt : c.toNat < limit) : holds c := by
  have this := below c.toNat lt
  rwa [Char.ofNat_toNat] at this

theorem isNameContinue_toUpper {c : Char} (continues : isNameContinue c) : isNameContinue c.toUpper := by
  refine forall_char_below (fun c => isNameContinue c → isNameContinue c.toUpper) ?_
    (isNameContinue_toNat_lt continues) continues
  decide

namespace IsName

theorem continues {name : String} (named : IsName name) : ∀ c ∈ name.toList, isNameContinue c := by
  unfold IsName at named
  cases chars : name.toList with
  | nil => exact nofun
  | cons first rest =>
    rw [chars] at named
    obtain ⟨starts, rest⟩ := Bool.and_eq_true_iff.mp named
    refine List.forall_mem_cons.mpr ⟨?_, List.all_eq_true.mp rest⟩
    rw [isNameContinue, starts, Bool.true_or]

theorem not_mem {name : String} (named : IsName name) {c : Char} (other : ¬isNameContinue c) : c ∉ name.toList :=
  fun member => other (named.continues c member)

/-- Only the first letter of a name changes in the name of its arguments. -/
theorem argumentsName_continues {name : String} (named : IsName name) :
    ∀ c ∈ (argumentsName name).toList, isNameContinue c := by
  have all := named.continues
  have ending : ∀ c ∈ "Args".toList, isNameContinue c := List.all_eq_true.mp (by decide)
  rw [argumentsName, Text.capitalize, String.toList_append]
  intro c member
  rcases List.mem_append.mp member with inName | inEnding
  · cases chars : name.toList with
    | nil => simp [chars] at inName
    | cons first rest =>
      rw [chars] at all
      obtain ⟨head, tail⟩ := List.forall_mem_cons.mp all
      simp only [chars, String.toList_ofList, Text.upperCase, if_pos (isNameContinue_toNat_lt head),
        List.singleton_append, List.mem_cons] at inName
      rcases inName with rfl | inRest
      · exact isNameContinue_toUpper head
      · exact tail c inRest
  · exact ending c inEnding

end IsName

/-- An item of two lists put together stands inside the first or behind all of it. -/
theorem append_eq_append_cons {first second front back : List α} {item : α}
    (split : first ++ second = front ++ item :: back) :
    (∃ rest, first = front ++ item :: rest) ∨ ∃ middle, front = first ++ middle ∧ second = middle ++ item :: back := by
  rcases List.append_eq_append_iff.mp split with ⟨middle, rfl, same⟩ | ⟨rest, rfl, same⟩
  · exact Or.inr ⟨middle, rfl, same⟩
  · cases rest with
    | nil => exact Or.inr ⟨[], by simp, by simpa using same.symm⟩
    | cons head tail =>
      obtain ⟨rfl, -⟩ := List.cons.inj same
      exact Or.inl ⟨tail, rfl⟩

/-- A text can be cut in one way only into characters of a kind and what begins with a character of another. -/
theorem span_append_unique {kind : Char → Bool} {first second rest others : List Char} {c d : Char}
    (inFirst : ∀ c ∈ first, kind c) (inSecond : ∀ c ∈ second, kind c) (stopsFirst : ¬kind c) (stopsSecond : ¬kind d)
    (same : first ++ c :: rest = second ++ d :: others) : first = second ∧ c = d ∧ rest = others := by
  have front := congrArg (List.takeWhile kind) same
  rw [List.takeWhile_append_of_pos inFirst, List.takeWhile_append_of_pos inSecond,
    List.takeWhile_cons_of_neg stopsFirst, List.takeWhile_cons_of_neg stopsSecond, List.append_nil,
    List.append_nil] at front
  subst front
  obtain ⟨rfl, rfl⟩ := List.cons.inj (List.append_cancel_left same)
  exact ⟨rfl, rfl, rfl⟩

end SchemaScribe
