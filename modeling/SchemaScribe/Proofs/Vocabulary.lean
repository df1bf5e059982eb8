import SchemaScribe.Proofs.BuiltSchema
import SchemaScribe.Proofs.TypeExpressions
import SchemaScribe.Proofs.ValidSettings

/-! What declarations are made of, their descriptions apart: names are words, and types are put together from words,
mapped scalars and the effect with brackets and arrows. A character that is foreign to all of these does not occur. -/

namespace SchemaScribe
open Source (isNameContinue bind_eq_ok map_eq_ok)

def IsWord (text : String) : Prop :=
  ∀ c ∈ text.toList, isNameContinue c

/-- A word, in back quotes if it is reserved. -/
def IsLabel (text : String) : Prop :=
  ∀ c ∈ text.toList, isNameContinue c ∨ c = '\x60'

/-- What stands around words and between them. -/
def signs : List Char :=
  ['\x60', '[', ']', '=', '>', ',', ' ']

structure Foreign (c : Char) : Prop where
  word : ¬isNameContinue c
  sign : c ∉ signs

/-- What stands around words in the types of fields and arguments, where there is no stream. -/
def typeSigns : List Char :=
  ['\x60', '[', ']', '=', '>', ' ']

structure Separate (c : Char) : Prop where
  word : ¬isNameContinue c
  sign : c ∉ typeSigns

theorem not_mem_append {c : Char} {first second : String} (inFirst : c ∉ first.toList) (inSecond : c ∉ second.toList) :
    c ∉ (first ++ second).toList := by
  rw [String.toList_append, List.mem_append]
  exact not_or.mpr ⟨inFirst, inSecond⟩

theorem not_mem_joinWith {c : Char} {separator : String} {parts : List String} (between : c ∉ separator.toList)
    (inParts : ∀ part ∈ parts, c ∉ part.toList) : c ∉ (Text.joinWith separator parts).toList := by
  induction parts with
  | nil => exact List.not_mem_nil
  | cons part rest ih =>
    obtain ⟨inPart, inRest⟩ := List.forall_mem_cons.mp inParts
    cases rest with
    | nil => exact inPart
    | cons next rest => exact not_mem_append (not_mem_append inPart between) (ih inRest)

theorem IsName.isWord {name : String} (named : IsName name) : IsWord name :=
  named.continues

theorem safeName_isLabel {name : String} (named : IsName name) : IsLabel (safeName name) := by
  rw [safeName]
  split
  · intro c member
    simp only [String.toList_append, List.mem_append] at member
    rcases member with (quote | inside) | quote
    · exact Or.inr (List.mem_singleton.mp quote)
    · exact Or.inl (named.continues c inside)
    · exact Or.inr (List.mem_singleton.mp quote)
  · exact fun c member => Or.inl (named.continues c member)

theorem not_mem_of_known {c : Char} {signs : List Char} {text : String} (word : ¬isNameContinue c) (sign : c ∉ signs)
    (known : text.toList.all fun c => isNameContinue c || signs.contains c) : c ∉ text.toList := by
  intro member
  rcases Bool.or_eq_true_iff.mp (List.all_eq_true.mp known c member) with inWord | inSigns
  · exact word inWord
  · exact sign (List.contains_iff_mem.mp inSigns)

namespace Separate

variable {c : Char} (separate : Separate c)
include separate

theorem fixed (text : String) (known : text.toList.all fun c => isNameContinue c || typeSigns.contains c) :
    c ∉ text.toList :=
  not_mem_of_known separate.word separate.sign known

theorem not_mem_word {text : String} (word : IsWord text) : c ∉ text.toList :=
  fun member => separate.word (word c member)

theorem not_mem_label {text : String} (label : IsLabel text) : c ∉ text.toList := by
  intro member
  rcases label c member with word | rfl
  · exact separate.word word
  · exact separate.sign (by decide)

end Separate

namespace Foreign

variable {c : Char} (foreign : Foreign c)
include foreign

theorem fixed (text : String) (known : text.toList.all fun c => isNameContinue c || signs.contains c) :
    c ∉ text.toList :=
  not_mem_of_known foreign.word foreign.sign known

theorem separate : Separate c where
  word := foreign.word
  sign member := by
    have known : typeSigns.all signs.contains := by decide
    exact foreign.sign (List.contains_iff_mem.mp (List.all_eq_true.mp known c member))

theorem not_mem_word {text : String} (word : IsWord text) : c ∉ text.toList :=
  foreign.separate.not_mem_word word

theorem not_mem_label {text : String} (label : IsLabel text) : c ∉ text.toList :=
  foreign.separate.not_mem_label label

end Foreign

def Scalars.Lack (scalars : Scalars) (c : Char) : Prop :=
  ∀ entry ∈ scalars, c ∉ entry.2.toList

instance (scalars : Scalars) (c : Char) : Decidable (scalars.Lack c) :=
  inferInstanceAs (Decidable (∀ entry ∈ scalars, c ∉ entry.2.toList))

theorem Settings.scalars_lack {settings : Settings} {c : Char} (foreign : Foreign c)
    (mappings : ∀ entry ∈ settings.scalarMappings, c ∉ entry.2.toList) : settings.scalars.Lack c := by
  intro entry member
  rcases mem_scalars member with builtin | mapped
  · have builtins : Scalars.builtin.all fun entry =>
        entry.2.toList.all fun c => isNameContinue c || signs.contains c := by
      decide
    exact foreign.fixed entry.2 (List.all_eq_true.mp builtins entry builtin)
  · exact mappings entry mapped

section PackageNames

/-- Cutting at a separator loses the separators only. -/
theorem Text.mem_pieces (separator : Char) {c : Char} {chars : List Char} (member : c ∈ chars) :
    c = separator ∨ ∃ piece ∈ pieces separator chars, c ∈ piece := by
  induction chars with
  | nil => cases member
  | cons head rest ih =>
    rw [pieces]
    by_cases cut : head = separator
    · rw [if_pos cut]
      rcases List.mem_cons.mp member with rfl | later
      · exact Or.inl cut
      · refine (ih later).imp_right ?_
        rintro ⟨piece, listed, inside⟩
        exact ⟨piece, List.mem_cons_of_mem _ listed, inside⟩
    · rw [if_neg cut]
      cases cuts : pieces separator rest with
      | nil =>
        rcases List.mem_cons.mp member with rfl | later
        · exact Or.inr ⟨[c], List.mem_singleton.mpr rfl, List.mem_singleton.mpr rfl⟩
        · simpa [cuts] using Or.inl (ih later)
      | cons first others =>
        rcases List.mem_cons.mp member with rfl | later
        · exact Or.inr ⟨c :: first, List.mem_cons_self .., List.mem_cons_self ..⟩
        · rw [cuts] at ih
          refine (ih later).imp_right ?_
          rintro ⟨piece, listed, inside⟩
          rcases List.mem_cons.mp listed with rfl | further
          · exact ⟨head :: piece, List.mem_cons_self .., List.mem_cons_of_mem _ inside⟩
          · exact ⟨piece, List.mem_cons_of_mem _ further, inside⟩

namespace Settings

/-- Words with points between them, and perhaps a line feed behind them. -/
theorem exists_words_of_isPackageName {name : String} (accepted : isPackageName name.toList) :
    ∃ words : String, (∀ c ∈ words.toList, isNameContinue c ∨ c = '.') ∧ (name = words ∨ name = words ++ "\n") := by
  have pieceWords {body : List Char} (all : (Text.pieces '.' body).all isIdentifier) :
      ∀ c ∈ body, isNameContinue c ∨ c = '.' := by
    intro c member
    rcases Text.mem_pieces '.' member with point | ⟨piece, listed, inside⟩
    · exact Or.inr point
    · have named : IsName (String.ofList piece) := by
        rw [IsName, String.toList_ofList]
        exact List.all_eq_true.mp all piece listed
      exact Or.inl (named.continues c (by rwa [String.toList_ofList]))
  rw [isPackageName] at accepted
  split at accepted
  next feed =>
    obtain ⟨front, split⟩ := List.getLast?_eq_some_iff.mp feed
    rw [split, List.dropLast_concat] at accepted
    refine ⟨String.ofList front, by rw [String.toList_ofList]; exact pieceWords accepted, Or.inr ?_⟩
    rw [← String.toList_inj, String.toList_append, String.toList_ofList, split]
    rfl
  next => exact ⟨name, pieceWords accepted, Or.inl rfl⟩

theorem isPackageName_of_validate {origin : ValueOrigin} {values : Json} {settings : Settings}
    (valid : validate origin values = .ok settings) {name : String} (given : settings.packageName = some name) :
    isPackageName name.toList := by
  cases values with
  | object entries => exact (packageName_of_validateEntries valid).1 name given
  | _ => cases valid

end Settings

end PackageNames

/-- The name is a word, or one in back quotes, and the character is not in the type. -/
def Parameter.Clear (c : Char) (parameter : Parameter) : Prop :=
  IsLabel parameter.name ∧ c ∉ parameter.type.toList

structure CaseClass.Clear (c : Char) (declaration : CaseClass) : Prop where
  name : IsWord declaration.name
  parameters : ∀ parameter ∈ declaration.parameters, parameter.Clear c
  parent : ∀ parent, declaration.parent = some parent → IsWord parent

def Variant.Clear (c : Char) : Variant → Prop
  | .caseObject variant => IsLabel variant.name ∧ IsWord variant.parent
  | .caseClass variant => variant.Clear c

def Declaration.Clear (c : Char) : Declaration → Prop
  | .caseClass declaration => declaration.Clear c
  | .sealedTrait declaration => IsWord declaration.name ∧ ∀ variant ∈ declaration.variants, variant.Clear c

structure Document.Clear (c : Char) (document : Document) : Prop where
  types : ∀ declaration ∈ document.types, declaration.Clear c
  operations : ∀ declaration ∈ document.operations, declaration.Clear c

theorem Field.Proper.isName {field : Field} (proper : field.Proper) : IsName field.name :=
  proper.names field.name (List.mem_cons_self ..)

section Types

variable {schema : Schema} {scalars : Scalars} {c : Char} (separate : Separate c) (lack : scalars.Lack c)
include separate

theorem optionUnless_lacks {expression : String} (lacks : c ∉ expression.toList) (required : Bool) :
    c ∉ (TypeRef.optionUnless required expression).toList := by
  cases required with
  | true => exact lacks
  | false => exact not_mem_append (not_mem_append (separate.fixed "Option[" rfl) lacks) (separate.fixed "]" rfl)

theorem Field.Proper.signature_lacks {field : Field} (proper : field.Proper) {result : String}
    (lacks : c ∉ result.toList) : c ∉ (field.signature result).toList := by
  rw [signature]
  split
  · exact lacks
  · refine not_mem_append (not_mem_append ?_ (separate.fixed " => " rfl)) lacks
    exact separate.not_mem_word proper.isName.argumentsName_continues

include lack

theorem expression_lacks {ref : TypeRef} (named : ∀ name ∈ ref.names, IsName name) :
    c ∉ (ref.expression scalars).toList := by
  induction ref with
  | named name required =>
    apply optionUnless_lacks separate
    rcases scalars.resolve_cases name with same | ⟨entry, member, same⟩
    · rw [same]
      exact separate.not_mem_word (named name (List.mem_singleton.mpr rfl)).isWord
    · rw [same]
      exact lack entry member
  | list element required ih =>
    apply optionUnless_lacks separate
    exact not_mem_append (not_mem_append (separate.fixed "List[" rfl) (ih named)) (separate.fixed "]" rfl)
  | malformed found => exact separate.fixed "" rfl

namespace Field.Proper

variable {field : Field}

theorem expression_lacks (proper : field.Proper) : c ∉ (field.type.expression scalars).toList := by
  apply SchemaScribe.expression_lacks separate lack
  intro name member
  exact proper.names name (List.mem_cons_of_mem _ (List.mem_append_left _ member))

theorem argument_clear (proper : field.Proper) {argument : Argument} (given : argument ∈ field.arguments) :
    (argument.parameter scalars).Clear c := by
  have named : ∀ name ∈ argument.names, IsName name := by
    intro name member
    apply proper.names
    exact List.mem_cons_of_mem _ (List.mem_append_right _ (List.mem_flatMap.mpr ⟨argument, given, member⟩))
  refine ⟨safeName_isLabel (named argument.name (List.mem_cons_self ..)), ?_⟩
  exact SchemaScribe.expression_lacks separate lack fun name member => named name (List.mem_cons_of_mem _ member)

theorem argumentClass_clear (proper : field.Proper) {arguments : CaseClass}
    (taken : field.argumentClass? scalars = some arguments) : arguments.Clear c := by
  obtain ⟨-, rfl⟩ := argumentClass?_eq_some_iff.mp taken
  refine { name := proper.isName.argumentsName_continues, parameters := ?_, parent := nofun }
  intro parameter member
  obtain ⟨argument, given, rfl⟩ := List.mem_map.mp member
  exact proper.argument_clear separate lack given

end Field.Proper

namespace RecordType.Proper

variable {type : RecordType}

omit separate lack in
/-- A case class for the type, whichever way its fields become parameters. -/
private theorem class_clear (proper : type.Proper) {declaration : CaseClass} {parameter : Field → Parameter}
    (sameName : declaration.name = type.name) (parameters : declaration.parameters = type.fields.map parameter)
    (typed : ∀ field ∈ type.fields, (parameter field).Clear c)
    (parent : ∀ parent, declaration.parent = some parent → IsWord parent) : declaration.Clear c := by
  refine { name := sameName ▸ proper.name.isWord, parameters := ?_, parent }
  intro shown member
  rw [parameters] at member
  obtain ⟨field, inside, rfl⟩ := List.mem_map.mp member
  exact typed field inside

theorem caseClass_clear (proper : type.Proper) {parent : Option String}
    (word : ∀ name, parent = some name → IsWord name) : (type.caseClass scalars parent).Clear c := by
  refine proper.class_clear rfl rfl (fun field inside => ?_) word
  have sound := proper.fields field inside
  exact ⟨safeName_isLabel sound.isName, sound.signature_lacks separate (sound.expression_lacks separate lack)⟩

theorem inputClass_clear (proper : type.Proper) : (type.inputClass scalars).Clear c := by
  refine proper.class_clear rfl rfl (fun field inside => ?_) nofun
  have sound := proper.fields field inside
  exact ⟨safeName_isLabel sound.isName, sound.expression_lacks separate lack⟩

theorem operationClass_clear (proper : type.Proper) {wrap : String → String}
    (wraps : ∀ result : String, c ∉ result.toList → c ∉ (wrap result).toList) :
    (type.operationClass scalars wrap).Clear c := by
  refine proper.class_clear rfl rfl (fun field inside => ?_) nofun
  have sound := proper.fields field inside
  exact ⟨safeName_isLabel sound.isName, sound.signature_lacks separate (wraps _ (sound.expression_lacks separate lack))⟩

theorem argumentClasses_clear (proper : type.Proper) :
    ∀ arguments ∈ type.argumentClasses scalars, arguments.Clear c := by
  intro arguments member
  obtain ⟨field, inside, taken⟩ := mem_argumentClasses_iff.mp member
  exact (proper.fields field inside).argumentClass_clear separate lack taken

end RecordType.Proper

namespace Schema.Proper

omit separate lack in
theorem object (proper : schema.Proper) {name : String} {type : RecordType}
    (found : schema.objectType? name = some type) : type.Proper :=
  proper.definitions (.object type) (mem_of_objectType? found)

theorem declaration_clear (proper : schema.Proper) {definition : Definition}
    (defined : definition ∈ schema.definitions) : (definition.declaration schema scalars).Clear c := by
  have sound := proper.definitions definition defined
  cases definition with
  | object type => exact RecordType.Proper.caseClass_clear separate lack sound nofun
  | input type => exact RecordType.Proper.inputClass_clear separate lack sound
  | enum type =>
    obtain ⟨own, values⟩ := List.forall_mem_cons.mp sound
    refine ⟨own.isWord, ?_⟩
    intro variant member
    obtain ⟨value, given, rfl⟩ := List.mem_map.mp member
    exact ⟨safeName_isLabel (values value.name (List.mem_map_of_mem given)), own.isWord⟩
  | union type =>
    obtain ⟨own, -⟩ := List.forall_mem_cons.mp sound
    refine ⟨own.isWord, ?_⟩
    intro variant member
    obtain ⟨object, listed, rfl⟩ := List.mem_map.mp member
    obtain ⟨name, -, found⟩ := UnionType.mem_objects_iff.mp listed
    apply (proper.object found).caseClass_clear separate lack
    intro parent same
    cases same
    exact own.isWord

theorem argumentClasses_clear (proper : schema.Proper) {definition : Definition}
    (defined : definition ∈ schema.definitions) :
    ∀ arguments ∈ definition.argumentClasses schema scalars, arguments.Clear c := by
  cases definition with
  | object type => exact RecordType.Proper.argumentClasses_clear separate lack (proper.definitions _ defined)
  | input type => exact nofun
  | enum type => exact nofun
  | union type =>
    intro arguments member
    obtain ⟨object, listed, inside⟩ := List.mem_flatMap.mp member
    obtain ⟨name, -, found⟩ := UnionType.mem_objects_iff.mp listed
    exact (proper.object found).argumentClasses_clear separate lack arguments inside

theorem emitted_clear (proper : schema.Proper) : ∀ declaration ∈ schema.emitted scalars, declaration.Clear c := by
  intro declaration member
  obtain ⟨definition, defined, here⟩ := List.mem_flatMap.mp member
  rcases List.mem_append.mp here with argument | own
  · obtain ⟨arguments, inside, rfl⟩ := List.mem_map.mp argument
    exact proper.argumentClasses_clear separate lack defined arguments inside
  · split at own
    · rw [List.mem_singleton.mp own]
      exact proper.declaration_clear separate lack defined
    · cases own

omit separate lack in
theorem document_clear (proper : schema.Proper) (foreign : Foreign c) {context : WriteContext}
    {packageName : Option String} (lack : context.scalars.Lack c) (effect : c ∉ context.effect.toList) :
    (schema.document context packageName).Clear c := by
  have wrapped : ∀ result : String, c ∉ result.toList → c ∉ (effectOf context.effect result).toList := by
    intro result lacks
    exact not_mem_append (not_mem_append (not_mem_append effect (foreign.fixed "[" rfl)) lacks) (foreign.fixed "]" rfl)
  have streamed : ∀ result : String, c ∉ result.toList → c ∉ (streamOf result).toList := by
    intro result lacks
    exact not_mem_append (not_mem_append (foreign.fixed "ZStream[Any, Nothing, " rfl) lacks) (foreign.fixed "]" rfl)
  refine { types := ?_, operations := ?_ }
  · intro declaration kept
    exact proper.emitted_clear foreign.separate lack declaration (mem_of_mem_firstOfEachName kept)
  · intro declaration member
    obtain ⟨root, listed, rfl⟩ := List.mem_filterMap.mp member
    simp only [document, rootTypes, List.mem_cons, List.not_mem_nil, or_false] at listed
    rcases listed with served | served | served
    all_goals
      obtain ⟨type, found, rfl⟩ := Option.map_eq_some_iff.mp served.symm
    · exact (proper.object found).operationClass_clear foreign.separate lack wrapped
    · exact (proper.object found).operationClass_clear foreign.separate lack wrapped
    · exact (proper.object found).operationClass_clear foreign.separate lack streamed

end Schema.Proper

end Types

end SchemaScribe
