import SchemaScribe.Proofs.Collection
import SchemaScribe.Proofs.Emission
import SchemaScribe.Proofs.LineOpenings
import SchemaScribe.Proofs.Names
import SchemaScribe.Proofs.Shapes

/-! Types as they are written can be read again: the lists, the places where a value may be missing, and the Scala name
in the middle. Only which of the scalars with that name was meant is lost. -/

namespace SchemaScribe
namespace TypeRef

/-- The reference with the Scala name in the place of the name. -/
def resolved (scalars : Scalars) : TypeRef → TypeRef
  | named name required => named (scalars.resolve name) required
  | list element required => list (element.resolved scalars) required
  | malformed found => malformed found

/-- The Scala name can be told from the brackets around it. -/
structure Bracketless (scalars : Scalars) (ref : TypeRef) : Prop where
  wellFormed : ref.WellFormed
  names : ∀ name ∈ ref.names, '[' ∉ (scalars.resolve name).toList ∧ ']' ∉ (scalars.resolve name).toList

/-- Reads the words between opening brackets, of which `opened` have to be closed behind the last word. The value is
required unless an `Option` was read just before. -/
def readWords (required : Bool) (opened : Nat) : List (List Char) → Option TypeRef
  | [] => none
  | [last] =>
    let name := last.takeWhile (· ≠ ']')
    if last = name ++ List.replicate opened ']' then some (named (String.ofList name) required) else none
  | word :: next :: rest =>
    if word = "Option".toList then if required then readWords false (opened + 1) (next :: rest) else none
    else if word = "List".toList then (readWords true (opened + 1) (next :: rest)).map (list · required)
    else none

/-- Reads a type as it is written. -/
def read (text : String) : Option TypeRef :=
  readWords true 0 (Text.pieces '[' text.toList)

/-- The words of a type inside so many brackets, which are closed behind it. -/
def wordsInside (opened : Nat) (type : String) : List (List Char) :=
  Text.pieces '[' (type.toList ++ List.replicate opened ']')

theorem wordsInside_bracketed (opening word : String) (opens : opening.toList = word.toList ++ ['['])
    (plain : '[' ∉ word.toList) (type : String) (opened : Nat) :
    wordsInside opened (opening ++ type ++ "]") = word.toList :: wordsInside (opened + 1) type := by
  have whole : (opening ++ type ++ "]").toList ++ List.replicate opened ']' =
      word.toList ++ '[' :: (type.toList ++ List.replicate (opened + 1) ']') := by
    simp [String.toList_append, List.replicate_succ, opens]
  rw [wordsInside, whole, Text.pieces_append, Text.pieces_of_not_mem plain]
  rfl

theorem exists_wordsInside (opened : Nat) (type : String) : ∃ next rest, wordsInside opened type = next :: rest :=
  List.exists_cons_of_ne_nil (Text.pieces_ne_nil _)

theorem readWords_name {name : String} (opens : '[' ∉ name.toList) (closes : ']' ∉ name.toList) (required : Bool)
    (opened : Nat) : readWords required opened (wordsInside opened name) = some (named name required) := by
  have plain : '[' ∉ name.toList ++ List.replicate opened ']' := by
    simp [List.mem_replicate, opens]
  have front : (name.toList ++ List.replicate opened ']').takeWhile (· ≠ ']') = name.toList := by
    have inName : ∀ c ∈ name.toList, decide (c ≠ ']') = true := by
      intro c member
      exact decide_eq_true fun same => closes (same ▸ member)
    rw [List.takeWhile_append_of_pos inName]
    cases opened <;> simp [List.replicate_succ]
  rw [wordsInside, Text.pieces_of_not_mem plain]
  simp only [readWords, front, if_true, String.ofList_toList]

theorem readWords_list {type : String} {element : TypeRef}
    (read : ∀ opened, readWords true opened (wordsInside opened type) = some element) (required : Bool)
    (opened : Nat) :
    readWords required opened (wordsInside opened ("List[" ++ type ++ "]")) = some (list element required) := by
  obtain ⟨next, rest, inner⟩ := exists_wordsInside (opened + 1) type
  rw [wordsInside_bracketed "List[" "List" rfl (by decide), inner, readWords,
    if_neg (by decide), if_pos rfl, ← inner, read, Option.map_some]

theorem readWords_option {type : String} (opened : Nat) :
    readWords true opened (wordsInside opened ("Option[" ++ type ++ "]")) =
      readWords false (opened + 1) (wordsInside (opened + 1) type) := by
  obtain ⟨next, rest, inner⟩ := exists_wordsInside (opened + 1) type
  rw [wordsInside_bracketed "Option[" "Option" rfl (by decide), inner, readWords,
    if_pos rfl, if_pos rfl]

/-- What is read where a value is required, and inside an `Option`, is read as it is meant. -/
theorem readWords_optionUnless {type : String} {shown : Bool → TypeRef}
    (read : ∀ required opened, readWords required opened (wordsInside opened type) = some (shown required))
    (required : Bool) (opened : Nat) :
    readWords true opened (wordsInside opened (optionUnless required type)) = some (shown required) := by
  cases required with
  | true => exact read true opened
  | false => exact (readWords_option opened).trans (read false (opened + 1))

variable {scalars : Scalars}

/-- Inside any number of brackets a type is read as its reference. -/
theorem readWords_expression {ref : TypeRef} (bracketless : ref.Bracketless scalars) (opened : Nat) :
    readWords true opened (wordsInside opened (ref.expression scalars)) = some (ref.resolved scalars) := by
  -- Inside a list or an `Option` there is one more bracket to close, so the number has to vary.
  induction ref generalizing opened with
  | named name required =>
    obtain ⟨opens, closes⟩ := bracketless.names name (List.mem_singleton.mpr rfl)
    exact readWords_optionUnless (readWords_name opens closes) required opened
  | list element required ih =>
    have inner : element.Bracketless scalars := ⟨bracketless.wellFormed, bracketless.names⟩
    exact readWords_optionUnless (readWords_list (ih inner)) required opened
  | malformed found => cases bracketless.wellFormed

theorem read_expression {ref : TypeRef} (bracketless : ref.Bracketless scalars) :
    read (ref.expression scalars) = some (ref.resolved scalars) := by
  have outermost := readWords_expression bracketless 0
  rwa [wordsInside, List.replicate_zero, List.append_nil] at outermost

/-- The Scala type depends on the reference through Scala names only. -/
theorem expression_resolved (ref : TypeRef) : (ref.resolved scalars).expression [] = ref.expression scalars := by
  induction ref with
  | named name required => rfl
  | list element required ih => simp only [resolved, expression, ih]
  | malformed found => rfl

theorem expression_eq_iff {first second : TypeRef} (bracketless : first.Bracketless scalars)
    (otherBracketless : second.Bracketless scalars) :
    first.expression scalars = second.expression scalars ↔ first.resolved scalars = second.resolved scalars := by
  constructor
  · intro same
    have both := read_expression bracketless
    rw [same, read_expression otherBracketless] at both
    exact (Option.some.inj both).symm
  · intro same
    rw [← expression_resolved, same, expression_resolved]

theorem Bracketless.write_eq {ref : TypeRef} (bracketless : ref.Bracketless scalars) :
    ref.write scalars = .ok (ref.expression scalars) :=
  unlessMalformed_eq_ok.mpr ⟨bracketless.wellFormed, rfl⟩

end TypeRef

/-- An argument as far as it can be read off its parameter. -/
def Argument.resolved (scalars : Scalars) (argument : Argument) : String × TypeRef :=
  (safeName argument.name, argument.type.resolved scalars)

variable {scalars : Scalars}

theorem Field.writeArguments_eq_some {field : Field} {arguments : CaseClass}
    (written : field.writeArguments scalars = .ok (some arguments)) :
    arguments = { name := argumentsName field.name, parameters := field.arguments.map (·.parameter scalars) } :=
  (argumentClass?_eq_some_iff.mp (unlessMalformed_eq_ok.mp written).2.symm).2

/-- Argument classes have one signature when the arguments have one name and type each, but for scalars. -/
theorem Field.signature_eq_iff {field other : Field} {first second : CaseClass}
    (bracketless : ∀ argument ∈ field.arguments ++ other.arguments, argument.type.Bracketless scalars)
    (written : field.writeArguments scalars = .ok (some first))
    (otherWritten : other.writeArguments scalars = .ok (some second)) :
    first.signature = second.signature ↔
      field.arguments.map (·.resolved scalars) = other.arguments.map (·.resolved scalars) := by
  rw [writeArguments_eq_some written, writeArguments_eq_some otherWritten, CaseClass.signature, CaseClass.signature,
    List.map_map, List.map_map]
  apply map_eq_map_iff_of_forall
  intro argument inside another listed
  have types := TypeRef.expression_eq_iff (bracketless argument (List.mem_append_left _ inside))
    (bracketless another (List.mem_append_right _ listed))
  simp only [Function.comp_apply, Argument.parameter, Argument.resolved, Prod.mk.injEq, types]

/-- Types are written alike exactly when they are the same but for scalars with one Scala name, and can be read again.
So an argument class is taken for one of its name that is known already exactly when the arguments have the same names
and types in that sense. -/
theorem TypeRef.write_exact (scalars : Scalars) :
    (∀ first second : TypeRef, first.Bracketless scalars → second.Bracketless scalars →
      (first.write scalars = second.write scalars ↔ first.resolved scalars = second.resolved scalars)) ∧
    (∀ ref : TypeRef, ref.Bracketless scalars →
      ∃ text, ref.write scalars = .ok text ∧ TypeRef.read text = some (ref.resolved scalars)) ∧
    ∀ (field other : Field) (known arguments : CaseClass) (collected : List Declaration),
      (∀ argument ∈ field.arguments ++ other.arguments, argument.type.Bracketless scalars) →
      field.writeArguments scalars = .ok (some known) → other.writeArguments scalars = .ok (some arguments) →
      collected.find? (·.name = arguments.name) = some (.caseClass known) →
      (addDeclaration collected (.caseClass arguments) = .ok collected ↔
        field.arguments.map (·.resolved scalars) = other.arguments.map (·.resolved scalars)) := by
  refine ⟨fun first second bracketless otherBracketless => ?_, fun ref bracketless => ?_, ?_⟩
  · rw [bracketless.write_eq, otherBracketless.write_eq, Except.ok.injEq]
    exact expression_eq_iff bracketless otherBracketless
  · exact ⟨ref.expression scalars, bracketless.write_eq, read_expression bracketless⟩
  · intro field other known arguments collected bracketless written otherWritten found
    have matching := List.find?_some found
    have sameName : known.name = arguments.name := of_decide_eq_true matching
    calc
      _ ↔ known.shape = arguments.shape := addDeclaration_eq_ok_iff_of_find? (.caseClass arguments) found
      _ ↔ known.signature = arguments.signature := CaseClass.shape_eq_iff.trans (and_iff_right sameName)
      _ ↔ _ := Field.signature_eq_iff bracketless written otherWritten

/-- The lists of two scalars are written alike, and their argument classes taken for one. The last word of a list of a
type that is called `Option` is its name. -/
theorem TypeRef.write_exact_aliases :
    let scalars := Scalars.ofMappings [("Money", "BigDecimal"), ("Price", "BigDecimal")]
    let prices := TypeRef.list (.named "Price" false) true
    let sums := TypeRef.list (.named "Money" false) true
    let given (type : TypeRef) : CaseClass :=
      { name := "TotalArgs", parameters := [{ name := "\x60type\x60", type := type.expression scalars }] }
    prices.write scalars = sums.write scalars ∧
      (∃ text, (TypeRef.list (.named "Option" true) false).write scalars = .ok text ∧
        TypeRef.read text = some (.list (.named "Option" true) false)) ∧
      addDeclaration [.caseClass (given prices)] (.caseClass (given sums)) = .ok [.caseClass (given prices)] := by
  intro scalars prices sums given
  obtain ⟨alike, readable, deduplicated⟩ := TypeRef.write_exact scalars
  have pricesPlain : prices.Bracketless scalars := ⟨rfl, by decide⟩
  have sumsPlain : sums.Bracketless scalars := ⟨rfl, by decide⟩
  refine ⟨(alike prices sums pricesPlain sumsPlain).mpr (by decide), ?_, ?_⟩
  · exact readable (.list (.named "Option" true) false) ⟨rfl, by decide⟩
  · let total (type : TypeRef) : Field := { name := "total", type, arguments := [{ name := "type", type }] }
    refine (deduplicated (total prices) (total sums) (given prices) (given sums) _ ?_ ?_ ?_ ?_).mpr ?_
    · simp [total, pricesPlain, sumsPlain]
    · exact unlessMalformed_eq_ok.mpr (by decide)
    · exact unlessMalformed_eq_ok.mpr (by decide)
    · decide
    · decide

end SchemaScribe
