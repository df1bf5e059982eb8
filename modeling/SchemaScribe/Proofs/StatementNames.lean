import SchemaScribe.Proofs.Emission
import SchemaScribe.Proofs.SourceNames
import SchemaScribe.Schema.Build

/-! Every rule of the grammar leaves proper tokens behind, and the statements of a document hold proper names and
well-formed types only. -/

namespace SchemaScribe

structure Argument.Proper (argument : Argument) : Prop where
  names : ∀ name ∈ argument.names, IsName name
  type : argument.type.WellFormed

structure Field.Proper (field : Field) : Prop where
  names : ∀ name ∈ field.names, IsName name
  wellTyped : field.WellTyped

structure RecordType.Proper (type : RecordType) : Prop where
  name : IsName type.name
  fields : ∀ field ∈ type.fields, field.Proper

/-- A definition as it comes out of a text. -/
def Definition.Proper : Definition → Prop
  | .object type => type.Proper
  | .input type => type.Proper
  | .enum type => ∀ name ∈ type.names, IsName name
  | .union type => ∀ name ∈ type.names, IsName name

namespace Source
open SchemaScribe.Source.Parser

def Statement.Proper : Statement → Prop
  | .object type => type.Proper
  | .extendObject name fields => ({ name, fields } : RecordType).Proper
  | .input type => type.Proper
  | .enum type => ∀ name ∈ type.names, IsName name
  | .union type => ∀ name ∈ type.names, IsName name
  | .roots names => ∀ entry ∈ names, IsName entry.2
  | .extendInput .. | .extendEnum .. | .extendUnion .. | .extendRoots _ | .unmodelled => True

theorem variableValue_keeps (constant : Bool) : (variableValue constant).Keeps := by
  refine .ite (fun _ => current_yields.bind fun found _ => ?_) fun _ => name_yields.bind fun _ _ => .pure trivial
  split <;> exact fail_yields _ _

/-- Behind the token at the front there is nothing more to a value of one token. -/
private theorem advance_pure_keeps (value : Value) :
    Keeps (do
      advance
      return value) :=
  advance_keeps.bind fun _ _ => .pure trivial

theorem value_keeps (constant : Bool) (room : Nat) : (value constant room).Keeps := by
  induction room with
  | zero =>
    rw [value]
    refine current_yields.bind fun found _ => ?_
    split
    case h_3 => exact advance_keeps.bind fun _ _ => variableValue_keeps constant
    all_goals first | exact fail_yields _ _ | exact advance_pure_keeps _
  | succ room ih =>
    have field : Keeps (do
        let key ← name
        expect .colon
        return (key, ← value constant room)) :=
      name_yields.bind fun _ _ => (expect_keeps _).bind fun _ _ => ih.bind fun _ _ => .pure trivial
    rw [value]
    refine current_yields.bind fun found _ => ?_
    split
    case h_1 => exact (anyBetween_yields ih _ _).bind fun _ _ => .pure trivial
    case h_2 => exact (anyBetween_yields field _ _).bind fun _ _ => .pure trivial
    case h_3 => exact advance_keeps.bind fun _ _ => variableValue_keeps constant
    all_goals first | exact fail_yields _ _ | exact advance_pure_keeps _

theorem argumentValues_keeps (constant : Bool) (room : Nat) : (argumentValues constant room).Keeps := by
  have argument : (argumentValue constant room).Keeps :=
    name_yields.bind fun _ _ => (expect_keeps _).bind fun _ _ =>
      (value_keeps constant room).bind fun _ _ => .pure trivial
  exact (optionalBetween_yields argument _ _).bind fun _ _ => .pure trivial

theorem directives_keeps (constant : Bool) (room : Nat) : (directives constant room).Keeps := by
  have directive : (directive constant room).Keeps :=
    (expect_keeps _).bind fun _ _ => name_yields.bind fun _ _ => argumentValues_keeps constant room
  exact remaining_keeps.bind fun _ _ => (itemsWhile_yields directive _ _).bind fun _ _ => .pure trivial

theorem constantDirectives_keeps : constantDirectives.Keeps :=
  directives_keeps true nestingLimit

theorem description_keeps : description.Keeps := by
  refine current_yields.bind fun found _ => ?_
  split
  · exact advance_keeps.bind fun _ _ => .pure trivial
  · exact advance_keeps.bind fun _ _ => .pure trivial
  · exact .pure trivial

theorem inputValue_yields : inputValue.Yields Argument.Proper := by
  refine description_keeps.bind fun _ _ => name_yields.bind fun name named => (expect_keeps _).bind fun _ _ => ?_
  refine (typeRef_yields _).bind fun type reads => (accept_keeps _).bind fun _ _ => ?_
  have ending (defaultText : Option String) {description : Option String} : Yields (do
      let _ ← constantDirectives
      return ({ name, type, defaultText, description } : Argument)) Argument.Proper :=
    constantDirectives_keeps.bind fun _ _ => .pure ⟨List.forall_mem_cons.mpr ⟨named, reads.1⟩, reads.2⟩
  refine .ite (fun _ => ?_) fun _ => ?_
  · have written : Keeps (Value.text <$> value true nestingLimit) := (value_keeps _ _).map fun _ _ => trivial
    have given : Keeps (some <$> Value.text <$> value true nestingLimit) := written.map fun _ _ => trivial
    exact given.bind fun defaultText _ => ending defaultText
  · have missing : Keeps (pure none : Parser (Option String)) := .pure trivial
    exact missing.bind fun defaultText _ => ending defaultText

theorem argumentDefinitions_yields :
    argumentDefinitions.Yields fun arguments => ∀ argument ∈ arguments, argument.Proper :=
  optionalBetween_yields inputValue_yields _ _

theorem fieldDefinition_yields : fieldDefinition.Yields Field.Proper := by
  refine description_keeps.bind fun _ _ => name_yields.bind fun name named => ?_
  refine argumentDefinitions_yields.bind fun arguments argumentsRead => (expect_keeps _).bind fun _ _ => ?_
  refine (typeRef_yields _).bind fun type reads => constantDirectives_keeps.bind fun _ _ => .pure ⟨?_, reads.2, ?_⟩
  · refine List.forall_mem_cons.mpr ⟨named, List.forall_mem_append.mpr ⟨reads.1, fun other member => ?_⟩⟩
    obtain ⟨argument, inside, member⟩ := List.mem_flatMap.mp member
    exact (argumentsRead argument inside).names other member
  · exact fun argument inside => (argumentsRead argument inside).type

theorem fieldDefinitions_yields : fieldDefinitions.Yields fun fields => ∀ field ∈ fields, field.Proper :=
  optionalBetween_yields fieldDefinition_yields _ _

theorem inputFields_yields : inputFields.Yields fun fields => ∀ field ∈ fields, field.Proper := by
  refine (optionalBetween_yields inputValue_yields _ _).bind fun arguments argumentsRead => .pure fun field member => ?_
  obtain ⟨argument, inside, rfl⟩ := List.mem_map.mp member
  have proper := argumentsRead argument inside
  exact ⟨by simpa [inputField, Field.names, Argument.names] using proper.names, proper.type, nofun⟩

theorem enumValues_yields : enumValues.Yields fun values => ∀ value ∈ values, IsName value.name := by
  have valueName : enumValueName.Yields IsName := by
    refine current_yields.bind fun found _ => ?_
    split
    · exact .ite (fun _ => fail_yields _ _) fun _ => name_yields
    · exact name_yields
  refine optionalBetween_yields ?_ _ _
  exact description_keeps.bind fun _ _ => valueName.bind fun _ named =>
    constantDirectives_keeps.bind fun _ _ => .pure named

theorem unionMembers_yields : unionMembers.Yields fun members => ∀ member ∈ members, IsName member :=
  (accept_keeps _).bind fun _ _ => .ite (fun _ => delimited_yields name_yields _) fun _ => .pure nofun

theorem interfaces_keeps : interfaces.Keeps :=
  (acceptKeyword_keeps _).bind fun _ _ =>
    .ite (fun _ => (delimited_yields name_yields _).bind fun _ _ => .pure trivial) fun _ => .pure trivial

theorem operationType_keeps : operationType.Keeps := by
  refine name_yields.bind fun _ _ => ?_
  split
  · exact .pure trivial
  · exact fail_yields _ _

theorem rootName_yields : rootName.Yields fun entry => IsName entry.2 :=
  operationType_keeps.bind fun _ _ => (expect_keeps _).bind fun _ _ => name_yields.bind fun _ named => .pure named

theorem fragmentName_keeps : fragmentName.Keeps :=
  current_yields.bind fun _ _ => .ite (fun _ => fail_yields _ _) fun _ => name_yields.bind fun _ _ => .pure trivial

theorem selection_keeps (room : Nat) {nested : Parser Unit} (keeps : nested.Keeps) :
    (selection room nested).Keeps := by
  have directed : (directives false room).Keeps := directives_keeps false room
  refine (accept_keeps _).bind fun _ _ => .ite (fun _ => ?_) fun _ => ?_
  · refine (acceptKeyword_keeps _).bind fun _ _ => .ite (fun _ => ?_) fun _ => ?_
    · exact name_yields.bind fun _ _ => directed.bind fun _ _ => keeps
    · refine current_yields.bind fun found _ => ?_
      split
      · exact fragmentName_keeps.bind fun _ _ => directed.bind fun _ _ => .pure trivial
      · exact directed.bind fun _ _ => keeps
  · have ending : Keeps (do
        argumentValues false room
        let _ ← directives false room
        if ← sees .braceOpen then
          nested) :=
      (argumentValues_keeps _ _).bind fun _ _ => directed.bind fun _ _ => (sees_keeps _).bind fun _ _ =>
        .ite (fun _ => keeps) fun _ => .pure trivial
    refine name_yields.bind fun _ _ => (accept_keeps _).bind fun _ _ => .ite (fun _ => ?_) fun _ => ending
    exact name_yields.bind fun _ _ => ending

theorem selectionSet_keeps (room : Nat) : (selectionSet room).Keeps := by
  induction room with
  | zero => exact fail_yields _ _
  | succ room ih => exact (anyBetween_yields (selection_keeps room ih) _ _).bind fun _ _ => .pure trivial

theorem variableDefinition_keeps : variableDefinition.Keeps := by
  refine description_keeps.bind fun _ _ => (expect_keeps _).bind fun _ _ => name_yields.bind fun _ _ => ?_
  refine (expect_keeps _).bind fun _ _ => (typeRef_yields _).bind fun _ _ => (accept_keeps _).bind fun _ _ => ?_
  have ending : Keeps (do
      let _ ← constantDirectives) := constantDirectives_keeps.bind fun _ _ => .pure trivial
  exact .ite (fun _ => (value_keeps _ _).bind fun _ _ => ending) fun _ => ending

theorem operationDefinition_yields : operationDefinition.Yields Statement.Proper := by
  have ending : Yields (do
      let _ ← optionalBetween .parenOpen variableDefinition .parenClose
      let _ ← directives false nestingLimit
      selectionSet nestingLimit
      return .unmodelled) Statement.Proper :=
    (optionalBetween_yields variableDefinition_keeps _ _).bind fun _ _ => (directives_keeps _ _).bind fun _ _ =>
      (selectionSet_keeps _).bind fun _ _ => .pure trivial
  refine description_keeps.bind fun _ _ => operationType_keeps.bind fun _ _ => current_yields.bind fun found _ => ?_
  split
  · exact name_yields.bind fun _ _ => ending
  · exact ending

theorem fragmentDefinition_yields : fragmentDefinition.Yields Statement.Proper := by
  refine description_keeps.bind fun _ _ => (expectKeyword_keeps _).bind fun _ _ => fragmentName_keeps.bind fun _ _ => ?_
  refine (expectKeyword_keeps _).bind fun _ _ => name_yields.bind fun _ _ => (directives_keeps _ _).bind fun _ _ => ?_
  exact (selectionSet_keeps _).bind fun _ _ => .pure trivial

theorem schemaDefinition_yields : schemaDefinition.Yields Statement.Proper := by
  refine description_keeps.bind fun _ _ => (expectKeyword_keeps _).bind fun _ _ => ?_
  refine constantDirectives_keeps.bind fun _ _ => ?_
  exact (manyBetween_yields rootName_yields _ _).bind fun _ named => .pure named

theorem scalarDefinition_yields : scalarDefinition.Yields Statement.Proper := by
  refine description_keeps.bind fun _ _ => (expectKeyword_keeps _).bind fun _ _ => name_yields.bind fun _ _ => ?_
  exact constantDirectives_keeps.bind fun _ _ => .pure trivial

theorem objectDefinition_yields : objectDefinition.Yields Statement.Proper := by
  refine description_keeps.bind fun _ _ => (expectKeyword_keeps _).bind fun _ _ => name_yields.bind fun _ named => ?_
  refine interfaces_keeps.bind fun _ _ => constantDirectives_keeps.bind fun _ _ => ?_
  exact fieldDefinitions_yields.bind fun _ read => .pure ⟨named, read⟩

theorem interfaceDefinition_yields : interfaceDefinition.Yields Statement.Proper := by
  refine description_keeps.bind fun _ _ => (expectKeyword_keeps _).bind fun _ _ => name_yields.bind fun _ _ => ?_
  refine interfaces_keeps.bind fun _ _ => constantDirectives_keeps.bind fun _ _ => ?_
  exact fieldDefinitions_yields.bind fun _ _ => .pure trivial

theorem unionDefinition_yields : unionDefinition.Yields Statement.Proper := by
  refine description_keeps.bind fun _ _ => (expectKeyword_keeps _).bind fun _ _ => name_yields.bind fun _ named => ?_
  refine constantDirectives_keeps.bind fun _ _ => unionMembers_yields.bind fun _ read => .pure ?_
  exact List.forall_mem_cons.mpr ⟨named, read⟩

theorem enumDefinition_yields : enumDefinition.Yields Statement.Proper := by
  refine description_keeps.bind fun _ _ => (expectKeyword_keeps _).bind fun _ _ => name_yields.bind fun _ named => ?_
  refine constantDirectives_keeps.bind fun _ _ => enumValues_yields.bind fun values read => .pure ?_
  refine List.forall_mem_cons.mpr ⟨named, fun other member => ?_⟩
  obtain ⟨value, inside, rfl⟩ := List.mem_map.mp member
  exact read value inside

theorem inputDefinition_yields : inputDefinition.Yields Statement.Proper := by
  refine description_keeps.bind fun _ _ => (expectKeyword_keeps _).bind fun _ _ => name_yields.bind fun _ named => ?_
  exact constantDirectives_keeps.bind fun _ _ => inputFields_yields.bind fun _ read => .pure ⟨named, read⟩

theorem directiveDefinition_yields : directiveDefinition.Yields Statement.Proper := by
  have location : directiveLocation.Keeps :=
    name_yields.bind fun _ _ => .ite (fun _ => .pure trivial) fun _ => fail_yields _ _
  refine description_keeps.bind fun _ _ => (expectKeyword_keeps _).bind fun _ _ => (expect_keeps _).bind fun _ _ => ?_
  refine name_yields.bind fun _ _ => argumentDefinitions_yields.bind fun _ _ => ?_
  refine constantDirectives_keeps.bind fun _ _ => (acceptKeyword_keeps _).bind fun _ _ => ?_
  refine (expectKeyword_keeps _).bind fun _ _ => (delimited_yields location _).bind fun _ _ => .pure trivial

theorem definitionOf?_yields {word : String} {body : Parser Statement} (known : definitionOf? word = some body) :
    body.Yields Statement.Proper := by
  unfold definitionOf? at known
  split at known <;> cases known
  · exact schemaDefinition_yields
  · exact scalarDefinition_yields
  · exact objectDefinition_yields
  · exact interfaceDefinition_yields
  · exact unionDefinition_yields
  · exact enumDefinition_yields
  · exact inputDefinition_yields
  · exact directiveDefinition_yields
  · exact operationDefinition_yields
  · exact operationDefinition_yields
  · exact operationDefinition_yields
  · exact fragmentDefinition_yields

theorem requireContent_keeps (given : Bool) : (requireContent given).Keeps :=
  .ite (fun _ => .pure trivial) fun _ => current_yields.bind fun _ _ => fail_yields _ _

theorem objectExtension_yields : objectExtension.Yields Statement.Proper := by
  refine name_yields.bind fun _ named => interfaces_keeps.bind fun _ _ => constantDirectives_keeps.bind fun _ _ => ?_
  exact fieldDefinitions_yields.bind fun _ read => (requireContent_keeps _).bind fun _ _ => .pure ⟨named, read⟩

theorem extensionOf?_yields {word : String} {body : Parser Statement} (known : extensionOf? word = some body) :
    body.Yields Statement.Proper := by
  unfold extensionOf? at known
  split at known <;> cases known
  · refine constantDirectives_keeps.bind fun _ _ => (optionalBetween_yields rootName_yields _ _).bind fun _ _ => ?_
    exact (requireContent_keeps _).bind fun _ _ => .pure trivial
  · refine name_yields.bind fun _ _ => constantDirectives_keeps.bind fun _ _ => ?_
    exact (requireContent_keeps _).bind fun _ _ => .pure trivial
  · exact objectExtension_yields
  · exact objectExtension_yields.bind fun _ _ => .pure trivial
  · refine name_yields.bind fun _ _ => constantDirectives_keeps.bind fun _ _ => unionMembers_yields.bind fun _ _ => ?_
    exact (requireContent_keeps _).bind fun _ _ => .pure trivial
  · refine name_yields.bind fun _ _ => constantDirectives_keeps.bind fun _ _ => enumValues_yields.bind fun _ _ => ?_
    exact (requireContent_keeps _).bind fun _ _ => .pure trivial
  · refine name_yields.bind fun _ _ => constantDirectives_keeps.bind fun _ _ => inputFields_yields.bind fun _ _ => ?_
    exact (requireContent_keeps _).bind fun _ _ => .pure trivial
  · refine (expect_keeps _).bind fun _ _ => name_yields.bind fun _ _ => constantDirectives_keeps.bind fun _ _ => ?_
    exact (requireContent_keeps _).bind fun _ _ => .pure trivial

theorem extension_yields : extension.Yields Statement.Proper := by
  refine lookahead_keeps.bind fun found _ => ?_
  split
  · split
    next body known =>
      exact advance_keeps.bind fun _ _ => advance_keeps.bind fun _ _ => extensionOf?_yields known
    next => exact fail_yields _ _
  · exact fail_yields _ _

theorem definitionWith_yields (described : Bool) (keyword : Option Token) :
    (definitionWith described keyword).Yields Statement.Proper := by
  unfold definitionWith
  split
  · split
    next body known => exact definitionOf?_yields known
    next =>
      refine .ite (fun _ => fail_yields _ _) fun _ => .ite (fun _ => extension_yields) fun _ => fail_yields _ _
  · exact .ite (fun _ => fail_yields _ _) fun _ => fail_yields _ _
  · exact fail_yields _ _

theorem definition_yields : definition.Yields Statement.Proper := by
  refine current_yields.bind fun found _ => ?_
  split
  · exact (selectionSet_keeps _).bind fun _ _ => .pure trivial
  · exact lookahead_keeps.bind fun _ _ => definitionWith_yields _ _
  · exact lookahead_keeps.bind fun _ _ => definitionWith_yields _ _
  · exact definitionWith_yields _ _

theorem document_yields : document.Yields fun statements => ∀ statement ∈ statements, statement.Proper := by
  refine definition_yields.bind fun _ first => remaining_keeps.bind fun _ _ => ?_
  exact (itemsToEnd_yields definition_yields _).bind fun _ later => .pure (List.forall_mem_cons.mpr ⟨first, later⟩)

/-- The statements that a text is read as are proper. -/
theorem parseDocument_proper {text : String} {statements : List Statement}
    (read : parseDocument text = .ok statements) : ∀ statement ∈ statements, statement.Proper := by
  obtain ⟨tokens, checked, read⟩ := bind_eq_ok read
  obtain ⟨⟨result, rest⟩, parsed, done⟩ := bind_eq_ok read
  cases done
  have proper : tokens.Proper := by
    have scanned := scan_proper text.toList
    cases found : scan text.toList with
    | done =>
      rw [found] at checked
      cases checked
      trivial
    | fault error =>
      rw [found] at checked
      cases checked
    | next token others =>
      rw [found] at checked scanned
      cases checked
      exact scanned
  exact (document_yields tokens statements rest proper parsed).2

end Source

end SchemaScribe
