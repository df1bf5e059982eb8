import SchemaScribe.Proofs.Reading
import SchemaScribe.Proofs.StatementNames

/-! The canonical text of a schema: its definitions in their order with quoted descriptions, brackets only where there
is something inside, and the names of the roots at the end. Every rule of the grammar reads back what is written for
it. -/

namespace SchemaScribe
open Source (Token Statement nestingLimit spell)
open Source.Parser (between)

section Tokens

def descriptionTokens : Option String → List Token
  | none => []
  | some text => [.string text]

def requiredTokens (required : Bool) : List Token :=
  if required then [.punctuator .bang] else []

/-- Nothing can be written for a value that is no reference. -/
def TypeRef.tokens : TypeRef → List Token
  | .named name required => .name name :: requiredTokens required
  | .list element required =>
    .punctuator .bracketOpen :: (element.tokens ++ .punctuator .bracketClose :: requiredTokens required)
  | .malformed _ => []

def Argument.tokens (argument : Argument) : List Token :=
  descriptionTokens argument.description ++ .name argument.name :: .punctuator .colon :: argument.type.tokens

def Field.tokens (field : Field) : List Token :=
  descriptionTokens field.description ++ .name field.name ::
    (between .parenOpen .parenClose Argument.tokens field.arguments ++ .punctuator .colon :: field.type.tokens)

def EnumValue.tokens (value : EnumValue) : List Token :=
  descriptionTokens value.description ++ [.name value.name]

def memberTokens : List String → List Token
  | [] => []
  | first :: rest =>
    .punctuator .equals :: .name first :: rest.flatMap fun member => [.punctuator .pipe, .name member]

def rootTokens (entry : Operation × String) : List Token :=
  [.name entry.1.keyword, .punctuator .colon, .name entry.2]

/-- A definition behind its description and its keyword. -/
def definitionTokens (keyword : String) (description : Option String) (name : String) (body : List Token) :
    List Token :=
  descriptionTokens description ++ .name keyword :: .name name :: body

/-- Extensions and what is not kept of a document have no canonical text. -/
def Source.Statement.tokens : Statement → List Token
  | .object type =>
    definitionTokens "type" type.description type.name (between .braceOpen .braceClose Field.tokens type.fields)
  | .input type =>
    definitionTokens "input" type.description type.name (between .braceOpen .braceClose Field.tokens type.fields)
  | .enum type =>
    definitionTokens "enum" type.description type.name (between .braceOpen .braceClose EnumValue.tokens type.values)
  | .union type => definitionTokens "union" type.description type.name (memberTokens type.members)
  | .roots names => .name "schema" :: between .braceOpen .braceClose rootTokens names
  | _ => []

def Definition.statement : Definition → Statement
  | .object type => .object type
  | .input type => .input type
  | .enum type => .enum type
  | .union type => .union type

/-- The names that are given, in the order query, mutation, subscription. -/
def RootNames.entries (names : RootNames) : List (Operation × String) :=
  [Operation.query, .mutation, .subscription].filterMap fun operation =>
    (names.get operation).map fun root => (operation, root)

/-- The statements that make up the schema. -/
def Schema.statements (schema : Schema) : List Statement :=
  schema.definitions.map Definition.statement ++ schema.rootNames.toList.map fun names => .roots names.entries

/-- The schema as a document. -/
def Schema.sdl (schema : Schema) : String :=
  spell (schema.statements.flatMap Statement.tokens)

example :
    let crew : Field := { name := "crew", type := .list (.named "Int" true) false, description := some "a \"hand\"" }
    ({ definitions :=
         [.object { name := "Ship", fields := [crew] }, .union { name := "Craft", members := ["Ship", "Raft"] }]
       rootNames := some { query := some "Ship" } } : Schema).sdl =
      "type Ship \x7b \"a \\\"hand\\\"\" crew: [Int!] \x7d union Craft = Ship | Raft schema \x7b query: Ship \x7d" := by
  decide +kernel

end Tokens

section Plain

open List (forall_mem_append forall_mem_cons forall_mem_singleton)

theorem descriptionTokens_plain (text : Option String) : ∀ token ∈ descriptionTokens text, token.Plain := by
  cases text with
  | none => exact nofun
  | some text => exact forall_mem_singleton.mpr trivial

theorem requiredTokens_plain (required : Bool) : ∀ token ∈ requiredTokens required, token.Plain := by
  cases required with
  | false => exact nofun
  | true => exact forall_mem_singleton.mpr nofun

theorem between_plain {opening close : Source.Punctuator} {written : α → List Token} {items : List α}
    (opens : opening ≠ .spread) (closes : close ≠ .spread)
    (each : ∀ item ∈ items, ∀ token ∈ written item, token.Plain) :
    ∀ token ∈ between opening close written items, token.Plain := by
  cases items with
  | nil => exact nofun
  | cons first rest =>
    refine forall_mem_cons.mpr ⟨opens, forall_mem_append.mpr ⟨?_, forall_mem_singleton.mpr closes⟩⟩
    intro token member
    obtain ⟨item, inside, here⟩ := List.mem_flatMap.mp member
    exact each item inside token here

theorem TypeRef.tokens_plain {ref : TypeRef} (named : ∀ name ∈ ref.names, IsName name) :
    ∀ token ∈ ref.tokens, token.Plain := by
  induction ref with
  | named name required =>
    have own : IsName name := named name (List.mem_singleton.mpr rfl)
    exact forall_mem_cons.mpr ⟨own, requiredTokens_plain required⟩
  | list element required ih =>
    refine forall_mem_cons.mpr ⟨nofun, forall_mem_append.mpr ⟨ih named, ?_⟩⟩
    exact forall_mem_cons.mpr ⟨nofun, requiredTokens_plain required⟩
  | malformed found => exact nofun

theorem Argument.tokens_plain {argument : Argument} (named : ∀ name ∈ argument.names, IsName name) :
    ∀ token ∈ argument.tokens, token.Plain := by
  obtain ⟨own, type⟩ := forall_mem_cons.mp named
  refine forall_mem_append.mpr ⟨descriptionTokens_plain _, forall_mem_cons.mpr ⟨own, ?_⟩⟩
  exact forall_mem_cons.mpr ⟨nofun, TypeRef.tokens_plain type⟩

theorem Field.tokens_plain {field : Field} (named : ∀ name ∈ field.names, IsName name) :
    ∀ token ∈ field.tokens, token.Plain := by
  obtain ⟨own, others⟩ := forall_mem_cons.mp named
  obtain ⟨type, arguments⟩ := forall_mem_append.mp others
  refine forall_mem_append.mpr ⟨descriptionTokens_plain _, forall_mem_cons.mpr ⟨own, forall_mem_append.mpr ⟨?_, ?_⟩⟩⟩
  · refine between_plain nofun nofun fun argument inside => Argument.tokens_plain fun name member => ?_
    exact arguments name (List.mem_flatMap.mpr ⟨argument, inside, member⟩)
  · exact forall_mem_cons.mpr ⟨nofun, TypeRef.tokens_plain type⟩

theorem definitionTokens_plain {keyword name : String} {body : List Token} (word : IsName keyword) (named : IsName name)
    (description : Option String) (inside : ∀ token ∈ body, token.Plain) :
    ∀ token ∈ definitionTokens keyword description name body, token.Plain := by
  refine forall_mem_append.mpr ⟨descriptionTokens_plain description, ?_⟩
  exact forall_mem_cons.mpr ⟨word, forall_mem_cons.mpr ⟨named, inside⟩⟩

theorem memberTokens_plain {members : List String} (named : ∀ member ∈ members, IsName member) :
    ∀ token ∈ memberTokens members, token.Plain := by
  cases members with
  | nil => exact nofun
  | cons first rest =>
    obtain ⟨head, tail⟩ := forall_mem_cons.mp named
    refine forall_mem_cons.mpr ⟨nofun, forall_mem_cons.mpr ⟨head, fun token member => ?_⟩⟩
    obtain ⟨other, inside, here⟩ := List.mem_flatMap.mp member
    have pair : ∀ token ∈ [Token.punctuator .pipe, .name other], token.Plain :=
      forall_mem_cons.mpr ⟨nofun, forall_mem_singleton.mpr (tail other inside)⟩
    exact pair token here

/-- Where all names are names, nothing is written that could not be read. -/
theorem Source.Statement.tokens_plain {statement : Statement} (proper : statement.Proper) :
    ∀ token ∈ statement.tokens, token.Plain := by
  have record {type : RecordType} (proper : type.Proper) :
      ∀ token ∈ between .braceOpen .braceClose Field.tokens type.fields, token.Plain :=
    between_plain nofun nofun fun field inside => Field.tokens_plain (proper.fields field inside).names
  cases statement with
  | object type => exact definitionTokens_plain (by decide) proper.name _ (record proper)
  | input type => exact definitionTokens_plain (by decide) proper.name _ (record proper)
  | enum type =>
    obtain ⟨own, values⟩ := forall_mem_cons.mp proper
    refine definitionTokens_plain (by decide) own _ (between_plain nofun nofun fun value inside => ?_)
    refine forall_mem_append.mpr ⟨descriptionTokens_plain _, forall_mem_singleton.mpr ?_⟩
    exact values value.name (List.mem_map_of_mem inside)
  | union type =>
    obtain ⟨own, members⟩ := forall_mem_cons.mp proper
    exact definitionTokens_plain (by decide) own _ (memberTokens_plain members)
  | roots names =>
    have word : IsName "schema" := by decide
    refine forall_mem_cons.mpr ⟨word, between_plain nofun nofun fun entry inside => ?_⟩
    have keyword : IsName entry.1.keyword := by cases entry.1 <;> decide
    exact forall_mem_cons.mpr ⟨keyword, forall_mem_cons.mpr ⟨nofun, forall_mem_singleton.mpr (proper entry inside)⟩⟩
  | extendObject | extendInput | extendEnum | extendUnion | extendRoots | unmodelled => exact nofun

end Plain

/-- How many lists stand one inside the other. -/
def TypeRef.depth : TypeRef → Nat
  | .named .. => 0
  | .list element _ => element.depth + 1
  | .malformed _ => 0

def Argument.Shallow (argument : Argument) : Prop :=
  argument.type.depth ≤ nestingLimit

def Field.Shallow (field : Field) : Prop :=
  field.type.depth ≤ nestingLimit ∧ ∀ argument ∈ field.arguments, argument.Shallow

/-- No type nests lists beyond the limit. -/
def Schema.Shallow (schema : Schema) : Prop :=
  ∀ definition ∈ schema.definitions, ∀ field ∈ definition.fields, field.Shallow

instance (field : Field) : Decidable field.Shallow :=
  inferInstanceAs (Decidable (_ ∧ ∀ argument ∈ field.arguments, argument.type.depth ≤ nestingLimit))

instance (schema : Schema) : Decidable schema.Shallow :=
  inferInstanceAs (Decidable (∀ definition ∈ schema.definitions, ∀ field ∈ definition.fields, field.Shallow))

namespace Source
open SchemaScribe.Source.Parser

section Types

theorem fail_reads {next : α → Parser β} (written : List Token) (value : β) (follows : List Token → Prop) :
    Reads (fail .nestedTooDeeply >>= next) written value False follows :=
  fun _ _ => ⟨False.elim, fun _ => rfl⟩

theorem required_reads (ref : Bool → TypeRef) (banged : (ref false).require = ref true) (required : Bool) :
    Reads (do return if ← accept .bang then (ref false).require else ref false) (requiredTokens required) (ref required)
      True Boundary := by
  cases required with
  | false =>
    have absent := (accept_absent .bang).weaken fun _ (boundary : Boundary _) => boundary.head?_ne (by decide)
    exact absent.map (f := fun banged => if banged then (ref false).require else ref false)
  | true =>
    have present := (accept_present .bang).weaken fun rest (_ : Boundary rest) => trivial
    rw [← banged]
    exact present.map (f := fun banged => if banged then (ref false).require else ref false)

theorem typeRef_reads {ref : TypeRef} (wellFormed : ref.WellFormed) (room : Nat) :
    (typeRef room).Reads ref.tokens ref (ref.depth ≤ room) Boundary := by
  induction ref generalizing room with
  | named text required =>
    have ending := required_reads (.named text) rfl required
    refine .congr ?_ (iff_of_true trivial (Nat.zero_le room))
    cases room <;> rw [typeRef]
    all_goals
      refine (accept_absent .bracketOpen).bind (.ite_neg Bool.false_ne_true ?_) fun _ _ => by simp
      exact (name_reads text).bind (.pure_bind ending) fun _ _ => trivial
  | list element required ih =>
    have ending := required_reads (.list element) rfl required
    cases room with
    | zero =>
      rw [typeRef]
      refine .congr ?_ (iff_of_false id (Nat.not_succ_le_zero _))
      exact (accept_present .bracketOpen).bind (.ite_pos rfl (fail_reads _ _ Boundary)) fun _ _ => trivial
    | succ room =>
      rw [typeRef, TypeRef.depth, Nat.add_le_add_iff_right]
      refine .congr ?_ (iff_of_eq (and_true _))
      refine (accept_present .bracketOpen).bind (.ite_pos rfl ?_) fun _ _ => trivial
      refine (ih wellFormed room).bindFitting ?_ fun rest _ => boundary_cons (by decide) _
      exact (expect_reads .bracketClose).bind (.pure_bind ending) fun _ _ => trivial
  | malformed found => cases wellFormed

end Types

section Parts

/-- Behind a description a name has to follow, since another string would be taken for one. -/
def NameFollows (rest : List Token) : Prop :=
  ∃ text more, rest = .name text :: more

theorem description_reads (text : Option String) :
    description.Reads (descriptionTokens text) text True NameFollows := by
  cases text with
  | none =>
    rintro rest ⟨word, more, rfl⟩
    have reads : description.Reads [] none True fun rest => rest.head? = some (.name word) :=
      (current_reads (some (.name word))).bind .pure fun _ same => same
    exact reads _ rfl
  | some text =>
    refine (current_reads (some (.string text))).bind ?_ fun _ _ => rfl
    exact .weaken (advance_reads _).map fun _ _ => trivial

theorem begins_described (text : Option String) (word : String) (more : List Token) :
    Begins (descriptionTokens text ++ .name word :: more) := by
  cases text with
  | none => exact ⟨_, _, rfl, nofun⟩
  | some text => exact ⟨_, _, rfl, nofun⟩

theorem constantDirectives_reads :
    constantDirectives.Reads [] false True fun rest => rest.head? ≠ some (.punctuator .atSign) := by
  refine .bounded (fun bound _ => ?_) (Nat.zero_le _)
  have none : (itemsWhile .atSign (directive true nestingLimit) (bound + 1)).Reads [] [] True fun rest =>
      rest.head? ≠ some (.punctuator .atSign) :=
    (sees_absent .atSign).last (.ite_neg Bool.false_ne_true .pure)
  exact none.map

/-- At a boundary there are no directives. -/
theorem constantDirectives_boundary : constantDirectives.Reads [] false True Boundary :=
  constantDirectives_reads.weaken fun _ boundary => boundary.head?_ne (by decide)

theorem inputValue_reads {argument : Argument} (wellFormed : argument.type.WellFormed)
    (plain : argument.defaultText = none) :
    inputValue.Reads argument.tokens argument argument.Shallow Boundary := by
  obtain ⟨text, type, defaultText, describing⟩ := argument
  cases plain
  refine (description_reads describing).bind ?_ fun _ _ => ⟨_, _, rfl⟩
  refine (name_reads text).bind ?_ fun _ _ => trivial
  refine (expect_reads .colon).bind ?_ fun _ _ => trivial
  refine (typeRef_reads wellFormed nestingLimit).last ?_
  refine ((accept_absent .equals).weaken fun _ boundary => boundary.head?_ne (by decide)).last ?_
  exact .ite_neg Bool.false_ne_true (.pure_bind constantDirectives_boundary.map)

theorem argumentDefinitions_reads {arguments : List Argument}
    (wellFormed : ∀ argument ∈ arguments, argument.type.WellFormed)
    (plain : ∀ argument ∈ arguments, argument.defaultText = none) :
    argumentDefinitions.Reads (between .parenOpen .parenClose Argument.tokens arguments) arguments
      (∀ argument ∈ arguments, argument.Shallow) fun rest => rest.head? ≠ some (.punctuator .parenOpen) := by
  have each : ReadsEach inputValue Argument.tokens Argument.Shallow Boundary arguments :=
    .of_boundary (fun argument inside => inputValue_reads (wellFormed argument inside) (plain argument inside))
      fun _ => begins_described ..
  exact optionalBetween_reads .parenOpen .parenClose each (boundary_cons (by decide))

theorem fieldDefinition_reads {field : Field} (wellTyped : field.WellTyped)
    (plain : ∀ argument ∈ field.arguments, argument.defaultText = none) :
    fieldDefinition.Reads field.tokens field field.Shallow Boundary := by
  obtain ⟨text, type, arguments, describing⟩ := field
  refine (description_reads describing).bind ?_ fun _ _ => ⟨_, _, rfl⟩
  refine (name_reads text).bind ?_ fun _ _ => trivial
  refine .congr ?_ and_comm
  refine (argumentDefinitions_reads wellTyped.2 plain).bindFitting ?_ fun _ _ => nofun
  refine (expect_reads .colon).bind ?_ fun _ _ => trivial
  exact (typeRef_reads wellTyped.1 nestingLimit).last constantDirectives_boundary.map

theorem fieldDefinitions_reads {fields : List Field} (wellTyped : ∀ field ∈ fields, field.WellTyped)
    (plain : ∀ field ∈ fields, ∀ argument ∈ field.arguments, argument.defaultText = none) :
    fieldDefinitions.Reads (between .braceOpen .braceClose Field.tokens fields) fields (∀ field ∈ fields, field.Shallow)
      fun rest => rest.head? ≠ some (.punctuator .braceOpen) := by
  have each : ReadsEach fieldDefinition Field.tokens Field.Shallow Boundary fields :=
    .of_boundary (fun field inside => fieldDefinition_reads (wellTyped field inside) (plain field inside))
      fun _ => begins_described ..
  exact optionalBetween_reads .braceOpen .braceClose each (boundary_cons (by decide))

/-- A field without arguments is written like an argument. -/
def asArgument (field : Field) : Argument :=
  { name := field.name, type := field.type, description := field.description }

theorem tokens_asArgument {field : Field} (plain : field.arguments = []) :
    (asArgument field).tokens = field.tokens := by
  rw [Field.tokens, plain]
  rfl

theorem inputField_asArgument {field : Field} (plain : field.arguments = []) :
    inputField (asArgument field) = field := by
  cases field
  cases plain
  rfl

theorem shallow_asArgument {field : Field} (plain : field.arguments = []) :
    (asArgument field).Shallow ↔ field.Shallow := by
  rw [Field.Shallow, plain]
  exact ⟨fun shallow => ⟨shallow, nofun⟩, And.left⟩

theorem inputFields_reads {fields : List Field} (wellTyped : ∀ field ∈ fields, field.WellTyped)
    (plain : ∀ field ∈ fields, field.arguments = []) :
    inputFields.Reads (between .braceOpen .braceClose Field.tokens fields) fields (∀ field ∈ fields, field.Shallow)
      fun rest => rest.head? ≠ some (.punctuator .braceOpen) := by
  have each : ReadsEach inputValue Argument.tokens Argument.Shallow Boundary (fields.map asArgument) := by
    refine .of_boundary (fun argument inside => ?_) fun _ => begins_described ..
    obtain ⟨field, here, rfl⟩ := List.mem_map.mp inside
    exact inputValue_reads (wellTyped field here).1 rfl
  have back : (fields.map asArgument).map inputField = fields := by
    rw [List.map_map]
    have same := List.map_congr_left fun field inside => inputField_asArgument (plain field inside)
    exact same.trans (List.map_id fields)
  have whole := optionalBetween_reads .braceOpen .braceClose each (boundary_cons (by decide))
  have reads := whole.map (f := List.map inputField)
  rw [back, between_map fun field inside => tokens_asArgument (plain field inside)] at reads
  refine reads.congr ?_
  rw [List.forall_mem_map]
  exact forall₂_congr fun field inside => shallow_asArgument (plain field inside)

theorem enumValue_reads {value : EnumValue} (free : value.name ∉ ["true", "false", "null"]) :
    enumValue.Reads value.tokens value True Boundary := by
  obtain ⟨text, describing⟩ := value
  have unreserved : ¬isReservedValue (.name text) := by
    simpa [isReservedValue, Token.value?, and_assoc] using free
  refine (description_reads describing).bind ?_ fun _ _ => ⟨_, _, rfl⟩
  have named : enumValueName.Reads [.name text] text True Anything :=
    (current_reads (some (.name text))).bind (.ite_neg unreserved (name_reads text)) fun _ _ => rfl
  exact (named.weaken fun _ _ => trivial).last constantDirectives_boundary.map

theorem enumValues_reads {values : List EnumValue} (free : ∀ value ∈ values, value.name ∉ ["true", "false", "null"]) :
    enumValues.Reads (between .braceOpen .braceClose EnumValue.tokens values) values True
      fun rest => rest.head? ≠ some (.punctuator .braceOpen) := by
  have each : ReadsEach enumValue EnumValue.tokens (fun _ => True) Boundary values :=
    .of_boundary (fun value inside => enumValue_reads (free value inside)) fun _ => begins_described ..
  have reads := optionalBetween_reads .braceOpen .braceClose each (boundary_cons (by decide))
  exact reads.congr (iff_of_true (fun _ _ => trivial) trivial)

theorem delimitedRest_reads {members : List String} {bound : Nat} (enough : members.length ≤ bound) :
    (delimitedRest .pipe name (bound + 1)).Reads (members.flatMap fun member => [.punctuator .pipe, .name member])
      members True fun rest => rest.head? ≠ some (.punctuator .pipe) := by
  induction members generalizing bound with
  | nil => exact (accept_absent .pipe).last (.ite_neg Bool.false_ne_true .pure)
  | cons first rest ih =>
    cases bound with
    | zero => cases enough
    | succ bound =>
      refine (accept_present .pipe).bind (.ite_pos rfl ?_) fun _ _ => trivial
      exact (name_reads first).bind (ih (Nat.le_of_succ_le_succ enough)).map fun _ _ => trivial

theorem unionMembers_reads (members : List String) :
    unionMembers.Reads (memberTokens members) members True Boundary := by
  cases members with
  | nil =>
    have absent := (accept_absent .equals).weaken fun _ (boundary : Boundary _) => boundary.head?_ne (by decide)
    exact absent.last (.ite_neg Bool.false_ne_true .pure)
  | cons first rest =>
    refine (accept_present .equals).bind (.ite_pos rfl ?_) fun _ _ => trivial
    refine (accept_absent .pipe).bind ?_ fun _ _ => nofun
    refine (name_reads first).bind ?_ fun _ _ => trivial
    refine .bounded (fun bound enough => .map (.weaken (delimitedRest_reads enough) ?_)) ?_
    · intro rest boundary
      exact boundary.head?_ne (by decide)
    · exact length_le_flatMap fun _ _ => List.cons_ne_nil _ _

theorem rootName_reads (entry : Operation × String) : rootName.Reads (rootTokens entry) entry True Anything := by
  obtain ⟨operation, root⟩ := entry
  have word : operationType.Reads [.name operation.keyword] operation True Anything := by
    refine (name_reads operation.keyword).last ?_
    cases operation <;> exact .pure
  refine word.bind ?_ fun _ _ => trivial
  exact (expect_reads .colon).bind (name_reads root).map fun _ _ => trivial

end Parts

end Source

end SchemaScribe
