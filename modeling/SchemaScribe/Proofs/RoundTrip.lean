import SchemaScribe.Proofs.CanonicalText
import SchemaScribe.Proofs.ExtensionOrder

/-! Reading the canonical text of a schema gives back the schema. Only a type that nests more lists than the grammar
allows stands in the way, and then the document is refused for that reason. -/

namespace SchemaScribe
open Source (Statement nestingLimit)

/-- A statement that can be told from its canonical text. -/
def Source.Statement.Canonical : Statement → Prop
  | .object type => ∀ field ∈ type.fields, field.WellTyped ∧ ∀ argument ∈ field.arguments, argument.defaultText = none
  | .input type => ∀ field ∈ type.fields, field.WellTyped ∧ field.arguments = []
  | .enum type => ∀ value ∈ type.values, value.name ∉ ["true", "false", "null"]
  | .union _ => True
  | .roots names => names ≠ []
  | _ => False

def Source.Statement.Shallow : Statement → Prop
  | .object type => ∀ field ∈ type.fields, field.Shallow
  | .input type => ∀ field ∈ type.fields, field.Shallow
  | _ => True

namespace Source
open SchemaScribe.Source.Parser

/-- What may follow a definition. Behind an object type the word `implements` would belong to it. -/
def DefinitionEnds (rest : List Token) : Prop :=
  Boundary rest ∧ rest.head? ≠ some (.name "implements")

section Definitions

theorem head?_between_ne {opening close : Punctuator} {written : α → List Token} {items : List α} {token : Token}
    {rest : List Token} (other : token ≠ .punctuator opening) (absent : rest.head? ≠ some token) :
    (between opening close written items ++ rest).head? ≠ some token := by
  cases items with
  | nil => exact absent
  | cons first others => exact fun same => other (Option.some.inj same).symm

theorem interfaces_reads : interfaces.Reads [] false True fun rest => rest.head? ≠ some (.name "implements") :=
  (acceptKeyword_absent "implements").last (.ite_neg Bool.false_ne_true .pure)

/-- All definitions begin alike, with a description, a keyword and a name. -/
theorem definitionTokens_reads {next : Option String → String → Parser Statement} {body : List Token}
    {statement : Statement} {fits : Prop} (keyword : String) (describing : Option String) (text : String)
    (reads : (next describing text).Reads body statement fits DefinitionEnds) :
    Reads (do
        let description ← description
        expectKeyword keyword
        let name ← name
        next description name)
      (definitionTokens keyword describing text body) statement fits DefinitionEnds := by
  refine (description_reads describing).bind ?_ fun _ _ => ⟨_, _, rfl⟩
  refine (expectKeyword_reads keyword).bind ?_ fun _ _ => trivial
  exact (name_reads text).bind reads fun _ _ => trivial

/-- There are no directives in front of what stands in brackets, or of the next definition. -/
theorem directives_between {next : Bool → Parser Statement} {written : α → List Token} {items : List α}
    {statement : Statement} {fits : Prop}
    (reads : (next false).Reads (between .braceOpen .braceClose written items) statement fits DefinitionEnds) :
    (constantDirectives >>= next).Reads (between .braceOpen .braceClose written items) statement fits DefinitionEnds :=
  constantDirectives_reads.bind reads fun _ ends => head?_between_ne (by decide) (ends.1.head?_ne (by decide))

theorem objectDefinition_reads {type : RecordType} (canonical : (Statement.object type).Canonical) :
    objectDefinition.Reads (Statement.object type).tokens (.object type) (Statement.object type).Shallow
      DefinitionEnds := by
  have body := fieldDefinitions_reads (fun field inside => (canonical field inside).1)
    fun field inside => (canonical field inside).2
  refine definitionTokens_reads "type" type.description type.name ?_
  refine interfaces_reads.bind (directives_between ?_) fun _ ends => head?_between_ne nofun ends.2
  exact .map (.weaken body fun _ ends => ends.1.head?_ne (by decide))

theorem inputDefinition_reads {type : RecordType} (canonical : (Statement.input type).Canonical) :
    inputDefinition.Reads (Statement.input type).tokens (.input type) (Statement.input type).Shallow
      DefinitionEnds := by
  have body := inputFields_reads (fun field inside => (canonical field inside).1)
    fun field inside => (canonical field inside).2
  refine definitionTokens_reads "input" type.description type.name (directives_between ?_)
  exact .map (.weaken body fun _ ends => ends.1.head?_ne (by decide))

theorem enumDefinition_reads {type : EnumType} (canonical : (Statement.enum type).Canonical) :
    enumDefinition.Reads (Statement.enum type).tokens (.enum type) True DefinitionEnds := by
  refine definitionTokens_reads "enum" type.description type.name (directives_between ?_)
  exact .map (.weaken (enumValues_reads canonical) fun _ ends => ends.1.head?_ne (by decide))

theorem unionDefinition_reads (type : UnionType) :
    unionDefinition.Reads (Statement.union type).tokens (.union type) True DefinitionEnds := by
  have plain (rest : List Token) (ends : DefinitionEnds rest) :
      (memberTokens type.members ++ rest).head? ≠ some (.punctuator .atSign) := by
    cases type.members with
    | nil => exact ends.1.head?_ne (by decide)
    | cons first others => exact nofun
  refine definitionTokens_reads "union" type.description type.name ?_
  exact constantDirectives_reads.bind (.map (.weaken (unionMembers_reads type.members) fun _ ends => ends.1)) plain

theorem schemaDefinition_reads {names : List (Operation × String)} (given : names ≠ []) :
    schemaDefinition.Reads (Statement.roots names).tokens (.roots names) True DefinitionEnds := by
  have each : ReadsEach rootName rootTokens (fun _ => True) Anything names :=
    { reads := fun entry _ => rootName_reads entry
      begins := fun _ _ => ⟨_, _, rfl, nofun⟩
      joins := fun _ _ _ => trivial }
  cases names with
  | nil => exact absurd rfl given
  | cons first rest =>
    have body := (manyBetween_reads .braceOpen .braceClose each fun _ => trivial).congr
      (iff_of_true (fun _ _ => trivial) trivial)
    refine (description_reads none).bind ?_ fun _ _ => ⟨_, _, rfl⟩
    refine (expectKeyword_reads "schema").bind ?_ fun _ _ => trivial
    exact constantDirectives_reads.bind (.map (.weaken body fun _ _ => trivial)) fun _ _ => nofun

/-- The keyword, which may stand behind a description, leads to the rule for the definition. -/
theorem definition_reads {keyword : String} {rule : Parser Statement} {more : List Token} {statement : Statement}
    {fits : Prop} {follows : List Token → Prop} (known : definitionOf? keyword = some rule) (describing : Option String)
    (reads : rule.Reads (descriptionTokens describing ++ .name keyword :: more) statement fits follows) :
    definition.Reads (descriptionTokens describing ++ .name keyword :: more) statement fits follows := by
  have found (described : Bool) : definitionWith described (some (.name keyword)) = rule := by
    simp only [definitionWith, known]
  intro rest ends
  have same : definition (.ofList (descriptionTokens describing ++ .name keyword :: more ++ rest)) =
      rule (.ofList (descriptionTokens describing ++ .name keyword :: more ++ rest)) := by
    cases describing with
    | none => exact congrFun (found false) _
    | some text => exact congrFun (found true) _
  rw [same]
  exact reads rest ends

theorem statement_reads {statement : Statement} (canonical : statement.Canonical) :
    definition.Reads statement.tokens statement statement.Shallow DefinitionEnds := by
  cases statement with
  | object type => exact definition_reads rfl type.description (objectDefinition_reads canonical)
  | input type => exact definition_reads rfl type.description (inputDefinition_reads canonical)
  | enum type => exact definition_reads rfl type.description (enumDefinition_reads canonical)
  | union type => exact definition_reads rfl type.description (unionDefinition_reads type)
  | roots names => exact definition_reads rfl none (schemaDefinition_reads canonical)
  | extendObject | extendInput | extendEnum | extendUnion | extendRoots | unmodelled => cases canonical

end Definitions

section Documents

variable {statements : List Statement}

/-- Whatever is defined, its keyword comes first or after a description. -/
theorem exists_keyword {statement : Statement} (canonical : statement.Canonical) :
    ∃ describing keyword more, statement.tokens = descriptionTokens describing ++ .name keyword :: more ∧
      keyword ≠ "implements" := by
  cases statement with
  | object type => exact ⟨type.description, "type", _, rfl, by decide⟩
  | input type => exact ⟨type.description, "input", _, rfl, by decide⟩
  | enum type => exact ⟨type.description, "enum", _, rfl, by decide⟩
  | union type => exact ⟨type.description, "union", _, rfl, by decide⟩
  | roots names => exact ⟨none, "schema", _, rfl, by decide⟩
  | extendObject | extendInput | extendEnum | extendUnion | extendRoots | unmodelled => cases canonical

theorem begins_tokens {statement : Statement} (canonical : statement.Canonical) : Begins statement.tokens := by
  obtain ⟨describing, keyword, more, written, -⟩ := exists_keyword canonical
  rw [written]
  exact begins_described describing keyword more

theorem definitionEnds_tokens {statement : Statement} (canonical : statement.Canonical) (rest : List Token) :
    DefinitionEnds (statement.tokens ++ rest) := by
  refine ⟨(begins_tokens canonical).boundary rest, ?_⟩
  obtain ⟨describing, keyword, more, written, other⟩ := exists_keyword canonical
  rw [written]
  cases describing with
  | none => exact fun same => other (Token.name.inj (Option.some.inj same))
  | some text => simp [descriptionTokens]

theorem readsEach_definition (canonical : ∀ statement ∈ statements, statement.Canonical) :
    ReadsEach definition Statement.tokens Statement.Shallow DefinitionEnds statements :=
  { reads := fun statement inside => statement_reads (canonical statement inside)
    begins := fun statement inside => begins_tokens (canonical statement inside)
    joins := fun statement inside => definitionEnds_tokens (canonical statement inside) }

theorem document_reads (given : statements ≠ []) (canonical : ∀ statement ∈ statements, statement.Canonical) :
    document.Reads (statements.flatMap Statement.tokens) statements (∀ statement ∈ statements, statement.Shallow)
      (· = []) := by
  have ends : DefinitionEnds [] := ⟨nofun, nofun⟩
  cases statements with
  | nil => exact absurd rfl given
  | cons first rest =>
    obtain ⟨head, -, tail⟩ := (readsEach_definition canonical).cons
    refine .congr ?_ List.forall_mem_cons.symm
    refine head.bindFitting ?_ fun more none => tail.follows_append (none ▸ ends)
    exact .bounded (fun bound enough => .map (itemsToEnd_reads tail ends enough)) tail.length_le

theorem tokens_plain (proper : ∀ statement ∈ statements, statement.Proper) :
    ∀ token ∈ statements.flatMap Statement.tokens, token.Plain := by
  intro token member
  obtain ⟨statement, inside, here⟩ := List.mem_flatMap.mp member
  exact Statement.tokens_plain (proper statement inside) token here

/-- The text of statements is read as these statements, unless it is nested too deeply. -/
theorem parseDocument_spell (given : statements ≠ []) (canonical : ∀ statement ∈ statements, statement.Canonical)
    (proper : ∀ statement ∈ statements, statement.Proper) :
    ((∀ statement ∈ statements, statement.Shallow) →
      parseDocument (spell (statements.flatMap Statement.tokens)) = .ok statements) ∧
    (¬(∀ statement ∈ statements, statement.Shallow) →
      parseDocument (spell (statements.flatMap Statement.tokens)) = .error .nestedTooDeeply) := by
  obtain ⟨reads, refused⟩ := document_reads given canonical [] rfl
  rw [List.append_nil] at reads refused
  rw [parseDocument, parseText, scan_spell (tokens_plain proper), Tokens.checked_ofList]
  constructor
  · intro shallow
    change document.run _ >>= _ = _
    rw [StateT.run, reads shallow]
    rfl
  · intro deep
    change document.run _ >>= _ = _
    rw [StateT.run, refused deep]
    rfl

end Documents

end Source

namespace Schema

variable {schema : Schema}

section Building

theorem apply_statement {definition : Definition}
    (free : ∀ known ∈ schema.definitions, known.name ≠ definition.name) :
    schema.apply definition.statement = schema.add definition := by
  cases definition with
  | object type => exact updateOrAdd_of_free free rfl _
  | input type => rfl
  | enum type => rfl
  | union type => rfl

/-- Definitions whose names differ are added one by one. -/
theorem applyAll_map_statement {definitions : List Definition}
    (distinct : ((schema.definitions ++ definitions).map (·.name)).Nodup) :
    schema.applyAll (definitions.map Definition.statement) =
      { schema with definitions := schema.definitions ++ definitions } := by
  induction definitions generalizing schema with
  | nil =>
    rw [List.append_nil]
    rfl
  | cons definition rest ih =>
    have free : ∀ known ∈ schema.definitions, known.name ≠ definition.name := by
      intro known member
      rw [List.map_append] at distinct
      have apart := (List.nodup_append.mp distinct).2.2
      exact apart known.name (List.mem_map_of_mem member) definition.name (List.mem_map_of_mem (List.mem_cons_self ..))
    rw [List.append_cons] at distinct ⊢
    have step : schema.applyAll ((definition :: rest).map Definition.statement) =
        (schema.add definition).applyAll (rest.map Definition.statement) := by
      rw [List.map_cons, applyAll, List.foldl_cons, apply_statement free]
      rfl
    rw [step]
    exact ih distinct

theorem apply_entries (definitions : List Definition) (names : RootNames) :
    ({ definitions } : Schema).apply (.roots names.entries) = { definitions, rootNames := some names } := by
  obtain ⟨query, mutation, subscription⟩ := names
  cases query <;> cases mutation <;> cases subscription <;> rfl

/-- A schema is made up by its statements. -/
theorem applyAll_statements (distinct : (schema.definitions.map (·.name)).Nodup) :
    ({} : Schema).applyAll schema.statements = schema := by
  obtain ⟨definitions, rootNames⟩ := schema
  have built : ({} : Schema).applyAll (definitions.map Definition.statement) = { definitions } :=
    applyAll_map_statement distinct
  rw [statements, applyAll_append, built]
  cases rootNames with
  | none => rfl
  | some names => exact apply_entries definitions names

end Building

/-- What the canonical text can tell of a schema: names that differ, types that are types, and nothing but descriptions
beside the names and types. -/
structure Canonical (schema : Schema) : Prop where
  distinct : (schema.definitions.map (·.name)).Nodup
  named : schema.Named
  wellTyped : schema.WellTyped
  noDefaults : ∀ definition ∈ schema.definitions, ∀ field ∈ definition.fields, ∀ argument ∈ field.arguments,
    argument.defaultText = none
  inputs : ∀ type ∈ schema.definitions.filterMap Definition.input?, ∀ field ∈ type.fields, field.arguments = []
  values : ∀ type ∈ schema.definitions.filterMap Definition.enum?, ∀ value ∈ type.values,
    value.name ∉ ["true", "false", "null"]
  roots : schema.rootNames ≠ some {}

section Statements

theorem mem_statements_iff {statement : Statement} :
    statement ∈ schema.statements ↔ (∃ definition ∈ schema.definitions, definition.statement = statement) ∨
      ∃ names, schema.rootNames = some names ∧ .roots names.entries = statement := by
  simp only [statements, List.mem_append, List.mem_map, Option.mem_toList]

theorem entries_ne_nil {names : RootNames} (given : names ≠ {}) : names.entries ≠ [] := by
  obtain ⟨query, mutation, subscription⟩ := names
  cases query with
  | some root => exact nofun
  | none =>
    cases mutation with
    | some root => exact nofun
    | none =>
      cases subscription with
      | some root => exact nofun
      | none => exact absurd rfl given

theorem mem_entries {names : RootNames} {entry : Operation × String} (member : entry ∈ names.entries) :
    entry.2 ∈ names.names := by
  obtain ⟨operation, -, found⟩ := List.mem_filterMap.mp member
  obtain ⟨root, given, rfl⟩ := Option.map_eq_some_iff.mp found
  refine List.mem_filterMap.mpr ⟨some root, ?_, rfl⟩
  cases operation <;> simp [← given, RootNames.get]

theorem Canonical.statement (canonical : schema.Canonical) : ∀ statement ∈ schema.statements, statement.Canonical := by
  intro statement member
  rcases mem_statements_iff.mp member with ⟨definition, defined, rfl⟩ | ⟨names, given, rfl⟩
  · have wellTyped := canonical.wellTyped definition defined
    cases definition with
    | object type =>
      exact fun field inside => ⟨wellTyped field inside, canonical.noDefaults _ defined field inside⟩
    | input type =>
      have plain := canonical.inputs type (List.mem_filterMap.mpr ⟨_, defined, rfl⟩)
      exact fun field inside => ⟨wellTyped field inside, plain field inside⟩
    | enum type => exact canonical.values type (List.mem_filterMap.mpr ⟨_, defined, rfl⟩)
    | union type => trivial
  · apply entries_ne_nil
    rintro rfl
    exact canonical.roots given

theorem Canonical.proper (canonical : schema.Canonical) : ∀ statement ∈ schema.statements, statement.Proper := by
  intro statement member
  rcases mem_statements_iff.mp member with ⟨definition, defined, rfl⟩ | ⟨names, given, rfl⟩
  · have wellTyped := canonical.wellTyped definition defined
    have named : ∀ name ∈ definition.names, IsName name := fun name inside =>
      canonical.named name (List.mem_append_left _ (List.mem_flatMap.mpr ⟨definition, defined, inside⟩))
    have field : ∀ field ∈ definition.fields, field.Proper := fun field inside =>
      ⟨canonical.named.field defined inside, wellTyped field inside⟩
    cases definition with
    | object type => exact ⟨named type.name (List.mem_cons_self ..), field⟩
    | input type => exact ⟨named type.name (List.mem_cons_self ..), field⟩
    | enum type => exact named
    | union type => exact named
  · intro entry inside
    apply canonical.named
    rw [Schema.names, given]
    exact List.mem_append_right _ (mem_entries inside)

theorem shallow_statements_iff : (∀ statement ∈ schema.statements, statement.Shallow) ↔ schema.Shallow := by
  have own (definition : Definition) :
      definition.statement.Shallow ↔ ∀ field ∈ definition.fields, field.Shallow := by
    cases definition with
    | object type => exact Iff.rfl
    | input type => exact Iff.rfl
    | enum type => exact iff_of_true trivial nofun
    | union type => exact iff_of_true trivial nofun
  constructor
  · intro shallow definition defined
    exact (own definition).mp (shallow _ (mem_statements_iff.mpr (Or.inl ⟨definition, defined, rfl⟩)))
  · intro shallow statement member
    rcases mem_statements_iff.mp member with ⟨definition, defined, rfl⟩ | ⟨names, -, rfl⟩
    · exact (own definition).mpr (shallow definition defined)
    · trivial

end Statements

theorem ofText_of_parsed {text : String} {statements : List Statement} (shown : ¬Text.isBlankText text)
    (read : Source.parseDocument text = .ok statements) (source : String) :
    Schema.ofText text source = .ok (({} : Schema).applyAll statements) := by
  rw [Schema.ofText, addSource, if_neg shown, read]

theorem ofText_of_refused {text : String} {cause : Source.SyntaxError} (shown : ¬Text.isBlankText text)
    (failed : Source.parseDocument text = .error cause) (source : String) :
    Schema.ofText text source = .error (.unreadable source cause) := by
  rw [Schema.ofText, addSource, if_neg shown, failed]

theorem Canonical.not_blank (canonical : schema.Canonical) (given : schema.statements ≠ []) :
    ¬Text.isBlankText schema.sdl := by
  have plain := Source.tokens_plain canonical.proper
  obtain ⟨first, rest, same⟩ := List.exists_cons_of_ne_nil given
  have written := Source.begins_tokens (canonical.statement first (same ▸ List.mem_cons_self ..))
  obtain ⟨token, more, tokens, -⟩ := written.append (rest.flatMap Statement.tokens)
  rw [sdl]
  rw [same, List.flatMap_cons, tokens] at plain ⊢
  exact Source.isBlankText_spell (plain token (List.mem_cons_self ..)) more

theorem Canonical.ofText_of_shallow (canonical : schema.Canonical) (shallow : schema.Shallow) (source : String) :
    Schema.ofText schema.sdl source = .ok schema := by
  have built := applyAll_statements canonical.distinct
  by_cases given : schema.statements = []
  · rw [given] at built
    cases built
    rfl
  · have read := Source.parseDocument_spell given canonical.statement canonical.proper
    rw [ofText_of_parsed (canonical.not_blank given) (read.1 (shallow_statements_iff.mpr shallow)), built]

theorem Canonical.ofText_of_deep (canonical : schema.Canonical) (deep : ¬schema.Shallow) (source : String) :
    Schema.ofText schema.sdl source = .error (.unreadable source .nestedTooDeeply) := by
  have given : schema.statements ≠ [] := by
    intro none
    apply deep
    apply shallow_statements_iff.mp
    rw [none]
    exact nofun
  have read := Source.parseDocument_spell given canonical.statement canonical.proper
  exact ofText_of_refused (canonical.not_blank given) (read.2 (mt shallow_statements_iff.mp deep)) source

/-- The canonical text of a schema is read as that schema, with all descriptions and in the same order, unless a type
nests lists beyond the limit; then it is refused. -/
theorem ofText_sdl (canonical : schema.Canonical) (source : String) :
    (schema.Shallow → Schema.ofText schema.sdl source = .ok schema) ∧
      (¬schema.Shallow → Schema.ofText schema.sdl source = .error (.unreadable source .nestedTooDeeply)) :=
  ⟨fun shallow => canonical.ofText_of_shallow shallow source, fun deep => canonical.ofText_of_deep deep source⟩

/-- Words of the grammar as names, an empty type, types inside types, and a description in need of escapes. -/
def cargo : Schema :=
  let weight : Argument :=
    { name := "implements", type := .list (.list (.named "Int" true) false) true, description := some "" }
  let schema : Field :=
    { name := "schema", type := .list (.named "type" false) true, arguments := [weight, weight]
      description := some "a \"quay\",\n\tb \\ \x7f é 🚢" }
  { definitions :=
      [.object { name := "type", fields := [schema, { name := "implements", type := .named "union" true }] },
       .union { name := "union", members := ["type", "enum"], description := some "\"\"\"" },
       .union { name := "input" },
       .object { name := "enum" }, .enum { name := "query", values := [{ name := "on" }, { name := "extend" }] },
       .input { name := "extend", fields := [{ name := "input", type := .named "query" false }] }]
    rootNames := some { mutation := some "enum", subscription := some "type" } }

theorem cargo_canonical : cargo.Canonical where
  distinct := by decide
  named := by decide +kernel
  wellTyped := by decide
  noDefaults := by decide
  inputs := by decide
  values := by decide
  roots := by decide

theorem ofText_sdl_cargo : cargo.Canonical ∧ cargo.Shallow ∧ Schema.ofText cargo.sdl = .ok cargo := by
  have shallow : cargo.Shallow := by decide
  exact ⟨cargo_canonical, shallow, (ofText_sdl cargo_canonical _).1 shallow⟩

/-- A schema of one field. -/
def ofFieldType (type : TypeRef) : Schema :=
  { definitions := [.object { name := "A", fields := [{ name := "x", type }] }] }

theorem ofFieldType_canonical {type : TypeRef} (named : ∀ name ∈ type.names, IsName name)
    (wellFormed : type.WellFormed) :
    (ofFieldType type).Canonical where
  distinct := List.nodup_singleton _
  named := by
    intro name member
    have declared : IsName "A" ∧ IsName "x" := by decide
    rcases (by simpa [ofFieldType, Schema.names, Definition.names, RecordType.names, Field.names] using member :
      name = "A" ∨ name = "x" ∨ name ∈ type.names) with rfl | rfl | inside
    · exact declared.1
    · exact declared.2
    · exact named name inside
  wellTyped := by simpa [ofFieldType, Schema.WellTyped, Definition.fields, Field.WellTyped] using wellFormed
  noDefaults := by simp [ofFieldType, Definition.fields]
  inputs := by simp [ofFieldType, Definition.input?]
  values := by simp [ofFieldType, Definition.enum?]
  roots := nofun

/-- Lists of integers, as many levels deep as given. -/
def nestedList : Nat → TypeRef
  | 0 => .named "Int" false
  | levels + 1 => .list (nestedList levels) false

theorem nestedList_names (levels : Nat) : (nestedList levels).names = ["Int"] := by
  induction levels with
  | zero => rfl
  | succ levels hypothesis => rw [nestedList, TypeRef.names, hypothesis]

theorem nestedList_wellFormed (levels : Nat) : (nestedList levels).WellFormed := by
  induction levels with
  | zero => rfl
  | succ levels hypothesis => exact hypothesis

theorem nestedList_depth (levels : Nat) : (nestedList levels).depth = levels := by
  induction levels with
  | zero => rfl
  | succ levels hypothesis => rw [nestedList, TypeRef.depth, hypothesis]

/-- One list too many, and a type or a root without a name, cannot be read back. -/
theorem sdl_refused :
    ((ofFieldType (nestedList 201)).Canonical ∧
      Schema.ofText (ofFieldType (nestedList 201)).sdl = .error (.unreadable "<string>" .nestedTooDeeply)) ∧
    Schema.ofText (ofFieldType (.named "" false)).sdl =
      .error (.unreadable "<string>" (.expected .name (some (.punctuator .braceClose)))) ∧
    Schema.ofText { ofFieldType (.named "Int" false) with rootNames := some { query := some "" } }.sdl =
      .error (.unreadable "<string>" (.expected .name (some (.punctuator .braceClose)))) := by
  have canonical : (ofFieldType (nestedList 201)).Canonical := by
    apply ofFieldType_canonical _ (nestedList_wellFormed 201)
    rw [nestedList_names]
    decide
  have deep : ¬(ofFieldType (nestedList 201)).Shallow := by
    intro shallow
    have bounded := (shallow _ (List.mem_singleton_self _) _ (List.mem_singleton_self _)).1
    simp [nestedList_depth, nestingLimit] at bounded
  exact ⟨⟨canonical, canonical.ofText_of_deep deep _⟩, by decide +kernel, by decide +kernel⟩

end Schema

end SchemaScribe
