import SchemaScribe.Schema.Filter
import SchemaScribe.Proofs.Documents
import SchemaScribe.Proofs.Merging

/-! What is built under one name depends on the statements of that name alone. So it makes no difference whether
definitions are dropped by their names after a schema is built, or their statements before. -/

namespace SchemaScribe
open Source (Statement)

/-- What is left of the statements when those of unwanted names are dropped. Statements without a name are kept, but
those of them that add nothing to a schema may be dropped as well. -/
inductive Source.Selection (wanted : String → Bool) : List Statement → List Statement → Prop where
  | nil : Selection wanted [] []
  | kept {statement : Statement} {statements left : List Statement} (passes : statement.name?.all wanted)
      (rest : Selection wanted statements left) : Selection wanted (statement :: statements) (statement :: left)
  | dropped {statement : Statement} {statements left : List Statement} {name : String}
      (named : statement.name? = some name) (unwanted : wanted name = false) (rest : Selection wanted statements left) :
      Selection wanted (statement :: statements) left
  | idle {statement : Statement} {statements left : List Statement}
      (nothing : statement = .unmodelled ∨ ∃ names, statement = .extendRoots names)
      (rest : Selection wanted statements left) : Selection wanted (statement :: statements) left

theorem Source.Selection.of_filter (wanted : String → Bool) (statements : List Statement) :
    Selection wanted statements (statements.filter fun statement => statement.name?.all wanted) := by
  induction statements with
  | nil => exact .nil
  | cons head rest ih =>
    rw [List.filter_cons]
    split
    next passes => exact .kept passes ih
    next fails =>
      cases named : head.name? with
      | none => exact absurd (by rw [named]; rfl) fails
      | some name =>
        rw [named] at fails
        exact .dropped named (eq_false_of_ne_true fails) ih

/-- Every filter keeps the name. -/
def NameFilter.allKeep (rules : List NameFilter) (name : String) : Bool :=
  rules.all (·.keeps name)

namespace Schema

/-- The schema without the definitions of unwanted names. -/
def restrict (schema : Schema) (wanted : String → Bool) : Schema :=
  { schema with definitions := schema.definitions.filter fun definition => wanted definition.name }

variable {schema : Schema} {wanted : String → Bool}

/-- Filters in a row let through what each of them lets through. -/
theorem filterAll_eq_restrict (schema : Schema) (rules : List NameFilter) :
    schema.filterAll rules = schema.restrict (NameFilter.allKeep rules) := by
  induction rules generalizing schema with
  | nil => simp [filterAll, restrict, NameFilter.allKeep]
  | cons rule rest ih =>
    have step : schema.filterAll (rule :: rest) = (schema.filter rule).filterAll rest := rfl
    rw [step, ih]
    simp only [restrict, filter, NameFilter.allKeep, List.filter_filter, List.all_cons, Bool.and_comm]

theorem restrict_add_of_kept {definition : Definition} (passes : wanted definition.name) :
    (schema.add definition).restrict wanted = (schema.restrict wanted).add definition := by
  simp [restrict, add, passes]

theorem restrict_add_of_dropped {definition : Definition} (unwanted : wanted definition.name = false) :
    (schema.add definition).restrict wanted = schema.restrict wanted := by
  simp [restrict, add, unwanted]

/-- A wanted name leads to the same object type as before. -/
theorem objectType?_restrict {name : String} (passes : wanted name) :
    (schema.restrict wanted).objectType? name = schema.objectType? name := by
  rw [objectType?, objectType?, definition?, definition?, restrict, List.find?_filter]
  congr 2
  funext definition
  by_cases here : definition.name = name
  · simp [here, passes]
  · simp [here]

section Update

variable {update : RecordType → RecordType} {fresh : RecordType}

theorem restrict_updateOrAdd_of_kept (sameName : ∀ type, (update type).name = type.name) (passes : wanted fresh.name) :
    (schema.updateOrAdd update fresh).restrict wanted = (schema.restrict wanted).updateOrAdd update fresh := by
  cases found : schema.objectType? fresh.name with
  | none =>
    have missing : (schema.restrict wanted).objectType? fresh.name = none := (objectType?_restrict passes).trans found
    rw [updateOrAdd_of_missing found, updateOrAdd_of_missing missing]
    exact restrict_add_of_kept passes
  | some type =>
    obtain ⟨here, before, after, split, free⟩ := objectType?_eq_some_iff_split.mp found
    have kept (type : RecordType) (here : type.name = fresh.name) :
        (before ++ .object type :: after).filter (fun definition => wanted definition.name) =
          before.filter (fun definition => wanted definition.name) ++
            .object type :: after.filter (fun definition => wanted definition.name) := by
      have passes : wanted (Definition.object type).name := (congrArg wanted here).trans passes
      rw [List.filter_append, List.filter_cons, if_pos passes]
    have restricted : (schema.restrict wanted).definitions = _ := (congrArg _ split).trans (kept type here)
    rw [updateOrAdd_of_found split free here, updateOrAdd_of_found restricted ?_ here, restrict]
    · rw [kept (update type) ((sameName type).trans here)]
      rfl
    · intro definition member
      exact free definition (List.mem_filter.mp member).1

theorem restrict_updateOrAdd_of_dropped (sameName : ∀ type, (update type).name = type.name)
    (unwanted : wanted fresh.name = false) :
    (schema.updateOrAdd update fresh).restrict wanted = schema.restrict wanted := by
  cases found : schema.objectType? fresh.name with
  | none =>
    rw [updateOrAdd_of_missing found]
    exact restrict_add_of_dropped unwanted
  | some type =>
    obtain ⟨here, before, after, split, free⟩ := objectType?_eq_some_iff_split.mp found
    have gone (type : RecordType) (here : type.name = fresh.name) :
        (before ++ .object type :: after).filter (fun definition => wanted definition.name) =
          before.filter (fun definition => wanted definition.name) ++
            after.filter (fun definition => wanted definition.name) := by
      have fails : wanted (Definition.object type).name = false := (congrArg wanted here).trans unwanted
      rw [List.filter_append, List.filter_cons, if_neg (by rw [fails]; exact Bool.false_ne_true)]
    rw [updateOrAdd_of_found split free here, restrict, restrict, split, gone type here,
      gone (update type) ((sameName type).trans here)]

end Update

section Apply

variable {statement : Statement}

/-- A statement of a wanted name, or without a name, does the same to what is left of a schema. -/
theorem restrict_apply_of_kept (passes : statement.name?.all wanted) :
    (schema.apply statement).restrict wanted = (schema.restrict wanted).apply statement := by
  cases statement with
  | object type => exact restrict_updateOrAdd_of_kept (fun _ => rfl) passes
  | extendObject name fields => exact restrict_updateOrAdd_of_kept (fun _ => rfl) passes
  | input type => exact restrict_add_of_kept passes
  | enum type => exact restrict_add_of_kept passes
  | union type => exact restrict_add_of_kept passes
  | roots names => rfl
  | extendInput | extendEnum | extendUnion | extendRoots | unmodelled => rfl

theorem restrict_apply_of_dropped {name : String} (named : statement.name? = some name)
    (unwanted : wanted name = false) : (schema.apply statement).restrict wanted = schema.restrict wanted := by
  cases statement with
  | object type =>
    cases named
    exact restrict_updateOrAdd_of_dropped (fun _ => rfl) unwanted
  | extendObject own fields =>
    cases named
    exact restrict_updateOrAdd_of_dropped (fun _ => rfl) unwanted
  | input type =>
    cases named
    exact restrict_add_of_dropped unwanted
  | enum type =>
    cases named
    exact restrict_add_of_dropped unwanted
  | union type =>
    cases named
    exact restrict_add_of_dropped unwanted
  | roots names => cases named
  | extendInput | extendEnum | extendUnion | extendRoots | unmodelled => rfl

theorem restrict_applyAll (schema : Schema) {statements left : List Statement}
    (selection : Source.Selection wanted statements left) :
    (schema.applyAll statements).restrict wanted = (schema.restrict wanted).applyAll left := by
  induction selection generalizing schema with
  | nil => rfl
  | kept passes rest ih => exact (ih _).trans (congrArg (applyAll · _) (restrict_apply_of_kept passes))
  | dropped named unwanted rest ih =>
    exact (ih _).trans (congrArg (applyAll · _) (restrict_apply_of_dropped named unwanted))
  | idle nothing rest ih =>
    rcases nothing with rfl | ⟨names, rfl⟩
    · exact ih schema
    · exact ih schema

end Apply

section Definitions

/-- The definitions that a statement leads to do not depend on the names of the roots. -/
theorem definitions_apply_congr {first second : Schema} (same : first.definitions = second.definitions)
    (statement : Statement) : (first.apply statement).definitions = (second.apply statement).definitions := by
  have updated (update : RecordType → RecordType) (fresh : RecordType) :
      (first.updateOrAdd update fresh).definitions = (second.updateOrAdd update fresh).definitions := by
    rw [updateOrAdd, updateOrAdd, same]
    cases updateObject? fresh.name update second.definitions with
    | none => exact congrArg (· ++ _) same
    | some definitions => rfl
  cases statement with
  | object type => exact updated _ _
  | extendObject name fields => exact updated _ _
  | input type => exact congrArg (· ++ _) same
  | enum type => exact congrArg (· ++ _) same
  | union type => exact congrArg (· ++ _) same
  | roots names => exact same
  | extendInput | extendEnum | extendUnion | extendRoots | unmodelled => exact same

theorem definitions_applyAll_congr {first second : Schema} (same : first.definitions = second.definitions)
    (statements : List Statement) :
    (first.applyAll statements).definitions = (second.applyAll statements).definitions := by
  induction statements generalizing first second with
  | nil => exact same
  | cons head rest ih => exact ih (definitions_apply_congr same head)

theorem definitions_apply_of_nameless (schema : Schema) {statement : Statement} (nameless : statement.name? = none) :
    (schema.apply statement).definitions = schema.definitions := by
  cases statement with
  | roots names => rfl
  | extendRoots names => rfl
  | unmodelled => rfl
  | object | extendObject | input | extendInput | enum | extendEnum | union | extendUnion => cases nameless

theorem definitions_applyAll_named (schema : Schema) (statements : List Statement) :
    (schema.applyAll (statements.filter (·.name?.isSome))).definitions = (schema.applyAll statements).definitions := by
  induction statements generalizing schema with
  | nil => rfl
  | cons head rest ih =>
    rw [List.filter_cons]
    split
    next => exact ih (schema.apply head)
    next nameless =>
      have unchanged := definitions_apply_of_nameless schema (Option.not_isSome_iff_eq_none.mp nameless)
      exact (ih schema).trans (definitions_applyAll_congr unchanged.symm rest)

/-- The definitions of one name come from the statements of that name. -/
theorem definitions_applyAll_of_name (statements : List Statement) (name : String) :
    (({} : Schema).applyAll statements).definitions.filter (·.name = name) =
      (({} : Schema).applyAll (statements.filter (·.name? = some name))).definitions := by
  have own (statement : Statement) :
      (statement.name?.isSome && statement.name?.all fun other => decide (other = name)) =
        decide (statement.name? = some name) := by
    cases statement.name? with
    | none => rfl
    | some other => simp
  have restricted := restrict_applyAll {} (.of_filter (fun other => decide (other = name)) statements)
  refine (congrArg Schema.definitions restricted).trans ?_
  refine (definitions_applyAll_named _ _).symm.trans ?_
  rw [List.filter_filter]
  simp only [own]
  rfl

end Definitions

/-- A schema that is filtered by name is the schema of the statements that pass all filters, whatever the order of the
filters is; and what is built under a name is the same whenever the statements of that name are. -/
theorem filterAll_applyAll_comm (rules : List NameFilter) (statements : List Statement) :
    (∀ left, Source.Selection (NameFilter.allKeep rules) statements left →
      (∀ reordered : List NameFilter, reordered.Perm rules →
        (({} : Schema).applyAll statements).filterAll reordered = ({} : Schema).applyAll left) ∧
      ∀ documents filtered, Source.Hold documents statements → Source.Hold filtered left →
        ∃ built, ({} : Schema).addSources documents = .ok built ∧
          ({} : Schema).addSources filtered = .ok (built.filterAll rules)) ∧
    Source.Selection (NameFilter.allKeep rules) statements
      (statements.filter fun statement => statement.name?.all (NameFilter.allKeep rules)) ∧
    ∀ name others, others.filter (·.name? = some name) = statements.filter (·.name? = some name) →
      (({} : Schema).applyAll others).definitions.filter (·.name = name) =
        (({} : Schema).applyAll statements).definitions.filter (·.name = name) := by
  refine ⟨fun left selection => ?_, .of_filter _ _, fun name others same => ?_⟩
  · have filtered (reordered : List NameFilter) (perm : reordered.Perm rules) :
        (({} : Schema).applyAll statements).filterAll reordered = ({} : Schema).applyAll left := by
      have sameRules : NameFilter.allKeep reordered = NameFilter.allKeep rules := funext fun name => perm.all_eq
      rw [filterAll_eq_restrict, sameRules]
      exact restrict_applyAll {} selection
    refine ⟨filtered, fun documents others held heldLeft => ?_⟩
    refine ⟨_, addSources_eq_ok_iff.mpr ⟨statements, held, rfl⟩, ?_⟩
    exact addSources_eq_ok_iff.mpr ⟨left, heldLeft, filtered rules (.refl rules)⟩
  · rw [definitions_applyAll_of_name, definitions_applyAll_of_name, same]

/-- An object type with its extension in another document, an enum, a scalar, a union and a root. -/
def fleetStatements : List Statement :=
  [.object { name := "_Ship", fields := [{ name := "name", type := .named "Int" false }] },
   .enum { name := "Origin", values := [{ name := "EARTH" }] }, .unmodelled] ++
  [.extendObject "_Ship" [{ name := "crew", type := .named "Int" false }],
   .union { name := "Any", members := ["Pilot"] }, .roots [(.query, "_Ship")]]

/-- Two filters leave the enum and the root. -/
theorem filterAll_applyAll_comm_fleet :
    let rules : List NameFilter := [{ excludeStart := some "_" }, { excludeEnd := some "y" }]
    let documents := [("first.graphql", "type _Ship \x7b name: Int \x7d enum Origin \x7b EARTH \x7d scalar Date"),
      ("second.graphql", "extend type _Ship \x7b crew: Int \x7d union Any = Pilot schema \x7b query: _Ship \x7d")]
    let filtered := [("only.graphql", "enum Origin \x7b EARTH \x7d schema \x7b query: _Ship \x7d")]
    ∃ built, ({} : Schema).addSources documents = .ok built ∧
      built.definitions.map (·.memberNames) = [["name", "crew"], ["EARTH"], ["Pilot"]] ∧
      ({} : Schema).addSources filtered = .ok (built.filterAll rules) := by
  intro rules documents filtered
  let left : List Statement := [.enum { name := "Origin", values := [{ name := "EARTH" }] }, .roots [(.query, "_Ship")]]
  have held : Source.Hold documents fleetStatements :=
    have first : Source.statementsOf _ = .ok (fleetStatements.take 3) := by decide +kernel
    have second : Source.statementsOf _ = .ok (fleetStatements.drop 3) := by decide +kernel
    .cons first (.cons second .nil)
  have heldLeft : Source.Hold filtered left :=
    have only : Source.statementsOf _ = .ok left := by decide +kernel
    .cons only .nil
  have selection : Source.Selection (NameFilter.allKeep rules) fleetStatements left :=
    .dropped rfl rfl (.kept rfl (.idle (.inl rfl) (.dropped rfl rfl (.dropped rfl rfl (.kept rfl .nil)))))
  obtain ⟨built, added, same⟩ :=
    ((filterAll_applyAll_comm rules fleetStatements).1 left selection).2 documents filtered held heldLeft
  have only : built = ({} : Schema).applyAll fleetStatements :=
    Except.ok.inj (added.symm.trans (addSources_eq_ok_iff.mpr ⟨_, held, rfl⟩))
  exact ⟨built, added, by rw [only]; decide, same⟩

end Schema

end SchemaScribe
