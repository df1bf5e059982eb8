import SchemaScribe.Proofs.DeclaredMembers
import SchemaScribe.Proofs.Tables

/-! Whether an object type can be found under its name. The first definition of a name decides, of whatever kind it is,
and it stays the first; so an object type behind a definition of another kind is out of reach for good: nothing is
merged into it, and it serves no operation. -/

namespace SchemaScribe
open Source (Statement)

def HasObject (definitions : List Definition) (name : String) : Prop :=
  ∃ definition ∈ definitions, definition.name = name ∧ definition.kind = .object

/-- The kind of the first definition of that name. -/
def firstKind? (definitions : List Definition) (name : String) : Option TypeKind :=
  (definitions.find? (·.name = name)).map (·.kind)

/-- There are object types of the name, and a definition of another kind comes before all of them. -/
def HidesObject (definitions : List Definition) (name : String) : Prop :=
  HasObject definitions name ∧ firstKind? definitions name ≠ some .object

instance (definitions : List Definition) (name : String) : Decidable (HasObject definitions name) :=
  inferInstanceAs (Decidable (∃ definition ∈ definitions, definition.name = name ∧ definition.kind = .object))

instance (definitions : List Definition) (name : String) : Decidable (HidesObject definitions name) :=
  inferInstanceAs (Decidable (HasObject definitions name ∧ firstKind? definitions name ≠ some .object))

/-- What the statements say of types, extensions without effect apart. -/
def Source.definitionsOf (statements : List Statement) : List Definition :=
  (statements.filter (!·.isIgnored)).filterMap (·.definition?)

open Source (definitionsOf)

theorem Source.Hold.proper {documents : List (String × String)} {statements : List Statement}
    (held : Hold documents statements) : ∀ statement ∈ statements, statement.Proper := by
  induction held with
  | nil => exact nofun
  | cons read rest ih =>
    refine List.forall_mem_append.mpr ⟨?_, ih⟩
    rw [statementsOf] at read
    split at read
    · cases read
      exact nofun
    · exact parseDocument_proper read

theorem Source.Hold.unique {documents : List (String × String)} {statements others : List Statement}
    (held : Hold documents statements) (alsoHeld : Hold documents others) : statements = others := by
  induction held generalizing others with
  | nil =>
    cases alsoHeld
    rfl
  | cons read rest ih =>
    cases alsoHeld with
    | cons otherRead otherRest =>
      cases read.symm.trans otherRead
      rw [ih otherRest]

theorem hasObject_append {first second : List Definition} {name : String} :
    HasObject (first ++ second) name ↔ HasObject first name ∨ HasObject second name := by
  simp [HasObject, or_and_right, exists_or]

theorem hasObject_iff {definitions : List Definition} {name : String} :
    HasObject definitions name ↔ ∃ type, .object type ∈ definitions ∧ type.name = name := by
  constructor
  · rintro ⟨definition, member, same, isObject⟩
    cases definition <;> cases isObject
    exact ⟨_, member, same⟩
  · rintro ⟨type, member, same⟩
    exact ⟨.object type, member, same, rfl⟩

theorem firstKind?_append (first second : List Definition) (name : String) :
    firstKind? (first ++ second) name = (firstKind? first name).or (firstKind? second name) := by
  simp [firstKind?, Option.map_or]

section Steps

/-- How a statement can change the definitions, given what it says of a type: not at all, by one more definition, or by
another object type in the place of the one that the name leads to. -/
inductive DefinitionStep (definitions : List Definition) : List Definition → List Definition → Prop where
  | unchanged : DefinitionStep definitions [] definitions
  | added (definition : Definition) : DefinitionStep definitions [definition] (definitions ++ [definition])
  | merged {before after : List Definition} {type fresh merged : RecordType}
      (split : definitions = before ++ .object type :: after) (here : type.name = fresh.name)
      (free : ∀ definition ∈ before, definition.name ≠ fresh.name) (kept : merged.name = fresh.name) :
      DefinitionStep definitions [.object fresh] (before ++ .object merged :: after)

variable {definitions given changed : List Definition}

theorem DefinitionStep.hasObject_iff (step : DefinitionStep definitions given changed) (name : String) :
    HasObject changed name ↔ HasObject (definitions ++ given) name := by
  cases step with
  | unchanged => rw [List.append_nil]
  | added definition => rfl
  | merged split here free kept =>
    simp only [split, HasObject, List.mem_append, List.mem_cons, List.not_mem_nil, or_false, or_and_right, exists_or,
      exists_eq_left, Definition.name, Definition.kind, here, kept]
    grind

/-- The first definition of a name keeps its kind. -/
theorem DefinitionStep.firstKind?_eq (step : DefinitionStep definitions given changed) (name : String) :
    firstKind? changed name = firstKind? (definitions ++ given) name := by
  cases step with
  | unchanged => rw [List.append_nil]
  | added definition => rfl
  | @merged before after type fresh merged split here free kept =>
    rw [split, List.append_assoc, firstKind?_append, firstKind?_append before]
    congr 1
    by_cases same : fresh.name = name
    · simp [firstKind?, Definition.name, Definition.kind, here, kept, same]
    · simp [firstKind?, Definition.name, here, kept, same]

namespace Schema

theorem updateOrAdd_step (schema : Schema) {update : RecordType → RecordType} (fresh : RecordType)
    (sameName : ∀ type, (update type).name = type.name) :
    DefinitionStep schema.definitions [.object fresh] (schema.updateOrAdd update fresh).definitions := by
  cases found : schema.objectType? fresh.name with
  | none =>
    rw [updateOrAdd_of_missing found]
    exact .added _
  | some type =>
    obtain ⟨here, before, after, split, free⟩ := objectType?_eq_some_iff_split.mp found
    rw [updateOrAdd_of_found split free here]
    exact .merged split here free ((sameName type).trans here)

theorem apply_step (schema : Schema) (statement : Statement) :
    DefinitionStep schema.definitions (definitionsOf [statement]) (schema.apply statement).definitions := by
  cases statement with
  | object type => exact schema.updateOrAdd_step type fun _ => rfl
  | extendObject name fields => exact schema.updateOrAdd_step { name, fields } fun _ => rfl
  | input | enum | union => exact .added _
  | roots | unmodelled => exact .unchanged
  | extendInput | extendEnum | extendUnion | extendRoots => exact .unchanged

/-- Whether object types are hidden can be told from the statements. -/
theorem hidesObject_applyAll_iff (schema : Schema) (statements : List Statement) (name : String) :
    HidesObject (schema.applyAll statements).definitions name ↔
      HidesObject (schema.definitions ++ definitionsOf statements) name := by
  induction statements generalizing schema with
  | nil =>
    rw [definitionsOf, List.filter_nil, List.filterMap_nil, List.append_nil]
    rfl
  | cons head rest ih =>
    have step := schema.apply_step head
    have whole : definitionsOf (head :: rest) = definitionsOf [head] ++ definitionsOf rest := by
      rw [definitionsOf, ← List.singleton_append, List.filter_append, List.filterMap_append]
      rfl
    refine (ih (schema.apply head)).trans ?_
    simp only [HidesObject, whole, ← List.append_assoc, hasObject_append, firstKind?_append, step.hasObject_iff,
      step.firstKind?_eq]

end Schema

end Steps

namespace Schema

def objectsNamed (schema : Schema) (name : String) : List RecordType :=
  (schema.definitions.filter (·.name = name)).filterMap Definition.object?

/-- There is at most one object type of the name, and every way to look for it leads to it. -/
structure LooksUp (schema : Schema) (name : String) : Prop where
  single : (schema.objectsNamed name).length ≤ 1
  found : ∀ type ∈ schema.objectsNamed name,
    schema.objectType? name = some type ∧ schema.objectTypes.find? name = some type

variable {schema : Schema} {name : String}

theorem mem_objectsNamed_iff {type : RecordType} :
    type ∈ schema.objectsNamed name ↔ .object type ∈ schema.definitions ∧ type.name = name := by
  simp only [objectsNamed, List.mem_filterMap, List.mem_filter, decide_eq_true_eq]
  constructor
  · rintro ⟨definition, ⟨defined, same⟩, isObject⟩
    cases definition <;> cases isObject
    exact ⟨defined, same⟩
  · rintro ⟨defined, same⟩
    exact ⟨.object type, ⟨defined, same⟩, rfl⟩

theorem firstKind?_eq_object_iff :
    firstKind? schema.definitions name = some .object ↔ ∃ type, schema.objectType? name = some type := by
  simp only [firstKind?, Option.map_eq_some_iff, objectType?_eq_some_iff]
  constructor
  · rintro ⟨definition, found, isObject⟩
    cases definition <;> cases isObject
    exact ⟨_, found⟩
  · rintro ⟨type, found⟩
    exact ⟨_, found, rfl⟩

/-- The object type that a name leads to is the only one of the name. -/
theorem Proper.objectsNamed_eq {type : RecordType} (proper : schema.Proper)
    (found : schema.objectType? name = some type) : schema.objectsNamed name = [type] := by
  have front := objectType?_eq_some_iff.mp found
  rw [← List.head?_filter] at front
  obtain ⟨rest, split⟩ := List.head?_eq_some_iff.mp front
  have others : rest.filterMap Definition.object? = [] :=
    List.filterMap_eq_nil_iff.mpr (proper.lone name type rest split)
  rw [objectsNamed, split, List.filterMap_cons, others]
  rfl

/-- The table of object types leads to an object type of the name, if there is one. -/
theorem exists_find?_objectTypes {type : RecordType} (listed : type ∈ schema.objectsNamed name) :
    ∃ last ∈ schema.objectsNamed name, schema.objectTypes.find? name = some last := by
  obtain ⟨defined, rfl⟩ := mem_objectsNamed_iff.mp listed
  have object : type ∈ schema.definitions.filterMap Definition.object? :=
    List.mem_filterMap.mpr ⟨.object type, defined, rfl⟩
  have entry : ∃ last, (type.name, last) ∈ schema.objectTypes :=
    Table.exists_mem_insertAll (Or.inl ⟨type, List.mem_map.mpr ⟨type, object, rfl⟩⟩)
  obtain ⟨last, entry⟩ := entry
  obtain ⟨found, inTable⟩ := Table.exists_find? entry
  refine ⟨found, ?_, inTable⟩
  rcases Table.mem_insertAll (Table.mem_of_find? inTable) with impossible | given
  · cases impossible
  · obtain ⟨other, isObject, same⟩ := List.mem_map.mp given
    obtain ⟨sameName, rfl⟩ := Prod.mk.inj same
    obtain ⟨definition, member, isObject⟩ := List.mem_filterMap.mp isObject
    cases definition <;> cases isObject
    exact mem_objectsNamed_iff.mpr ⟨member, sameName⟩

theorem Proper.looksUp_iff (proper : schema.Proper) :
    schema.LooksUp name ↔ ¬HidesObject schema.definitions name := by
  constructor
  · rintro looksUp ⟨present, hidden⟩
    obtain ⟨type, defined, same⟩ := hasObject_iff.mp present
    have found := (looksUp.found type (mem_objectsNamed_iff.mpr ⟨defined, same⟩)).1
    exact hidden (firstKind?_eq_object_iff.mpr ⟨type, found⟩)
  · intro visible
    by_cases first : ∃ type, schema.objectType? name = some type
    · obtain ⟨type, found⟩ := first
      have only := proper.objectsNamed_eq found
      refine ⟨by simp [only], fun other listed => ?_⟩
      obtain ⟨last, listedLast, inTable⟩ := exists_find?_objectTypes listed
      rw [only] at listed listedLast
      rw [List.mem_singleton.mp listed]
      exact ⟨found, List.mem_singleton.mp listedLast ▸ inTable⟩
    · have none : schema.objectsNamed name = [] := by
        apply List.eq_nil_iff_forall_not_mem.mpr
        intro type listed
        apply visible
        exact ⟨hasObject_iff.mpr ⟨type, mem_objectsNamed_iff.mp listed⟩, mt firstKind?_eq_object_iff.mp first⟩
      exact ⟨by simp [none], by simp [none]⟩

section Extension

variable {type : RecordType} {fields : List Field}

theorem objectsNamed_of_split {before after : List Definition}
    (split : schema.definitions = before ++ .object type :: after)
    (here : type.name = name) (free : ∀ definition ∈ before, definition.name ≠ name) :
    schema.objectsNamed name = type :: (after.filter (·.name = name)).filterMap Definition.object? := by
  have none : before.filter (·.name = name) = [] :=
    List.filter_eq_nil_iff.mpr fun definition member same => free definition member (of_decide_eq_true same)
  rw [objectsNamed, split, List.filter_append, none, List.nil_append]
  simp [Definition.name, here, Definition.object?]

theorem objectsNamed_extend_of_missing (missing : schema.objectType? name = none) (fields : List Field) :
    (schema.apply (.extendObject name fields)).objectsNamed name =
      schema.objectsNamed name ++ [{ name := name, fields := fields }] := by
  have added : schema.apply (.extendObject name fields) = schema.add (.object { name, fields }) :=
    updateOrAdd_of_missing missing
  rw [added]
  simp [objectsNamed, add, Definition.name, Definition.object?]

theorem Proper.objectsNamed_extend (proper : schema.Proper) (found : schema.objectType? name = some type)
    (fields : List Field) :
    (schema.apply (.extendObject name fields)).objectsNamed name = [type.extend fields] := by
  obtain ⟨here, before, after, split, free⟩ := objectType?_eq_some_iff_split.mp found
  have updated : schema.apply (.extendObject name fields) =
      { schema with definitions := before ++ .object (type.extend fields) :: after } :=
    updateOrAdd_of_found split free here
  have merged := congrArg Schema.definitions updated
  have only := proper.objectsNamed_eq found
  rw [objectsNamed_of_split split here free] at only
  rw [objectsNamed_of_split merged here free, (List.cons.inj only).2]

/-- An extension is merged into an object type that is there, unless this is hidden. -/
theorem Proper.objectsNamed_extend_iff (proper : schema.Proper) (listed : type ∈ schema.objectsNamed name) :
    (schema.apply (.extendObject name fields)).objectsNamed name = [type.extend fields] ↔
      ¬HidesObject schema.definitions name := by
  have present := hasObject_iff.mpr ⟨type, mem_objectsNamed_iff.mp listed⟩
  cases found : schema.objectType? name with
  | none =>
    have hidden : ¬firstKind? schema.definitions name = some .object := by
      rw [firstKind?_eq_object_iff, found]
      exact nofun
    refine iff_of_false (fun merged => ?_) (not_not_intro ⟨present, hidden⟩)
    rw [objectsNamed_extend_of_missing found] at merged
    have more := congrArg List.length merged
    have some := List.length_pos_of_mem listed
    simp only [List.length_append, List.length_singleton] at more
    omega
  | some other =>
    have first := firstKind?_eq_object_iff.mpr ⟨other, found⟩
    rw [proper.objectsNamed_eq found] at listed
    rw [List.mem_singleton.mp listed]
    exact iff_of_true (proper.objectsNamed_extend found fields) fun hides => hides.2 first

/-- An object type with the default name of an operation serves it, unless it is hidden. -/
theorem Proper.root_default_iff {operation : Operation} (proper : schema.Proper)
    (listed : type ∈ schema.objectsNamed operation.defaultRoot) (unnamed : schema.rootName? operation = none) :
    schema.root operation = .ok (some type) ↔ ¬HidesObject schema.definitions operation.defaultRoot := by
  have present := hasObject_iff.mpr ⟨type, mem_objectsNamed_iff.mp listed⟩
  have served : schema.root operation = .ok (schema.objectType? operation.defaultRoot) := by
    rw [root, show (schema.rootNames.getD {}).get operation = none from unnamed]
  rw [served, Except.ok.injEq]
  constructor
  · intro found hides
    exact hides.2 (firstKind?_eq_object_iff.mpr ⟨type, found⟩)
  · intro visible
    obtain ⟨other, found⟩ := firstKind?_eq_object_iff.mp (not_not.mp fun hidden => visible ⟨present, hidden⟩)
    rw [proper.objectsNamed_eq found] at listed
    rw [found, List.mem_singleton.mp listed]

end Extension

/-- In a schema that is built from documents, an object type can be found, is the only one of its name, takes up the
extensions of the name and serves the operation whose default root it is named for, exactly if no definition of another
kind comes before all statements about it. -/
theorem looksUp_iff_not_hidden {documents : List (String × String)}
    (read : ({} : Schema).addSources documents = .ok schema) :
    ∃ statements, Source.Hold documents statements ∧
      (∀ name, schema.LooksUp name ↔ ¬HidesObject (definitionsOf statements) name) ∧
      (∀ earlier fields later name, statements = earlier ++ .extendObject name fields :: later →
        ∀ type ∈ (({} : Schema).applyAll earlier).objectsNamed name,
          (({} : Schema).applyAll (earlier ++ [.extendObject name fields])).objectsNamed name = [type.extend fields] ↔
            ¬HidesObject (definitionsOf earlier) name) ∧
      ∀ operation, ∀ type ∈ schema.objectsNamed operation.defaultRoot, schema.rootName? operation = none →
        (schema.root operation = .ok (some type) ↔
          ¬HidesObject (definitionsOf statements) operation.defaultRoot) := by
  obtain ⟨statements, held, rfl⟩ := addSources_eq_ok_iff.mp read
  have proper := Proper.empty.applyAll held.proper
  have hides (statements : List Statement) (name : String) :
      HidesObject (definitionsOf statements) name ↔
        HidesObject (({} : Schema).applyAll statements).definitions name :=
    (hidesObject_applyAll_iff {} statements name).symm
  refine ⟨statements, held, fun name => ?_, ?_, ?_⟩
  · rw [hides]
    exact proper.looksUp_iff
  · intro earlier fields later name split type listed
    have inside : ∀ statement ∈ earlier, statement.Proper := by
      intro statement member
      apply held.proper
      rw [split]
      exact List.mem_append_left _ member
    rw [hides, applyAll_append]
    exact (Proper.empty.applyAll inside).objectsNamed_extend_iff listed
  · intro operation type listed unnamed
    rw [hides]
    exact proper.root_default_iff listed unnamed

/-- The one field of that name, an integer. -/
def intField (name : String) : List Field :=
  [{ name, type := .named "Int" false }]

/-- An object type in two documents with an input type between them, and one behind an enum of its name. -/
def mixedDocuments : List (String × String) :=
  [("first.graphql", "extend type Query \x7b a: Int \x7d input Query \x7b b: Int \x7d enum Ship \x7b SLOOP \x7d"),
   ("second.graphql", "type Query \x7b c: Int \x7d type Ship \x7b name: Int \x7d")]

def mixedStatements : List Statement :=
  [.extendObject "Query" (intField "a"), .input { name := "Query", fields := intField "b" },
   .enum { name := "Ship", values := [{ name := "SLOOP" }] }] ++
  [.object { name := "Query", fields := intField "c" }, .object { name := "Ship", fields := intField "name" }]

theorem hold_mixed : Source.Hold mixedDocuments mixedStatements :=
  have first : Source.statementsOf _ = .ok (mixedStatements.take 3) := by decide +kernel
  have second : Source.statementsOf _ = .ok (mixedStatements.drop 3) := by decide +kernel
  .cons first (.cons second .nil)

/-- The one is found and serves the query, the other is hidden. -/
theorem looksUp_iff_not_hidden_mixed :
    ∃ schema, ({} : Schema).addSources mixedDocuments = .ok schema ∧ schema.LooksUp "Query" ∧
      ¬schema.LooksUp "Ship" ∧ ∃ type, schema.root .query = .ok (some type) := by
  have read : ({} : Schema).addSources mixedDocuments = .ok _ := addSources_eq_ok_iff.mpr ⟨_, hold_mixed, rfl⟩
  obtain ⟨statements, held, lookups, -, roots⟩ := looksUp_iff_not_hidden read
  cases held.unique hold_mixed
  refine ⟨_, read, (lookups "Query").mpr (by decide), fun found => (lookups "Ship").mp found (by decide), ?_⟩
  have listed : _ ∈ (({} : Schema).applyAll mixedStatements).objectsNamed "Query" := List.mem_cons_self ..
  exact ⟨_, (roots .query _ listed rfl).mpr (by decide)⟩

/-- An object type behind an enum of its name, and a query type behind an input type of its name. -/
def hiddenDocuments : List (String × String) :=
  [("first.graphql", "enum A \x7b X \x7d type A \x7b x: Int \x7d extend type A \x7b y: Int \x7d"),
   ("second.graphql", "input Query \x7b a: Int \x7d type Query \x7b b: Int \x7d")]

def hiddenStatements : List Statement :=
  [.enum { name := "A", values := [{ name := "X" }] }, .object { name := "A", fields := intField "x" },
   .extendObject "A" (intField "y")] ++
  [.input { name := "Query", fields := intField "a" }, .object { name := "Query", fields := intField "b" }]

theorem hold_hidden : Source.Hold hiddenDocuments hiddenStatements :=
  have first : Source.statementsOf _ = .ok (hiddenStatements.take 3) := by decide +kernel
  have second : Source.statementsOf _ = .ok (hiddenStatements.drop 3) := by decide +kernel
  .cons first (.cons second .nil)

/-- The first is listed and not found, its extension becomes a second object type of its name, and the query type serves
no operation. -/
theorem object_hidden :
    ∃ schema, ({} : Schema).addSources hiddenDocuments = .ok schema ∧
      (schema.objectsNamed "A").map (·.fields) = [intField "x", intField "y"] ∧ schema.objectType? "A" = none ∧
      (schema.objectTypes.find? "A").map (·.fields) = some (intField "y") ∧ ¬schema.LooksUp "A" ∧
      (schema.objectsNamed "Query").map (·.fields) = [intField "b"] ∧ schema.rootNames = none ∧
      schema.root .query = .ok none := by
  have read : ({} : Schema).addSources hiddenDocuments = .ok _ := addSources_eq_ok_iff.mpr ⟨_, hold_hidden, rfl⟩
  refine ⟨_, read, rfl, rfl, rfl, fun found => ?_, rfl, rfl, rfl⟩
  have single : 2 ≤ 1 := found.single
  omega

end Schema

end SchemaScribe
