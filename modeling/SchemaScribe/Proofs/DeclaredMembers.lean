import SchemaScribe.Proofs.Documents
import SchemaScribe.Proofs.Merging

/-! Which fields, values, members and roots of a document are found in its schema. All that stand in definitions and in
extensions of object types are; extensions of input types, enums, unions and roots are read and have no effect. -/

namespace SchemaScribe
open Source (Statement)

inductive TypeKind
  | object
  | input
  | enum
  | union
  deriving DecidableEq

def Definition.kind : Definition → TypeKind
  | object _ => .object
  | input _ => .input
  | enum _ => .enum
  | union _ => .union

/-- The definition is of that kind and name, and has the member. -/
def Definition.Has (definition : Definition) (kind : TypeKind) (name member : String) : Prop :=
  definition.kind = kind ∧ definition.name = name ∧ member ∈ definition.memberNames

instance (definition : Definition) (kind : TypeKind) (name member : String) :
    Decidable (definition.Has kind name member) :=
  inferInstanceAs (Decidable (definition.kind = kind ∧ definition.name = name ∧ member ∈ definition.memberNames))

namespace Source.Statement

/-- What the statement says of a type. An extension is taken for a definition of what it adds. -/
def definition? : Statement → Option Definition
  | object type => some (.object type)
  | extendObject name fields => some (.object { name, fields })
  | input type => some (.input type)
  | extendInput name fields => some (.input { name, fields })
  | enum type => some (.enum type)
  | extendEnum name values => some (.enum { name, values })
  | union type => some (.union type)
  | extendUnion name members => some (.union { name, members })
  | roots _ => none
  | extendRoots _ => none
  | unmodelled => none

def rootsGiven : Statement → List (Operation × String)
  | roots names => names
  | extendRoots names => names
  | _ => []

/-- Extensions of anything but object types. -/
def isIgnored : Statement → Bool
  | extendInput .. => true
  | extendEnum .. => true
  | extendUnion .. => true
  | extendRoots _ => true
  | _ => false

def Gives (statement : Statement) (kind : TypeKind) (name member : String) : Prop :=
  ∃ definition, statement.definition? = some definition ∧ definition.Has kind name member

instance (statement : Statement) (kind : TypeKind) (name member : String) :
    Decidable (statement.Gives kind name member) :=
  inferInstanceAs (Decidable (∃ definition ∈ statement.definition?, definition.Has kind name member))

end Source.Statement

/-- The name that was given last for the operation. -/
def lastRoot (operation : Operation) (given : List (Operation × String)) : Option String :=
  (given.reverse.find? (·.1 = operation)).map (·.2)

namespace Schema

def Holds (schema : Schema) (kind : TypeKind) (name member : String) : Prop :=
  ∃ definition ∈ schema.definitions, definition.Has kind name member

instance (schema : Schema) (kind : TypeKind) (name member : String) : Decidable (schema.Holds kind name member) :=
  inferInstanceAs (Decidable (∃ definition ∈ schema.definitions, definition.Has kind name member))

def rootName? (schema : Schema) (operation : Operation) : Option String :=
  (schema.rootNames.getD {}).get operation

/-- Every member and every root that a statement gives is in the schema. -/
structure HoldsAll (schema : Schema) (statements : List Statement) : Prop where
  members : ∀ statement ∈ statements, ∀ kind name member, statement.Gives kind name member →
    schema.Holds kind name member
  roots : ∀ statement ∈ statements, ∀ operation root, (operation, root) ∈ statement.rootsGiven →
    schema.rootName? operation = some root

variable {schema : Schema} {kind : TypeKind} {name member : String}

theorem holds_add {definition : Definition} :
    (schema.add definition).Holds kind name member ↔
      schema.Holds kind name member ∨ definition.Has kind name member := by
  simp [Holds, add, or_and_right, exists_or]

theorem mem_names_extend {type : RecordType} {fields : List Field} :
    member ∈ (type.extend fields).fields.map (·.name) ↔
      member ∈ type.fields.map (·.name) ∨ member ∈ fields.map (·.name) := by
  rw [RecordType.extend, extendFields_eq, mem_names_append_new, mem_names_firstFields]

theorem mem_names_define {type base : RecordType} :
    member ∈ (type.define base).fields.map (·.name) ↔
      member ∈ type.fields.map (·.name) ∨ member ∈ base.fields.map (·.name) := by
  rw [RecordType.define, mem_names_append_new, or_comm]

/-- An object type that is merged with another has the members of both. -/
theorem holds_updateOrAdd (update : RecordType → RecordType) (fresh : RecordType)
    (sameName : ∀ type, (update type).name = type.name)
    (members : ∀ type member, member ∈ (update type).fields.map (·.name) ↔
      member ∈ type.fields.map (·.name) ∨ member ∈ fresh.fields.map (·.name)) :
    (schema.updateOrAdd update fresh).Holds kind name member ↔
      schema.Holds kind name member ∨ (Definition.object fresh).Has kind name member := by
  cases found : schema.objectType? fresh.name with
  | none =>
    rw [updateOrAdd_of_missing found]
    exact holds_add
  | some type =>
    obtain ⟨here, before, after, split, free⟩ := objectType?_eq_some_iff_split.mp found
    have merged : (Definition.object (update type)).Has kind name member ↔
        (Definition.object type).Has kind name member ∨ (Definition.object fresh).Has kind name member := by
      simp only [Definition.Has, Definition.kind, Definition.name, Definition.memberNames, members, sameName, here]
      grind
    rw [updateOrAdd_of_found split free here]
    simp only [Holds, split, List.mem_append, List.mem_cons, or_and_right, exists_or, exists_eq_left, merged]
    grind

/-- Each statement adds the members that it gives, unless it is ignored, and takes none away. -/
theorem holds_apply {statement : Statement} :
    (schema.apply statement).Holds kind name member ↔
      schema.Holds kind name member ∨ statement.isIgnored = false ∧ statement.Gives kind name member := by
  cases statement with
  | object type =>
    refine (holds_updateOrAdd (·.define type) type (fun _ => rfl) fun _ _ => mem_names_define).trans ?_
    simp [Statement.isIgnored, Statement.Gives, Statement.definition?]
  | extendObject own fields =>
    refine (holds_updateOrAdd (·.extend fields) _ (fun _ => rfl) fun _ _ => mem_names_extend).trans ?_
    simp [Statement.isIgnored, Statement.Gives, Statement.definition?]
  | input | enum | union => simp [apply, holds_add, Statement.isIgnored, Statement.Gives, Statement.definition?]
  | roots names => simp [apply, Holds, Statement.Gives, Statement.definition?]
  | unmodelled => simp [apply, Statement.Gives, Statement.definition?]
  | extendInput | extendEnum | extendUnion | extendRoots => simp [apply, Statement.isIgnored]

theorem holds_applyAll {statements : List Statement} :
    (schema.applyAll statements).Holds kind name member ↔ schema.Holds kind name member ∨
      ∃ statement ∈ statements, statement.isIgnored = false ∧ statement.Gives kind name member := by
  induction statements generalizing schema with
  | nil => simp [applyAll]
  | cons head rest ih =>
    refine ih.trans ?_
    rw [holds_apply, or_assoc, List.exists_mem_cons_iff]

end Schema

section Roots

theorem lastRoot_append (operation : Operation) (first second : List (Operation × String)) :
    lastRoot operation (first ++ second) = (lastRoot operation second).or (lastRoot operation first) := by
  simp [lastRoot, Option.map_or]

theorem RootNames.get_set (names : RootNames) (operation other : Operation) (root : String) :
    (names.set operation root).get other = (lastRoot other [(operation, root)]).or (names.get other) := by
  cases operation <;> cases other <;> rfl

/-- Of several names for one operation the last one counts. -/
theorem RootNames.get_setAll (known : RootNames) (given : List (Operation × String)) (operation : Operation) :
    (given.foldl (fun known (operation, root) => known.set operation root) known).get operation =
      (lastRoot operation given).or (known.get operation) := by
  induction given generalizing known with
  | nil => rfl
  | cons head rest ih =>
    rw [List.foldl_cons, ih, get_set, ← Option.or_assoc, ← lastRoot_append, List.singleton_append]

namespace Schema

variable {schema : Schema}

theorem rootName?_updateOrAdd (update : RecordType → RecordType) (fresh : RecordType) (operation : Operation) :
    (schema.updateOrAdd update fresh).rootName? operation = schema.rootName? operation := by
  rw [updateOrAdd]
  cases updateObject? fresh.name update schema.definitions with
  | none => rfl
  | some definitions => rfl

theorem rootName?_apply (statement : Statement) (operation : Operation) :
    (schema.apply statement).rootName? operation =
      (lastRoot operation (if statement.isIgnored then [] else statement.rootsGiven)).or
        (schema.rootName? operation) := by
  cases statement with
  | object type => exact rootName?_updateOrAdd _ _ operation
  | extendObject name fields => exact rootName?_updateOrAdd _ _ operation
  | roots names => exact RootNames.get_setAll _ names operation
  | input | enum | union | unmodelled => rfl
  | extendInput | extendEnum | extendUnion | extendRoots => rfl

theorem rootName?_applyAll (statements : List Statement) (operation : Operation) :
    (schema.applyAll statements).rootName? operation =
      (lastRoot operation ((statements.filter (!·.isIgnored)).flatMap (·.rootsGiven))).or
        (schema.rootName? operation) := by
  induction statements generalizing schema with
  | nil => rfl
  | cons head rest ih =>
    refine ih.trans ?_
    rw [rootName?_apply, ← Option.or_assoc, ← lastRoot_append, List.filter_cons]
    cases head.isIgnored with
    | false => rfl
    | true => rfl

end Schema

end Roots

namespace Schema

variable {schema : Schema}

/-- The members that a schema holds are those that its document gives, ignored extensions apart, and its roots are those
given last. So nothing is missing exactly if ignored extensions repeat what is given elsewhere and no root is given
twice for an operation. -/
theorem holds_iff_given {text source : String} (read : Schema.ofText text source = .ok schema) :
    ∃ statements, Source.statementsOf text = .ok statements ∧
      (∀ kind name member, schema.Holds kind name member ↔
        ∃ statement ∈ statements, statement.isIgnored = false ∧ statement.Gives kind name member) ∧
      (∀ operation, schema.rootName? operation =
        lastRoot operation ((statements.filter (!·.isIgnored)).flatMap (·.rootsGiven))) ∧
      (schema.HoldsAll statements ↔
        (∀ statement ∈ statements, statement.isIgnored → ∀ kind name member, statement.Gives kind name member →
          ∃ other ∈ statements, other.isIgnored = false ∧ other.Gives kind name member) ∧
        ∀ statement ∈ statements, ∀ operation root, (operation, root) ∈ statement.rootsGiven →
          lastRoot operation ((statements.filter (!·.isIgnored)).flatMap (·.rootsGiven)) = some root) := by
  obtain ⟨statements, given, rfl⟩ := ofText_eq_ok_iff.mp read
  have holds (kind : TypeKind) (name member : String) :
      (({} : Schema).applyAll statements).Holds kind name member ↔
        ∃ statement ∈ statements, statement.isIgnored = false ∧ statement.Gives kind name member := by
    rw [holds_applyAll]
    apply or_iff_right
    rintro ⟨_, impossible, _⟩
    cases impossible
  have roots (operation : Operation) : (({} : Schema).applyAll statements).rootName? operation =
      lastRoot operation ((statements.filter (!·.isIgnored)).flatMap (·.rootsGiven)) := by
    rw [rootName?_applyAll]
    cases operation <;> exact Option.or_none
  refine ⟨statements, given, holds, roots, ?_, ?_⟩
  · intro all
    refine ⟨fun statement member _ kind name inner gives => ?_, fun statement member operation root named => ?_⟩
    · exact (holds kind name inner).mp (all.members statement member kind name inner gives)
    · rw [← roots]
      exact all.roots statement member operation root named
  · rintro ⟨repeated, last⟩
    refine ⟨fun statement member kind name inner gives => ?_, fun statement member operation root named => ?_⟩
    · rw [holds]
      cases ignored : statement.isIgnored with
      | false => exact ⟨statement, member, ignored, gives⟩
      | true => exact repeated statement member ignored kind name inner gives
    · rw [roots]
      exact last statement member operation root named

def extensionsText : String :=
  "enum E \x7b A \x7d extend enum E \x7b B \x7d union U = T extend union U = S input I \x7b a: Int \x7d " ++
    "extend input I \x7b b: Int \x7d schema \x7b query: T \x7d extend schema \x7b mutation: S \x7d " ++
    "type T \x7b x: Int \x7d type S \x7b y: Int \x7d extend type T \x7b z: Int \x7d"

def extensionsStatements : List Statement :=
  let fields (name : String) : List Field := [{ name, type := .named "Int" false }]
  [.enum { name := "E", values := [{ name := "A" }] }, .extendEnum "E" [{ name := "B" }],
   .union { name := "U", members := ["T"] }, .extendUnion "U" ["S"],
   .input { name := "I", fields := fields "a" }, .extendInput "I" (fields "b"),
   .roots [(.query, "T")], .extendRoots [(.mutation, "S")],
   .object { name := "T", fields := fields "x" }, .object { name := "S", fields := fields "y" },
   .extendObject "T" (fields "z")]

theorem statementsOf_extensionsText : Source.statementsOf extensionsText = .ok extensionsStatements := by
  decide +kernel

theorem holds_iff_given_extensions :
    ∃ schema, Schema.ofText extensionsText = .ok schema ∧ schema.Holds .object "T" "z" ∧
      schema.rootName? .query = some "T" ∧ ¬schema.HoldsAll extensionsStatements := by
  have read : Schema.ofText extensionsText = .ok _ := ofText_eq_ok_iff.mpr ⟨_, statementsOf_extensionsText, rfl⟩
  obtain ⟨statements, given, holds, roots, all⟩ := holds_iff_given read
  cases statementsOf_extensionsText.symm.trans given
  refine ⟨_, read, (holds ..).mpr (by decide), (roots .query).trans (by decide), fun complete => ?_⟩
  have last := (all.mp complete).2 (.extendRoots [(.mutation, "S")]) (by decide) .mutation "S" (by decide)
  exact absurd last (by decide)

/-- A value, a member, a field and a root are given in extensions, and the schema does not have them. -/
theorem extensions_not_held :
    ∃ schema statements, Schema.ofText extensionsText = .ok schema ∧
      Source.statementsOf extensionsText = .ok statements ∧
      (∃ statement ∈ statements, statement.Gives .enum "E" "B") ∧ ¬schema.Holds .enum "E" "B" ∧
      (∃ statement ∈ statements, statement.Gives .union "U" "S") ∧ ¬schema.Holds .union "U" "S" ∧
      (∃ statement ∈ statements, statement.Gives .input "I" "b") ∧ ¬schema.Holds .input "I" "b" ∧
      (∃ statement ∈ statements, (.mutation, "S") ∈ statement.rootsGiven) ∧
      schema.rootName? .mutation = none := by
  refine ⟨_, extensionsStatements, ofText_eq_ok_iff.mpr ⟨_, statementsOf_extensionsText, rfl⟩,
    statementsOf_extensionsText, ?_⟩
  decide

end Schema

end SchemaScribe
