import SchemaScribe.Schema.Roots

/-! Names that have to lead to object types. A name leads to one when the first definition of that name is an object
type; the roots that a schema names and the members of its unions are such names. -/

namespace SchemaScribe

/-- Where not all items pass, some first one fails. -/
theorem exists_first_failing {passes : α → Prop} {items : List α} (fails : ¬∀ item ∈ items, passes item) :
    ∃ earlier item later, items = earlier ++ item :: later ∧
      (∀ item ∈ earlier, passes item) ∧ ¬passes item := by
  induction items with
  | nil => exact absurd nofun fails
  | cons first rest ih =>
    by_cases head : passes first
    · have restFails : ¬∀ item ∈ rest, passes item := fun all => fails (List.forall_mem_cons.mpr ⟨head, all⟩)
      obtain ⟨earlier, item, later, rfl, passed, failed⟩ := ih restFails
      exact ⟨first :: earlier, item, later, rfl, List.forall_mem_cons.mpr ⟨head, passed⟩, failed⟩
    · exact ⟨[], first, rest, rfl, nofun, head⟩

namespace Schema

/-- The first definition of that name is an object type. -/
def Resolves (schema : Schema) (name : String) : Prop :=
  ∃ type, schema.definitions.find? (·.name = name) = some (.object type)

/-- Every root that the schema names is an object type. -/
def RootsResolve (schema : Schema) : Prop :=
  ∀ names, schema.rootNames = some names →
    ∀ operation name, names.get operation = some name → schema.Resolves name

/-- Every member of every union is an object type. -/
def MembersResolve (schema : Schema) : Prop :=
  ∀ type, .union type ∈ schema.definitions → ∀ member ∈ type.members, schema.Resolves member

/-- The object type that serves an operation, under the name that the schema gives or under the default one. -/
def rootType? (schema : Schema) (operation : Operation) : Option RecordType :=
  schema.objectType? (((schema.rootNames.getD {}).get operation).getD operation.defaultRoot)

def rootTypes (schema : Schema) : Roots :=
  { query := schema.rootType? .query
    mutation := schema.rootType? .mutation
    subscription := schema.rootType? .subscription }

/-- The error reports the first root, in the order query, mutation, subscription, whose given name leads nowhere. -/
def FirstUnknownRoot (schema : Schema) (error : WriteError) : Prop :=
  ∃ names earlier operation later name, schema.rootNames = some names ∧
    [Operation.query, .mutation, .subscription] = earlier ++ operation :: later ∧
    (∀ operation ∈ earlier, ∀ name, names.get operation = some name → schema.Resolves name) ∧
    names.get operation = some name ∧ ¬schema.Resolves name ∧
    error = .unknownType name ("the schema " ++ operation.keyword ++ " root")

variable {schema : Schema}

theorem objectType?_eq_some_iff {name : String} {type : RecordType} :
    schema.objectType? name = some type ↔ schema.definitions.find? (·.name = name) = some (.object type) := by
  rw [objectType?, definition?, Option.bind_eq_some_iff]
  constructor
  · rintro ⟨definition, found, isObject⟩
    cases definition <;> cases isObject
    exact found
  · intro found
    exact ⟨_, found, rfl⟩

theorem resolves_iff {name : String} : schema.Resolves name ↔ ∃ type, schema.objectType? name = some type := by
  simp only [Resolves, objectType?_eq_some_iff]

theorem objectType?_eq_none_iff {name : String} : schema.objectType? name = none ↔ ¬schema.Resolves name := by
  rw [resolves_iff, Option.eq_none_iff_forall_ne_some, not_exists]

theorem mem_of_objectType? {name : String} {type : RecordType} (found : schema.objectType? name = some type) :
    .object type ∈ schema.definitions :=
  List.mem_of_find?_eq_some (objectType?_eq_some_iff.mp found)

theorem name_of_objectType? {name : String} {type : RecordType} (found : schema.objectType? name = some type) :
    type.name = name := by
  have matching := List.find?_some (objectType?_eq_some_iff.mp found)
  exact of_decide_eq_true matching

theorem requireObject_eq_ok {name context : String} {type : RecordType} :
    schema.requireObject name context = .ok type ↔ schema.objectType? name = some type := by
  rw [requireObject]
  cases schema.objectType? name with
  | none => exact ⟨nofun, nofun⟩
  | some found =>
    exact ⟨fun same => congrArg some (Except.ok.inj same), fun same => congrArg Except.ok (Option.some.inj same)⟩

theorem requireObject_unresolved {name : String} (context : String) (unresolved : ¬schema.Resolves name) :
    schema.requireObject name context = .error (.unknownType name context) := by
  rw [requireObject, objectType?_eq_none_iff.mpr unresolved]

/-- An operation without a given name never fails; one with a name fails when the name leads nowhere. -/
theorem root_of_resolved {operation : Operation}
    (resolves : ∀ name, (schema.rootNames.getD {}).get operation = some name → schema.Resolves name) :
    schema.root operation = .ok (schema.rootType? operation) := by
  rw [root, rootType?]
  cases given : (schema.rootNames.getD {}).get operation with
  | none => rfl
  | some name =>
    obtain ⟨type, found⟩ := resolves_iff.mp (resolves name given)
    simp only [Option.getD_some, requireObject_eq_ok.mpr found, found]
    rfl

theorem root_of_unresolved {operation : Operation} {name : String}
    (given : (schema.rootNames.getD {}).get operation = some name) (unresolved : ¬schema.Resolves name) :
    schema.root operation = .error (.unknownType name ("the schema " ++ operation.keyword ++ " root")) := by
  simp only [root, given, requireObject_unresolved _ unresolved]
  rfl

theorem root_eq_ok {operation : Operation} {found : Option RecordType} (served : schema.root operation = .ok found) :
    found = schema.rootType? operation := by
  by_cases resolves : ∀ name, (schema.rootNames.getD {}).get operation = some name → schema.Resolves name
  · rw [root_of_resolved resolves] at served
    exact (Except.ok.inj served).symm
  · obtain ⟨name, fails⟩ := Classical.not_forall.mp resolves
    obtain ⟨given, unresolved⟩ := Classical.not_imp.mp fails
    rw [root_of_unresolved given unresolved] at served
    cases served

theorem RootsResolve.of_given (resolves : schema.RootsResolve) {operation : Operation} {name : String}
    (given : (schema.rootNames.getD {}).get operation = some name) : schema.Resolves name := by
  cases named : schema.rootNames with
  | none =>
    rw [named] at given
    cases operation <;> cases given
  | some names =>
    rw [named] at given
    exact resolves names named operation name given

theorem root_of_rootsResolve (resolves : schema.RootsResolve) (operation : Operation) :
    schema.root operation = .ok (schema.rootType? operation) :=
  root_of_resolved fun _ given => resolves.of_given given

theorem roots_of_resolved (resolves : schema.RootsResolve) : schema.roots = .ok schema.rootTypes := by
  rw [roots, root_of_rootsResolve resolves, root_of_rootsResolve resolves, root_of_rootsResolve resolves]
  rfl

/-- Roots are looked up in a fixed order, and the first that leads nowhere ends the search. -/
theorem roots_of_firstUnknownRoot {error : WriteError} (unknown : schema.FirstUnknownRoot error) :
    schema.roots = .error error := by
  obtain ⟨names, earlier, operation, later, name, named, order, resolve, given, unresolved, rfl⟩ := unknown
  have failed : schema.root operation = _ := root_of_unresolved (by rwa [named]) unresolved
  have passed (operation : Operation) (member : operation ∈ earlier) :
      schema.root operation = .ok (schema.rootType? operation) := by
    refine root_of_resolved fun name given => resolve operation member name ?_
    rwa [named] at given
  rw [roots]
  match earlier, order with
  | [], order =>
    cases order
    rw [failed]
    rfl
  | [_], order =>
    cases order
    rw [passed .query (by simp), failed]
    rfl
  | [_, _], order =>
    cases order
    rw [passed .query (by simp), passed .mutation (by simp), failed]
    rfl
  | _ :: _ :: _ :: _, order => simp at order

theorem exists_firstUnknownRoot (unresolved : ¬schema.RootsResolve) : ∃ error, schema.FirstUnknownRoot error := by
  obtain ⟨names, unresolved⟩ := Classical.not_forall.mp unresolved
  obtain ⟨named, unresolved⟩ := Classical.not_imp.mp unresolved
  have fails : ¬∀ operation ∈ [Operation.query, .mutation, .subscription],
      ∀ name, names.get operation = some name → schema.Resolves name := by
    intro resolve
    refine unresolved fun operation => resolve operation ?_
    cases operation <;> simp
  obtain ⟨earlier, operation, later, order, resolve, fails⟩ := exists_first_failing fails
  obtain ⟨name, fails⟩ := Classical.not_forall.mp fails
  obtain ⟨given, missing⟩ := Classical.not_imp.mp fails
  exact ⟨_, names, earlier, operation, later, name, named, order, resolve, given, missing, rfl⟩

theorem roots_eq_ok_iff {roots : Roots} :
    schema.roots = .ok roots ↔ schema.RootsResolve ∧ roots = schema.rootTypes := by
  constructor
  · intro resolved
    by_cases resolves : schema.RootsResolve
    · rw [roots_of_resolved resolves] at resolved
      exact ⟨resolves, (Except.ok.inj resolved).symm⟩
    · obtain ⟨error, unknown⟩ := exists_firstUnknownRoot resolves
      rw [roots_of_firstUnknownRoot unknown] at resolved
      cases resolved
  · rintro ⟨resolves, rfl⟩
    exact roots_of_resolved resolves

end Schema

end SchemaScribe
