import SchemaScribe.Settings.Basic
import SchemaScribe.Proofs.Writing

/-! When a schema can be written, and which error is reported when it cannot. The condition for success is free of any
order; an error belongs to the first root, or else to the first definition, that stands in its way. -/

namespace SchemaScribe

namespace Schema

/-- The declarations that come from the definitions, wherever these stand. -/
inductive Emits (schema : Schema) (scalars : Scalars) : Declaration → Prop where
  | argumentClass {type : RecordType} {field : Field} {arguments : CaseClass}
      (defined : .object type ∈ schema.definitions) (inside : field ∈ type.fields)
      (taken : field.argumentClass? scalars = some arguments) : Emits schema scalars (.caseClass arguments)
  | object {type : RecordType} (defined : .object type ∈ schema.definitions)
      (apart : type.name ∉ schema.nestedNames schema.rootTypes) :
      Emits schema scalars (.caseClass (type.caseClass scalars none))
  | input {type : RecordType} (defined : .input type ∈ schema.definitions) :
      Emits schema scalars (.caseClass (type.inputClass scalars))
  | enum {type : EnumType} (defined : .enum type ∈ schema.definitions) :
      Emits schema scalars (.sealedTrait type.sealedTrait)
  | union {type : UnionType} (defined : .union type ∈ schema.definitions) :
      Emits schema scalars (.sealedTrait (type.sealedTrait schema scalars))
  | memberArgumentClass {type : UnionType} {member : String} {object : RecordType} {field : Field}
      {arguments : CaseClass} (defined : .union type ∈ schema.definitions) (listed : member ∈ type.members)
      (found : schema.objectType? member = some object) (inside : field ∈ object.fields)
      (taken : field.argumentClass? scalars = some arguments) : Emits schema scalars (.caseClass arguments)

/-- Any two declarations of one name have the same shape. -/
def Consistent (schema : Schema) (scalars : Scalars) : Prop :=
  ∀ first second, schema.Emits scalars first → schema.Emits scalars second →
    first.name = second.name → first.shape = second.shape

/-- Nothing stands in the way of these definitions, if they are the first of the schema. -/
structure Accepts (schema : Schema) (scalars : Scalars) (definitions : List Definition) : Prop where
  members : ∀ definition ∈ definitions, definition.MembersResolve schema
  declarations : Compatible (definitions.flatMap (·.emitted schema scalars))

/-- The error of the first definition that stands in the way. All members of a union are looked up before any of its
declarations is compared with those before it. -/
inductive FirstOffence (schema : Schema) (scalars : Scalars) : WriteError → Prop where
  | unknownMember {earlier later : List Definition} {type : UnionType} {passed rest : List String} {member : String}
      (order : schema.definitions = earlier ++ .union type :: later) (accepts : schema.Accepts scalars earlier)
      (members : type.members = passed ++ member :: rest) (resolve : ∀ member ∈ passed, schema.Resolves member)
      (unresolved : ¬schema.Resolves member) :
      FirstOffence schema scalars (.unknownType member ("union '" ++ type.name ++ "'"))
  | conflict {earlier later : List Definition} {definition : Definition} {agreeing rest : List Declaration}
      {declaration : Declaration}
      (order : schema.definitions = earlier ++ definition :: later) (accepts : schema.Accepts scalars earlier)
      (resolve : definition.MembersResolve schema)
      (emitted : definition.emitted schema scalars = agreeing ++ declaration :: rest)
      (compatible : Compatible (earlier.flatMap (·.emitted schema scalars) ++ agreeing))
      (disagrees : ¬Agrees (earlier.flatMap (·.emitted schema scalars) ++ agreeing) declaration) :
      FirstOffence schema scalars (.conflictingDeclarations declaration.name)

variable {schema : Schema} {scalars : Scalars}

/-- The list of emitted declarations holds what the definitions give rise to, and nothing else. -/
theorem mem_emitted_iff {declaration : Declaration} :
    declaration ∈ schema.emitted scalars ↔ schema.Emits scalars declaration := by
  simp only [Schema.emitted, List.mem_flatMap, Definition.emitted, List.mem_append, List.mem_map]
  constructor
  · rintro ⟨definition, defined, ⟨arguments, member, rfl⟩ | own⟩
    · cases definition with
      | object type =>
        obtain ⟨field, inside, taken⟩ := RecordType.mem_argumentClasses_iff.mp member
        exact .argumentClass defined inside taken
      | input type => cases member
      | enum type => cases member
      | union type =>
        obtain ⟨object, listed, member⟩ := List.mem_flatMap.mp member
        obtain ⟨name, listed, found⟩ := UnionType.mem_objects_iff.mp listed
        obtain ⟨field, inside, taken⟩ := RecordType.mem_argumentClasses_iff.mp member
        exact .memberArgumentClass defined listed found inside taken
    · split at own
      next topLevel =>
        cases List.mem_singleton.mp own
        cases definition with
        | object type => exact .object defined (Definition.isTopLevel_object_iff.mp topLevel)
        | input type => exact .input defined
        | enum type => exact .enum defined
        | union type => exact .union defined
      next => cases own
  · intro emits
    cases emits with
    | argumentClass defined inside taken =>
      exact ⟨_, defined, Or.inl ⟨_, RecordType.mem_argumentClasses_iff.mpr ⟨_, inside, taken⟩, rfl⟩⟩
    | object defined apart =>
      refine ⟨_, defined, Or.inr ?_⟩
      rw [if_pos (Definition.isTopLevel_object_iff.mpr apart)]
      exact List.mem_singleton.mpr rfl
    | input defined => exact ⟨_, defined, Or.inr (List.mem_singleton.mpr rfl)⟩
    | enum defined => exact ⟨_, defined, Or.inr (List.mem_singleton.mpr rfl)⟩
    | union defined => exact ⟨_, defined, Or.inr (List.mem_singleton.mpr rfl)⟩
    | memberArgumentClass defined listed found inside taken =>
      have object := UnionType.mem_objects_iff.mpr ⟨_, listed, found⟩
      have arguments := RecordType.mem_argumentClasses_iff.mpr ⟨_, inside, taken⟩
      exact ⟨_, defined, Or.inl ⟨_, List.mem_flatMap.mpr ⟨_, object, arguments⟩, rfl⟩⟩

theorem consistent_iff : schema.Consistent scalars ↔ Compatible (schema.emitted scalars) := by
  constructor
  · intro consistent first inFirst second inSecond
    exact consistent first second (mem_emitted_iff.mp inFirst) (mem_emitted_iff.mp inSecond)
  · intro compatible first second inFirst inSecond
    exact compatible first (mem_emitted_iff.mpr inFirst) second (mem_emitted_iff.mpr inSecond)

theorem accepts_definitions_iff :
    schema.Accepts scalars schema.definitions ↔ schema.MembersResolve ∧ schema.Consistent scalars := by
  rw [consistent_iff]
  constructor
  · intro accepts
    exact ⟨fun type defined => accepts.members _ defined type rfl, accepts.declarations⟩
  · rintro ⟨members, compatible⟩
    refine ⟨fun definition defined type same => members type ?_, compatible⟩
    rwa [same] at defined

theorem collect_of_firstOffence {error : WriteError} (wellTyped : schema.WellTyped)
    (offence : schema.FirstOffence scalars error) :
    collect schema scalars [] schema.definitions = .error error := by
  cases offence with
  | unknownMember order accepts members resolve unresolved =>
    rw [order]
    refine collect_of_failure wellTyped (fun definition member => ?_) accepts.members accepts.declarations ?_
    · rw [order]
      exact List.mem_append_left _ member
    · rw [Definition.added_of_unresolved wellTyped members resolve unresolved]
      rfl
  | @conflict earlier later definition agreeing rest declaration order accepts resolve emitted compatible disagrees =>
    have defined : definition ∈ schema.definitions := by
      rw [order]
      exact List.mem_append_right _ (List.mem_cons_self ..)
    rw [order]
    refine collect_of_failure wellTyped (fun definition member => ?_) accepts.members accepts.declarations ?_
    · rw [order]
      exact List.mem_append_left _ member
    · rw [Definition.added_of_resolved wellTyped defined resolve, emitted]
      exact addDeclarations_conflicting compatible disagrees

/-- A definition that cannot be added to accepted ones is an offence of its own. -/
theorem exists_firstOffence_of_next {earlier later : List Definition} {definition : Definition}
    (order : schema.definitions = earlier ++ definition :: later) (accepts : schema.Accepts scalars earlier)
    (refused : ¬schema.Accepts scalars (earlier ++ [definition])) :
    ∃ error, schema.FirstOffence scalars error := by
  by_cases resolve : definition.MembersResolve schema
  · have conflict : ¬Compatible (earlier.flatMap (·.emitted schema scalars) ++ definition.emitted schema scalars) := by
      intro compatible
      refine refused ⟨fun other member => ?_, by simpa using compatible⟩
      rcases List.mem_append.mp member with known | new
      · exact accepts.members other known
      · cases List.mem_singleton.mp new
        exact resolve
    obtain ⟨agreeing, declaration, rest, emitted, compatible, disagrees⟩ :=
      exists_first_conflict accepts.declarations conflict
    exact ⟨_, .conflict order accepts resolve emitted compatible disagrees⟩
  · obtain ⟨type, fails⟩ := Classical.not_forall.mp resolve
    obtain ⟨same, fails⟩ := Classical.not_imp.mp fails
    rw [same] at order
    obtain ⟨passed, member, rest, members, resolve, unresolved⟩ := exists_first_failing fails
    exact ⟨_, .unknownMember order accepts members resolve unresolved⟩

theorem exists_firstOffence {earlier later : List Definition} (order : schema.definitions = earlier ++ later)
    (accepts : schema.Accepts scalars earlier) (refused : ¬schema.Accepts scalars schema.definitions) :
    ∃ error, schema.FirstOffence scalars error := by
  induction later generalizing earlier with
  | nil =>
    rw [List.append_nil] at order
    exact absurd (order ▸ accepts) refused
  | cons definition rest ih =>
    by_cases next : schema.Accepts scalars (earlier ++ [definition])
    · exact ih (by rw [order, List.append_cons]) next
    · exact exists_firstOffence_of_next order accepts next

end Schema

namespace Settings

variable {settings : Settings} {schema : Schema} {effect : Option String}

theorem write_of_firstUnknownRoot {error : WriteError} (unknown : schema.FirstUnknownRoot error) :
    settings.write schema effect = .error error := by
  rw [write, Schema.write, Schema.roots_of_firstUnknownRoot unknown]
  rfl

theorem write_of_firstOffence {error : WriteError} (wellTyped : schema.WellTyped) (roots : schema.RootsResolve)
    (offence : schema.FirstOffence settings.scalars error) : settings.write schema effect = .error error := by
  have collected := Schema.collect_of_firstOffence wellTyped offence
  rw [write, Schema.write, Schema.roots_of_resolved roots]
  change schema.typeDeclarations settings.scalars (schema.nestedNames schema.rootTypes) >>= _ = _
  rw [Schema.typeDeclarations_eq_collect, collected]
  rfl

theorem write_succeeds_iff (wellTyped : schema.WellTyped) :
    (∃ document, settings.write schema effect = .ok document) ↔
      schema.RootsResolve ∧ schema.MembersResolve ∧ schema.Consistent settings.scalars := by
  constructor
  · rintro ⟨document, written⟩
    obtain ⟨roots, members, compatible, -⟩ := Schema.write_eq_ok written
    exact ⟨roots, members, Schema.consistent_iff.mpr compatible⟩
  · rintro ⟨roots, members, consistent⟩
    exact ⟨_, Schema.write_of_resolved wellTyped roots members (Schema.consistent_iff.mp consistent)⟩

theorem write_eq_error_iff {error : WriteError} (wellTyped : schema.WellTyped) :
    settings.write schema effect = .error error ↔
      schema.FirstUnknownRoot error ∨ schema.RootsResolve ∧ schema.FirstOffence settings.scalars error := by
  constructor
  · intro failed
    by_cases roots : schema.RootsResolve
    · have refused : ¬schema.Accepts settings.scalars schema.definitions := by
        intro accepts
        have succeeds : ∃ document, settings.write schema effect = .ok document :=
          (write_succeeds_iff wellTyped).mpr ⟨roots, Schema.accepts_definitions_iff.mp accepts⟩
        obtain ⟨document, written⟩ := succeeds
        rw [written] at failed
        cases failed
      have start : schema.Accepts settings.scalars [] := ⟨nofun, nofun⟩
      obtain ⟨first, offence⟩ := Schema.exists_firstOffence (List.nil_append _).symm start refused
      rw [write_of_firstOffence wellTyped roots offence] at failed
      cases failed
      exact Or.inr ⟨roots, offence⟩
    · obtain ⟨first, unknown⟩ := Schema.exists_firstUnknownRoot roots
      rw [write_of_firstUnknownRoot unknown] at failed
      cases failed
      exact Or.inl unknown
  · rintro (unknown | ⟨roots, offence⟩)
    · exact write_of_firstUnknownRoot unknown
    · exact write_of_firstOffence wellTyped roots offence

/-- Where all names lead to object types, only a conflict can stand in the way. -/
theorem conflict_of_resolved {error : WriteError} (wellTyped : schema.WellTyped) (roots : schema.RootsResolve)
    (members : schema.MembersResolve) (failed : settings.write schema effect = .error error) :
    ∃ name, error = .conflictingDeclarations name := by
  rcases (write_eq_error_iff wellTyped).mp failed with unknown | ⟨-, offence⟩
  · obtain ⟨names, -, operation, -, name, named, -, -, given, unresolved, -⟩ := unknown
    exact absurd (roots names named operation name given) unresolved
  · cases offence with
    | @unknownMember earlier later type passed rest member order accepts listed resolve unresolved =>
      have defined : .union type ∈ schema.definitions := by
        rw [order]
        exact List.mem_append_right _ (List.mem_cons_self ..)
      have inside : member ∈ type.members := by
        rw [listed]
        exact List.mem_append_right _ (List.mem_cons_self ..)
      exact absurd (members type defined member inside) unresolved
    | conflict => exact ⟨_, rfl⟩

/-- A schema is written exactly when its roots and members are object types and its declarations do not contradict
each other; every other schema is refused with the error of the first root or definition in the way. -/
theorem write_outcome (settings : Settings) (schema : Schema) (effect : Option String)
    (wellTyped : schema.WellTyped) :
    ((∃ document, settings.write schema effect = .ok document) ↔
      schema.RootsResolve ∧ schema.MembersResolve ∧ schema.Consistent settings.scalars) ∧
    (∀ error, settings.write schema effect = .error error ↔
      schema.FirstUnknownRoot error ∨ schema.RootsResolve ∧ schema.FirstOffence settings.scalars error) :=
  ⟨write_succeeds_iff wellTyped, fun _ => write_eq_error_iff wellTyped⟩

/-- The query and a member of a union have a field `user`, with the same argument. -/
def roster : Schema :=
  let user : Field :=
    { name := "user", type := .named "User" false, arguments := [{ name := "id", type := .named "Int" true }] }
  { definitions :=
      [.object { name := "Query", fields := [user] }, .union { name := "Crew", members := ["User"] },
       .object { name := "User", fields := [user] }] }

/-- The two argument classes agree; an empty input type of their name is a conflict. -/
theorem write_outcome_roster :
    roster.WellTyped ∧ (roster.add (.input { name := "UserArgs" })).WellTyped ∧
      roster.Consistent ({} : Settings).scalars ∧
      (roster.add (.input { name := "UserArgs" })).FirstOffence ({} : Settings).scalars
        (.conflictingDeclarations "UserArgs") := by
  refine ⟨by decide, by decide, ?_, ?_⟩
  · have outcome := (write_outcome {} roster none (by decide)).1.mp ⟨_, rfl⟩
    exact outcome.2.2
  · have outcome := write_outcome {} (roster.add (.input { name := "UserArgs" })) none (by decide)
    rcases (outcome.2 (.conflictingDeclarations "UserArgs")).mp rfl with unknown | ⟨-, offence⟩
    · obtain ⟨names, -, -, -, -, named, -⟩ := unknown
      cases named
    · exact offence

end Settings

end SchemaScribe
