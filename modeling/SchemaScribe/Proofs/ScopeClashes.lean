import Mathlib.Data.List.Nodup
import Mathlib.Data.List.Pairwise
import SchemaScribe.Proofs.DefinitionsDeclared

/-! Names that are declared in more than one scope of a document. Only the data types are compared with each other, so
a root or a variant of a union can bear the name of an argument class, and hide it wherever it is in scope. -/

namespace SchemaScribe

def Variant.caseClass? : Variant → Option CaseClass
  | .caseObject _ => none
  | .caseClass variant => some variant

/-- The case classes in the companion object. -/
def Declaration.innerClasses : Declaration → List CaseClass
  | .caseClass _ => []
  | .sealedTrait declared => declared.variants.filterMap Variant.caseClass?

/-- The fields of object types that take arguments. -/
def Schema.argumentFields (schema : Schema) : List Field :=
  ((schema.definitions.filterMap Definition.object?).flatMap (·.fields)).filter (¬·.arguments.isEmpty)

/-- The parameters of the argument class. -/
def Field.argumentSignature (scalars : Scalars) (field : Field) : List (String × String) :=
  field.arguments.map fun argument => (safeName argument.name, argument.type.expression scalars)

/-- No name means one thing in one scope and something else in another. -/
structure Document.ScopesApart (document : Document) (argumentFields : List Field) : Prop where
  operations : (document.operations.map (·.name)).Nodup
  types : ∀ operation ∈ document.operations, ∀ declaration ∈ document.types, operation.name ≠ declaration.name
  variants : ∀ declaration ∈ document.types, ∀ variant ∈ declaration.innerClasses, ∀ arguments ∈ document.types,
    (∃ field ∈ argumentFields, arguments.name = argumentsName field.name) →
      variant.name = arguments.name → variant.shape = arguments.shape

namespace Schema

/-- The names in a schema that keep the scopes of its document apart. -/
structure NamesApart (schema : Schema) (scalars : Scalars) (types : List Declaration) : Prop where
  /-- No object type serves two operations. -/
  roots : ∀ first second type, schema.root first = .ok (some type) → schema.root second = .ok (some type) →
    first = second
  arguments : ∀ type, schema.IsRoot type → ∀ field ∈ schema.argumentFields, argumentsName field.name ≠ type.name
  definitions : ∀ type, schema.IsRoot type → ∀ definition ∈ schema.definitions, definition.object? = none →
    definition.name ≠ type.name
  /-- A member of a declared union that has the name of an argument class has its parameters. -/
  members : ∀ union, .union union ∈ schema.definitions → .sealedTrait (union.sealedTrait schema scalars) ∈ types →
    ∀ object ∈ union.objects schema, ∀ field ∈ schema.argumentFields, argumentsName field.name = object.name →
      (object.caseClass scalars (some union.name)).signature = field.argumentSignature scalars

variable {schema : Schema} {scalars : Scalars}

theorem mem_argumentFields_iff {field : Field} :
    field ∈ schema.argumentFields ↔
      ∃ type, .object type ∈ schema.definitions ∧ field ∈ type.fields ∧ field.arguments ≠ [] := by
  simp only [argumentFields, List.mem_filter, List.mem_flatMap, List.mem_filterMap, decide_not, Bool.decide_eq_true,
    Bool.not_eq_true', List.isEmpty_eq_false_iff]
  constructor
  · rintro ⟨⟨type, ⟨definition, defined, isObject⟩, inside⟩, given⟩
    cases definition <;> cases isObject
    exact ⟨type, defined, inside, given⟩
  · rintro ⟨type, defined, inside, given⟩
    exact ⟨⟨type, ⟨.object type, defined, rfl⟩, inside⟩, given⟩

theorem argumentClass_mem_emitted {field : Field} (bearing : field ∈ schema.argumentFields) :
    .caseClass { name := argumentsName field.name, parameters := field.arguments.map (·.parameter scalars) } ∈
      schema.emitted scalars := by
  obtain ⟨owner, defined, inside, given⟩ := mem_argumentFields_iff.mp bearing
  exact mem_emitted_iff.mpr (.argumentClass defined inside (Field.argumentClass?_eq_some_iff.mpr ⟨given, rfl⟩))

section Roots

theorem eq_of_rootType?_of_name_eq {first second : Operation} {type other : RecordType}
    (found : schema.rootType? first = some type) (otherFound : schema.rootType? second = some other)
    (same : type.name = other.name) : type = other := by
  rw [rootType?] at found otherFound
  rw [← name_of_objectType? found, same, name_of_objectType? otherFound, otherFound] at found
  exact (Option.some.inj found).symm

theorem names_rootTypes :
    schema.rootTypes.names =
      [Operation.query, .mutation, .subscription].filterMap fun operation =>
        (schema.rootType? operation).map (·.name) :=
  rfl

theorem map_name_operations (context : WriteContext) (packageName : Option String) :
    (schema.document context packageName).operations.map (·.name) = schema.rootTypes.names := by
  rw [Document.operations, Roots.names, List.map_filterMap]
  cases query : schema.rootTypes.query <;> cases mutation : schema.rootTypes.mutation <;>
    cases subscription : schema.rootTypes.subscription <;>
    simp [document, RecordType.operationClass, query, mutation, subscription]

/-- Roots of different operations have one name only when they are one object type. -/
theorem nodup_rootNames_iff :
    schema.rootTypes.names.Nodup ↔
      ∀ first second type, schema.rootType? first = some type → schema.rootType? second = some type →
        first = second := by
  have named {operation : Operation} {type : RecordType} (found : schema.rootType? operation = some type) :
      (schema.rootType? operation).map (·.name) = some type.name := by
    rw [found, Option.map_some]
  rw [names_rootTypes]
  constructor
  · intro distinct first second type found otherFound
    have apart := List.pairwise_filterMap.mp distinct
    have : Std.Symm fun first second => ∀ name, (schema.rootType? first).map (·.name) = some name →
        ∀ other, (schema.rootType? second).map (·.name) = some other → name ≠ other :=
      ⟨fun _ _ differ name here other there => (differ other there name here).symm⟩
    have all (operation : Operation) : operation ∈ [Operation.query, .mutation, .subscription] := by
      cases operation <;> decide
    by_contra different
    exact apart.forall (all first) (all second) different _ (named found) _ (named otherFound) rfl
  · intro single
    refine List.Nodup.filterMap ?_ (by decide)
    intro first second name here there
    obtain ⟨type, found, rfl⟩ := Option.map_eq_some_iff.mp here
    obtain ⟨other, otherFound, same⟩ := Option.map_eq_some_iff.mp there
    obtain rfl := eq_of_rootType?_of_name_eq otherFound found same
    exact single first second other found otherFound

theorem IsRoot.mem_names {type : RecordType} (isRoot : schema.IsRoot type) : type.name ∈ schema.rootTypes.names := by
  obtain ⟨operation, served⟩ := isRoot
  exact mem_rootNames_iff.mpr ⟨operation, type, (root_eq_ok served).symm, rfl⟩

/-- The data types bear the name of a root only for an argument class or for a definition of another kind, since the
object types of the name are left out. -/
theorem exists_emitted_named_root_iff {type : RecordType} (isRoot : schema.IsRoot type) :
    (∃ declaration ∈ schema.emitted scalars, declaration.name = type.name) ↔
      (∃ field ∈ schema.argumentFields, argumentsName field.name = type.name) ∨
        ∃ definition ∈ schema.definitions, definition.object? = none ∧ definition.name = type.name := by
  constructor
  · rintro ⟨declaration, member, same⟩
    have bearing {owner : RecordType} {field : Field} {arguments : CaseClass}
        (defined : .object owner ∈ schema.definitions) (inside : field ∈ owner.fields)
        (taken : field.argumentClass? scalars = some arguments) (same : arguments.name = type.name) :
        ∃ field ∈ schema.argumentFields, argumentsName field.name = type.name := by
      obtain ⟨given, rfl⟩ := Field.argumentClass?_eq_some_iff.mp taken
      exact ⟨field, mem_argumentFields_iff.mpr ⟨owner, defined, inside, given⟩, same⟩
    cases mem_emitted_iff.mp member with
    | argumentClass defined inside taken => exact Or.inl (bearing defined inside taken same)
    | memberArgumentClass _ _ found inside taken =>
      exact Or.inl (bearing (mem_of_objectType? found) inside taken same)
    | @object other _ apart =>
      have sameName : other.name = type.name := same
      rw [sameName] at apart
      exact absurd (List.mem_append_left _ isRoot.mem_names) apart
    | input defined => exact Or.inr ⟨_, defined, rfl, same⟩
    | enum defined => exact Or.inr ⟨_, defined, rfl, same⟩
    | union defined => exact Or.inr ⟨_, defined, rfl, same⟩
  · rintro (⟨field, member, same⟩ | ⟨definition, defined, other, same⟩)
    · exact ⟨_, argumentClass_mem_emitted member, same⟩
    · cases definition with
      | object owner => cases other
      | input record => exact ⟨_, mem_emitted_iff.mpr (.input defined), same⟩
      | enum record => exact ⟨_, mem_emitted_iff.mpr (.enum defined), same⟩
      | union record => exact ⟨_, mem_emitted_iff.mpr (.union defined), same⟩

end Roots

section Variants

/-- The case classes inside a kept declaration are members of a union. -/
theorem mem_innerClasses_of_emitted {declaration : Declaration} {variant : CaseClass}
    (emitted : declaration ∈ schema.emitted scalars) (inside : variant ∈ declaration.innerClasses) :
    ∃ union, .union union ∈ schema.definitions ∧ declaration = .sealedTrait (union.sealedTrait schema scalars) ∧
      ∃ object ∈ union.objects schema, variant = object.caseClass scalars (some union.name) := by
  cases mem_emitted_iff.mp emitted with
  | argumentClass => cases inside
  | memberArgumentClass => cases inside
  | object => cases inside
  | input => cases inside
  | @enum type defined =>
    obtain ⟨entry, listed, isClass⟩ := List.mem_filterMap.mp inside
    obtain ⟨value, -, rfl⟩ := List.mem_map.mp listed
    cases isClass
  | @union type defined =>
    obtain ⟨entry, listed, isClass⟩ := List.mem_filterMap.mp inside
    obtain ⟨object, found, rfl⟩ := List.mem_map.mp listed
    exact ⟨type, defined, rfl, object, found, (Option.some.inj isClass).symm⟩

theorem caseClass_mem_innerClasses {union : UnionType} {object : RecordType} (found : object ∈ union.objects schema) :
    object.caseClass scalars (some union.name) ∈
      (Declaration.sealedTrait (union.sealedTrait schema scalars)).innerClasses :=
  List.mem_filterMap.mpr ⟨_, List.mem_map.mpr ⟨object, found, rfl⟩, rfl⟩

/-- All emitted declarations of the name of an argument class have the arguments as their parameters. -/
theorem shape_eq_iff_of_argumentField {field : Field} {declaration : Declaration} {variant : CaseClass}
    (compatible : Compatible (schema.emitted scalars)) (bearing : field ∈ schema.argumentFields)
    (emitted : declaration ∈ schema.emitted scalars) (taken : declaration.name = argumentsName field.name) :
    variant.shape = declaration.shape ↔
      variant.name = argumentsName field.name ∧ variant.signature = field.argumentSignature scalars := by
  have sameShape := compatible _ emitted _ (argumentClass_mem_emitted bearing) taken
  rw [sameShape, Declaration.shape, CaseClass.shape_eq_iff]
  simp [CaseClass.signature, Argument.parameter, Field.argumentSignature, Function.comp_def]

end Variants

section Scopes

variable {context : WriteContext} {packageName : Option String}

theorem nodup_operations_iff (resolve : schema.RootsResolve) :
    ((schema.document context packageName).operations.map (·.name)).Nodup ↔
      ∀ first second type, schema.root first = .ok (some type) → schema.root second = .ok (some type) →
        first = second := by
  rw [map_name_operations, nodup_rootNames_iff]
  simp only [root_of_rootsResolve resolve, Except.ok.injEq]

theorem operations_apart_iff (resolve : schema.RootsResolve) :
    (∀ operation ∈ (schema.document context packageName).operations,
      ∀ declaration ∈ (schema.document context packageName).types, operation.name ≠ declaration.name) ↔
      ∀ type, schema.IsRoot type → (∀ field ∈ schema.argumentFields, argumentsName field.name ≠ type.name) ∧
        ∀ definition ∈ schema.definitions, definition.object? = none → definition.name ≠ type.name := by
  constructor
  · intro apart type isRoot
    have free : ¬∃ declaration ∈ schema.emitted context.scalars, declaration.name = type.name := by
      rintro ⟨declaration, member, same⟩
      obtain ⟨operation, served⟩ := isRoot
      obtain ⟨kept, isKept, sameName⟩ := exists_kept member
      exact apart _ (operationClass_mem_operations served) kept isKept (sameName.trans same).symm
    rw [exists_emitted_named_root_iff isRoot, not_or] at free
    constructor
    · intro field bearing same
      exact free.1 ⟨field, bearing, same⟩
    · intro definition defined other same
      exact free.2 ⟨definition, defined, other, same⟩
  · intro apart operation member declaration isKept same
    have named : operation.name ∈ schema.rootTypes.names := by
      rw [← map_name_operations context packageName]
      exact List.mem_map_of_mem member
    obtain ⟨served, type, found, sameName⟩ := mem_rootNames_iff.mp named
    have isRoot : schema.IsRoot type := ⟨served, by rw [root_of_rootsResolve resolve, found]⟩
    have emitted := mem_of_mem_firstOfEachName isKept
    obtain ⟨arguments, definitions⟩ := apart type isRoot
    rcases (exists_emitted_named_root_iff isRoot).mp ⟨declaration, emitted, (sameName.trans same).symm⟩ with
      ⟨field, bearing, taken⟩ | ⟨definition, defined, other, taken⟩
    · exact arguments field bearing taken
    · exact definitions definition defined other taken

theorem variants_apart_iff (compatible : Compatible (schema.emitted context.scalars)) :
    (∀ declaration ∈ (schema.document context packageName).types, ∀ variant ∈ declaration.innerClasses,
      ∀ arguments ∈ (schema.document context packageName).types,
        (∃ field ∈ schema.argumentFields, arguments.name = argumentsName field.name) →
          variant.name = arguments.name → variant.shape = arguments.shape) ↔
      ∀ union, .union union ∈ schema.definitions →
        .sealedTrait (union.sealedTrait schema context.scalars) ∈ (schema.document context packageName).types →
        ∀ object ∈ union.objects schema, ∀ field ∈ schema.argumentFields, argumentsName field.name = object.name →
          (object.caseClass context.scalars (some union.name)).signature =
            field.argumentSignature context.scalars := by
  constructor
  · intro apart union defined declared object found field bearing same
    obtain ⟨arguments, isKept, sameName⟩ := exists_kept (argumentClass_mem_emitted bearing)
    have sameShape := apart _ declared _ (caseClass_mem_innerClasses found) arguments isKept ⟨field, bearing, sameName⟩
      (same.symm.trans sameName.symm)
    have emitted := mem_of_mem_firstOfEachName isKept
    exact ((shape_eq_iff_of_argumentField compatible bearing emitted sameName).mp sameShape).2
  · rintro apart declaration isKept variant inside arguments argumentsKept ⟨field, bearing, taken⟩ same
    obtain ⟨union, defined, rfl, object, found, rfl⟩ :=
      mem_innerClasses_of_emitted (mem_of_mem_firstOfEachName isKept) inside
    have sameName := same.trans taken
    have emitted := mem_of_mem_firstOfEachName argumentsKept
    refine (shape_eq_iff_of_argumentField compatible bearing emitted taken).mpr ⟨sameName, ?_⟩
    exact apart union defined isKept object found field bearing sameName.symm

end Scopes

end Schema

namespace Settings

/-- The scopes of a written document are apart exactly when the names of the schema are: of two declarations in
different scopes no error is reported. An argument class that contradicts a data type of its name is refused. -/
theorem scopesApart_iff_namesApart (settings : Settings) (schema : Schema) (effect : Option String) :
    (∀ document, settings.write schema effect = .ok document →
      (document.ScopesApart schema.argumentFields ↔ schema.NamesApart settings.scalars document.types)) ∧
    (∀ definition ∈ schema.definitions, definition.isTopLevel schema → ∀ field ∈ schema.argumentFields,
      ∀ arguments, field.argumentClass? settings.scalars = some arguments → arguments.name = definition.name →
      ∀ declared others, definition.write schema settings.scalars = .ok (declared, others) →
      declared.shape ≠ arguments.shape →
      ∃ error, settings.write schema effect = .error error ∧
        (schema.WellTyped → schema.RootsResolve → schema.MembersResolve →
          ∃ name, error = .conflictingDeclarations name)) := by
  constructor
  · intro document written
    obtain ⟨resolve, -, compatible, rfl⟩ := Schema.write_eq_ok written
    constructor
    · intro apart
      have roots := (Schema.operations_apart_iff resolve).mp apart.types
      exact {
        roots := (Schema.nodup_operations_iff resolve).mp apart.operations
        arguments := fun type isRoot => (roots type isRoot).1
        definitions := fun type isRoot => (roots type isRoot).2
        members := (Schema.variants_apart_iff compatible).mp apart.variants }
    · intro apart
      exact {
        operations := (Schema.nodup_operations_iff resolve).mpr apart.roots
        types := (Schema.operations_apart_iff resolve).mpr fun type isRoot =>
          ⟨apart.arguments type isRoot, apart.definitions type isRoot⟩
        variants := (Schema.variants_apart_iff compatible).mpr apart.members }
  · intro definition defined topLevel field bearing arguments taken named declared others own different
    cases outcome : settings.write schema effect with
    | error error =>
      exact ⟨error, rfl, fun wellTyped roots members => conflict_of_resolved wellTyped roots members outcome⟩
    | ok document =>
      obtain ⟨-, -, compatible, -⟩ := Schema.write_eq_ok outcome
      obtain ⟨-, rfl⟩ := Field.argumentClass?_eq_some_iff.mp taken
      obtain ⟨-, same⟩ := Definition.write_eq_ok own
      cases same
      have sameShape := compatible _ (Schema.mem_emitted_of_isTopLevel defined topLevel) _
        (Schema.argumentClass_mem_emitted bearing) (definition.name_declaration.trans named.symm)
      exact absurd sameShape different

def userField : Field :=
  { name := "user", type := .named "Int" false, arguments := [{ name := "id", type := .named "Int" false }] }

/-- A member of a union has the name and the parameters of an argument class. -/
def sharedArguments : Schema :=
  let id : Field := { name := "id", type := .named "Int" false }
  { definitions :=
      [.union { name := "U", members := ["UserArgs"] }, .object { name := "UserArgs", fields := [id] },
       .object { name := "Query", fields := [userField] }] }

/-- Such a member does no harm, but an empty input type of that name is refused. -/
theorem scopesApart_iff_namesApart_sharedArguments :
    (∃ document, ({} : Settings).write sharedArguments = .ok document ∧
      sharedArguments.NamesApart ({} : Settings).scalars document.types) ∧
    ∃ name, ({} : Settings).write (sharedArguments.add (.input { name := "UserArgs" })) =
      .error (.conflictingDeclarations name) := by
  constructor
  · refine ⟨sharedArguments.document (({} : Settings).context none) none, rfl, ?_⟩
    refine ((scopesApart_iff_namesApart {} sharedArguments none).1 _ rfl).mp ?_
    exact { operations := by decide +kernel, types := by decide +kernel, variants := by decide +kernel }
  · have members : (sharedArguments.add (.input { name := "UserArgs" })).MembersResolve := by
      intro type defined member listed
      simp only [sharedArguments, Schema.add, List.cons_append, List.nil_append, List.mem_cons, List.not_mem_nil,
        reduceCtorEq, Definition.union.injEq, or_false] at defined
      subst defined
      rw [List.mem_singleton.mp listed]
      exact ⟨_, rfl⟩
    obtain ⟨error, failed, conflict⟩ :=
      (scopesApart_iff_namesApart {} (sharedArguments.add (.input { name := "UserArgs" })) none).2
        (.input { name := "UserArgs" }) (by decide) rfl userField (by decide) _ rfl (by decide +kernel) _ _ rfl
        (by decide +kernel)
    obtain ⟨name, rfl⟩ := conflict (by decide) nofun members
    exact ⟨name, failed⟩

/-- Three schemas that are written without an error: an object type serves two operations, a root has the name of an
argument class, and a member of a union has the name of an argument class and other parameters. -/
theorem scopes_clash :
    (∃ schema document, Schema.ofText "schema \x7b query: A subscription: A \x7d type A \x7b x: Int \x7d" = .ok schema ∧
      ({} : Settings).write schema = .ok document ∧
      ∃ query ∈ document.query, ∃ subscription ∈ document.subscription,
        query.name = subscription.name ∧ query.shape ≠ subscription.shape) ∧
    (∃ schema document,
      Schema.ofText "schema \x7b query: UserArgs \x7d type UserArgs \x7b user(id: Int): Int \x7d" = .ok schema ∧
      ({} : Settings).write schema = .ok document ∧
      ∃ operation ∈ document.operations, ∃ declaration ∈ document.types,
        operation.name = declaration.name ∧ operation.shape ≠ declaration.shape) ∧
    (∃ schema document, Schema.ofText "union U = UserArgs type UserArgs \x7b user(id: Int): Int \x7d" = .ok schema ∧
      ({} : Settings).write schema = .ok document ∧
      ∃ declaration ∈ document.types, ∃ variant ∈ declaration.innerClasses, ∃ arguments ∈ document.types,
        arguments.name = argumentsName "user" ∧ variant.name = arguments.name ∧ variant.shape ≠ arguments.shape) := by
  let context := ({} : Settings).context none
  refine ⟨?_, ?_, ?_⟩
  · let schema : Schema :=
      { definitions := [.object { name := "A", fields := [{ name := "x", type := .named "Int" false }] }]
        rootNames := some { query := some "A", subscription := some "A" } }
    exact ⟨schema, schema.document context none, by decide +kernel, rfl, _, rfl, _, rfl, by decide +kernel⟩
  · let schema : Schema :=
      { definitions := [.object { name := "UserArgs", fields := [userField] }]
        rootNames := some { query := some "UserArgs" } }
    exact ⟨schema, schema.document context none, by decide +kernel, rfl, by decide +kernel⟩
  · let schema : Schema :=
      { definitions := [.union { name := "U", members := ["UserArgs"] },
          .object { name := "UserArgs", fields := [userField] }] }
    exact ⟨schema, schema.document context none, by decide +kernel, rfl, by decide +kernel⟩

end Settings

end SchemaScribe
