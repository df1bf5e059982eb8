import SchemaScribe.Proofs.Emission

/-! The walk over the definitions. Whatever it has collected is the first of each name among the declarations emitted
so far, so its outcome can be read off the whole list of emitted declarations. The text of a document is its blocks in
their two groups. -/

namespace SchemaScribe
open Source (bind_eq_ok map_eq_ok)

/-- One step of the walk for each definition. -/
def collect (schema : Schema) (scalars : Scalars) (collected : List Declaration) (definitions : List Definition) :
    Except WriteError (List Declaration) :=
  definitions.foldlM (fun collected definition => do
    addDeclarations collected (← definition.added schema scalars)) collected

variable {schema : Schema} {scalars : Scalars}

theorem collect_cons (collected : List Declaration) (definition : Definition) (rest : List Definition) :
    collect schema scalars collected (definition :: rest) = (do
      let declarations ← definition.added schema scalars
      let collected ← addDeclarations collected declarations
      collect schema scalars collected rest) := by
  rw [collect, List.foldlM_cons, bind_assoc]
  rfl

theorem collect_eq_ok (before : List Declaration) {collected : List Declaration} {definitions : List Definition}
    (compatible : Compatible before)
    (done : collect schema scalars (firstOfEachName before) definitions = .ok collected) :
    (∀ definition ∈ definitions, definition.MembersResolve schema) ∧
      Compatible (before ++ definitions.flatMap (·.emitted schema scalars)) ∧
      collected = firstOfEachName (before ++ definitions.flatMap (·.emitted schema scalars)) := by
  induction definitions generalizing before with
  | nil =>
    cases done
    rw [List.flatMap_nil, List.append_nil]
    exact ⟨nofun, compatible, rfl⟩
  | cons definition rest ih =>
    rw [collect_cons] at done
    obtain ⟨declarations, added, done⟩ := bind_eq_ok done
    obtain ⟨middle, kept, done⟩ := bind_eq_ok done
    obtain ⟨resolve, rfl⟩ := Definition.added_eq_ok added
    obtain ⟨fits, rfl⟩ := (addDeclarations_eq_ok compatible).mp kept
    obtain ⟨others, whole, same⟩ := ih _ fits done
    rw [List.flatMap_cons, ← List.append_assoc]
    refine ⟨fun other member => ?_, whole, same⟩
    rcases List.mem_cons.mp member with rfl | later
    · exact resolve
    · exact others other later

theorem collect_of_resolved (before : List Declaration) {definitions : List Definition}
    (wellTyped : schema.WellTyped) (defined : ∀ definition ∈ definitions, definition ∈ schema.definitions)
    (resolve : ∀ definition ∈ definitions, definition.MembersResolve schema)
    (compatible : Compatible (before ++ definitions.flatMap (·.emitted schema scalars))) :
    collect schema scalars (firstOfEachName before) definitions =
      .ok (firstOfEachName (before ++ definitions.flatMap (·.emitted schema scalars))) := by
  induction definitions generalizing before with
  | nil =>
    rw [List.flatMap_nil, List.append_nil]
    rfl
  | cons definition rest ih =>
    obtain ⟨here, later⟩ := List.forall_mem_cons.mp defined
    obtain ⟨resolved, others⟩ := List.forall_mem_cons.mp resolve
    rw [List.flatMap_cons, ← List.append_assoc] at compatible ⊢
    rw [← ih _ later others compatible, collect_cons, Definition.added_of_resolved wellTyped here resolved]
    change addDeclarations _ _ >>= _ = _
    rw [addDeclarations_compatible compatible.of_append]
    rfl

/-- Only the members of a union have to lead to the same in two schemas. -/
theorem UnionType.write_congr {other : Schema} {type : UnionType}
    (same : ∀ member ∈ type.members, type.writeMember other scalars member = type.writeMember schema scalars member) :
    type.write other scalars = type.write schema scalars := by
  have members (listed : List String) (inside : ∀ member ∈ listed, member ∈ type.members) :
      listed.mapM (type.writeMember other scalars) = listed.mapM (type.writeMember schema scalars) := by
    induction listed with
    | nil => rfl
    | cons first rest ih =>
      obtain ⟨here, later⟩ := List.forall_mem_cons.mp inside
      rw [List.mapM_cons, List.mapM_cons, same first here, ih later]
  rw [write, write, members type.members fun _ member => member]

/-- Walks over definitions that add the same, step by step, come to the same. -/
theorem collect_congr {other : Schema} {change : Definition → Definition} {definitions : List Definition}
    (same : ∀ definition ∈ definitions, (change definition).added other scalars = definition.added schema scalars)
    (collected : List Declaration) :
    collect other scalars collected (definitions.map change) = collect schema scalars collected definitions := by
  induction definitions generalizing collected with
  | nil => rfl
  | cons definition rest ih =>
    obtain ⟨here, later⟩ := List.forall_mem_cons.mp same
    rw [List.map_cons, collect_cons, collect_cons, here, funext (ih later)]

theorem collect_append (collected : List Declaration) (first second : List Definition) :
    collect schema scalars collected (first ++ second) =
      collect schema scalars collected first >>= fun collected => collect schema scalars collected second := by
  rw [collect, List.foldlM_append]
  rfl

/-- The walk stops at the first definition that cannot be added, with the error of that definition. -/
theorem collect_of_failure {earlier later : List Definition} {definition : Definition} {error : WriteError}
    (wellTyped : schema.WellTyped) (defined : ∀ definition ∈ earlier, definition ∈ schema.definitions)
    (resolve : ∀ definition ∈ earlier, definition.MembersResolve schema)
    (compatible : Compatible (earlier.flatMap (·.emitted schema scalars)))
    (failed : (definition.added schema scalars >>=
      addDeclarations (firstOfEachName (earlier.flatMap (·.emitted schema scalars)))) = .error error) :
    collect schema scalars [] (earlier ++ definition :: later) = .error error := by
  have collected : collect schema scalars [] earlier = _ :=
    collect_of_resolved [] wellTyped defined resolve compatible
  rw [collect_append, collected]
  change collect schema scalars _ (definition :: later) = _
  rw [collect_cons, ← bind_assoc]
  exact congrArg (· >>= _) failed

namespace Schema

theorem typeDeclarations_eq_collect (schema : Schema) (scalars : Scalars) :
    schema.typeDeclarations scalars (schema.nestedNames schema.rootTypes) =
      collect schema scalars [] schema.definitions :=
  rfl

variable {context : WriteContext} {packageName : Option String}

/-- A root is written unless some result type of it is malformed. -/
theorem mapM_unlessMalformed (root : Option RecordType) (write : RecordType → CaseClass) :
    root.mapM (fun type => unlessMalformed type.resultFault? (write type)) =
      unlessMalformed (root.bind RecordType.resultFault?) (root.map write) := by
  cases root with
  | none => rfl
  | some type =>
    change (unlessMalformed type.resultFault? (write type) >>= fun value => pure (some value)) =
      unlessMalformed type.resultFault? (some (write type))
    cases type.resultFault? <;> rfl

theorem mapM_writeOperation (context : WriteContext) (root : Option RecordType) :
    root.mapM (·.writeOperation context) = unlessMalformed (root.bind RecordType.resultFault?)
      (root.map (·.operationClass context.scalars (effectOf context.effect))) :=
  mapM_unlessMalformed root _

theorem mapM_writeSubscription (context : WriteContext) (root : Option RecordType) :
    root.mapM (·.writeSubscription context) = unlessMalformed (root.bind RecordType.resultFault?)
      (root.map (·.operationClass context.scalars streamOf)) :=
  mapM_unlessMalformed root _

/-- All that can go wrong with a schema, in the order in which it is found. -/
def check (schema : Schema) (scalars : Scalars) : Except WriteError Unit := do
  let roots ← schema.roots
  let _ ← schema.typeDeclarations scalars (schema.nestedNames roots)
  unlessMalformed (roots.query.bind RecordType.resultFault?) ()
  unlessMalformed (roots.mutation.bind RecordType.resultFault?) ()
  unlessMalformed (roots.subscription.bind RecordType.resultFault?) ()

/-- Whether a schema can be written, and the error if it cannot, is a matter of the schema and the scalars alone. -/
theorem write_eq_check (schema : Schema) (context : WriteContext) (packageName : Option String) :
    schema.write context packageName =
      (schema.check context.scalars).map fun _ => schema.document context packageName := by
  rw [write, check]
  cases rooted : schema.roots with
  | error error => rfl
  | ok roots =>
    obtain ⟨-, rfl⟩ := roots_eq_ok_iff.mp rooted
    change (schema.typeDeclarations context.scalars (schema.nestedNames schema.rootTypes) >>= _) =
      Except.map _ (schema.typeDeclarations context.scalars (schema.nestedNames schema.rootTypes) >>= _)
    rw [typeDeclarations_eq_collect]
    cases collected : collect schema context.scalars [] schema.definitions with
    | error error => rfl
    | ok types =>
      obtain ⟨-, -, rfl⟩ := collect_eq_ok [] nofun collected
      simp only [mapM_writeOperation, mapM_writeSubscription]
      change (unlessMalformed _ _ >>= _) = Except.map _ (unlessMalformed _ _ >>= _)
      cases schema.rootTypes.query.bind RecordType.resultFault? with
      | some found => rfl
      | none =>
        cases schema.rootTypes.mutation.bind RecordType.resultFault? with
        | some found => rfl
        | none => cases schema.rootTypes.subscription.bind RecordType.resultFault? <;> rfl

/-- The parts of a written document, as the steps of the writing give them. -/
theorem write_parts {document : Document} (written : schema.write context packageName = .ok document) :
    schema.roots = .ok schema.rootTypes ∧
      collect schema context.scalars [] schema.definitions = .ok document.types ∧
      schema.rootTypes.query.mapM (·.writeOperation context) = .ok document.query ∧
      schema.rootTypes.mutation.mapM (·.writeOperation context) = .ok document.mutation ∧
      schema.rootTypes.subscription.mapM (·.writeSubscription context) = .ok document.subscription := by
  obtain ⟨roots, rooted, written⟩ := bind_eq_ok written
  obtain ⟨-, rfl⟩ := roots_eq_ok_iff.mp rooted
  obtain ⟨types, collected, written⟩ := bind_eq_ok written
  obtain ⟨query, queryWritten, written⟩ := bind_eq_ok written
  obtain ⟨mutation, mutationWritten, written⟩ := bind_eq_ok written
  obtain ⟨subscription, subscriptionWritten, written⟩ := bind_eq_ok written
  cases written
  exact ⟨rooted, collected, queryWritten, mutationWritten, subscriptionWritten⟩

/-- A written document is the one that the emitted declarations determine. -/
theorem write_eq_ok {document : Document} (written : schema.write context packageName = .ok document) :
    schema.RootsResolve ∧ schema.MembersResolve ∧ Compatible (schema.emitted context.scalars) ∧
      document = schema.document context packageName := by
  rw [write_eq_check] at written
  obtain ⟨_, checked, rfl⟩ := map_eq_ok written
  obtain ⟨roots, rooted, checked⟩ := bind_eq_ok checked
  obtain ⟨resolve, rfl⟩ := roots_eq_ok_iff.mp rooted
  obtain ⟨types, collected, -⟩ := bind_eq_ok checked
  rw [typeDeclarations_eq_collect] at collected
  obtain ⟨members, compatible, -⟩ := collect_eq_ok [] nofun collected
  exact ⟨resolve, fun type member => members _ member type rfl, compatible, rfl⟩

theorem write_of_resolved (wellTyped : schema.WellTyped) (roots : schema.RootsResolve)
    (members : schema.MembersResolve) (compatible : Compatible (schema.emitted context.scalars)) :
    schema.write context packageName = .ok (schema.document context packageName) := by
  have collected : collect schema context.scalars [] schema.definitions = _ :=
    collect_of_resolved [] wellTyped (fun _ member => member)
      (fun definition member type same => members type (same ▸ member)) compatible
  have sound (operation : Operation) : (schema.rootType? operation).bind RecordType.resultFault? = none := by
    refine Option.bind_eq_none_iff.mpr fun type found => ?_
    exact RecordType.resultFault?_eq_none (wellTyped (.object type) (mem_of_objectType? found))
  have query : schema.rootTypes.query.bind _ = none := sound .query
  have mutation : schema.rootTypes.mutation.bind _ = none := sound .mutation
  have subscription : schema.rootTypes.subscription.bind _ = none := sound .subscription
  have checked : schema.check context.scalars = .ok () := by
    rw [check, roots_of_resolved roots]
    change schema.typeDeclarations context.scalars (schema.nestedNames schema.rootTypes) >>= _ = _
    rw [typeDeclarations_eq_collect, collected, query, mutation, subscription]
    rfl
  rw [write_eq_check, checked]
  rfl

end Schema

section Layout

theorem Text.joinWith_closed (ending : String) {parts : List String} (some : parts ≠ []) :
    joinWith "" (parts.map (· ++ ending)) = joinWith ending parts ++ ending := by
  induction parts with
  | nil => exact absurd rfl some
  | cons part rest ih =>
    cases rest with
    | nil => rfl
    | cons next others =>
      have later := ih (List.cons_ne_nil next others)
      rw [List.map_cons] at later
      rw [List.map_cons, List.map_cons, joinWith, joinWith, later, String.append_empty, String.append_assoc,
        String.append_assoc, String.append_assoc]

namespace Document

/-- An object with blocks in it. Without a block there is no object. -/
def group (name separator : String) (blocks : List String) : String :=
  if blocks = [] then ""
  else "object " ++ name ++ " \x7b\n\n" ++ Text.joinWith separator blocks ++ "\n\n\x7d\n"

/-- The blocks of a document and how they are set: data types on lines of their own, operations with an empty line
between them. A document without blocks is an empty line. -/
structure LaidOut (document : Document) (types operations : List String) : Prop where
  typesGroup : document.typesGroup = group "Types" "\n" types
  operationsGroup : document.operationsGroup = group "Operations" "\n\n" operations
  text : document.text =
    if types = [] ∧ operations = [] then "\n"
    else document.packageClause ++ document.importClauses ++ group "Types" "\n" types ++
      (if types = [] ∨ operations = [] then "" else "\n") ++ group "Operations" "\n\n" operations

/-- Blocks that each bring their ending along make up the same group. -/
theorem group_map {name heading ending closing : String} (opens : "object " ++ name ++ " \x7b\n\n" = heading)
    (closes : ending ++ closing = "\n\n\x7d\n") (items : List α) (written : α → String) :
    group name ending (items.map written) =
      if items.isEmpty then ""
      else heading ++ Text.joinWith "" (items.map fun item => written item ++ ending) ++ closing := by
  cases items with
  | nil => rfl
  | cons first rest =>
    have some : (first :: rest).map written ≠ [] := List.cons_ne_nil _ _
    have blocks := Text.joinWith_closed ending some
    rw [List.map_map] at blocks
    calc group name ending ((first :: rest).map written)
      _ = heading ++ Text.joinWith ending ((first :: rest).map written) ++ (ending ++ closing) := by
        rw [group, if_neg some, opens, closes]
      _ = heading ++ (Text.joinWith ending ((first :: rest).map written) ++ ending) ++ closing := by
        simp only [String.append_assoc]
      _ = _ := by
        rw [← blocks]
        rfl

theorem laidOut (document : Document) :
    document.LaidOut (document.types.map Declaration.text) (document.operations.map CaseClass.text) := by
  have types : group "Types" "\n" (document.types.map Declaration.text) = document.typesGroup :=
    group_map rfl rfl document.types Declaration.text
  have operations : group "Operations" "\n\n" (document.operations.map CaseClass.text) = document.operationsGroup :=
    group_map rfl rfl document.operations CaseClass.text
  refine ⟨types.symm, operations.symm, ?_⟩
  rw [text, isEmpty, groupSeparator, types, operations]
  simp only [Bool.and_eq_true, Bool.or_eq_true, List.isEmpty_iff, List.map_eq_nil_iff]

end Document

end Layout

end SchemaScribe
