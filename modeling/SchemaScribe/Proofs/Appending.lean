import SchemaScribe.Proofs.DefinitionsDeclared

/-! One more definition at the end of a schema that can be written. Every name that the schema has looked up is found as
before, so the document grows at the end of its data types, or a declaration of the new definition is a conflict. -/

namespace SchemaScribe
open Source (bind_eq_ok map_eq_ok)

section Declarations

theorem firstOfEachName_of_distinct {declarations : List Declaration}
    (distinct : declarations.Pairwise fun first second => first.name ≠ second.name) :
    firstOfEachName declarations = declarations := by
  induction declarations with
  | nil => rfl
  | cons head rest ih =>
    obtain ⟨apart, distinct⟩ := List.pairwise_cons.mp distinct
    rw [firstOfEachName, ih distinct, List.filter_eq_self.mpr]
    exact fun other member => decide_eq_true (Ne.symm (apart other member))

end Declarations

/-- What is new among the declarations: the first of each name that the document does not declare yet. -/
def Document.undeclared (document : Document) (declarations : List Declaration) : List Declaration :=
  (firstOfEachName declarations).filter fun declaration => !document.types.any (·.name = declaration.name)

/-- An object type, input type or enum whose name is neither taken nor that of a root by default. -/
structure Schema.Free (schema : Schema) (definition : Definition) : Prop where
  noUnion : definition.union? = none
  untaken : ∀ known ∈ schema.definitions, known.name ≠ definition.name
  noRoot : ∀ operation : Operation, definition.name ≠ operation.defaultRoot

namespace Schema

variable {schema : Schema} {definition : Definition} {scalars : Scalars}

theorem objectType?_add {name : String} (other : name ≠ definition.name) :
    (schema.add definition).objectType? name = schema.objectType? name := by
  have unmatched : [definition].find? (·.name = name) = none :=
    List.find?_eq_none.mpr fun known member => by
      cases List.mem_singleton.mp member
      simpa using Ne.symm other
  rw [objectType?, definition?, add, List.find?_append, unmatched, Option.or_none]
  rfl

theorem Resolves.exists_known {name : String} (resolves : schema.Resolves name) :
    ∃ known ∈ schema.definitions, known.name = name := by
  obtain ⟨type, found⟩ := resolves
  have matching := List.find?_some found
  exact ⟨_, List.mem_of_find?_eq_some found, of_decide_eq_true matching⟩

namespace Free

variable (free : schema.Free definition)
include free

theorem ne_of_resolves {name : String} (resolves : schema.Resolves name) : name ≠ definition.name := by
  obtain ⟨known, defined, rfl⟩ := resolves.exists_known
  exact free.untaken known defined

/-- The names of the roots are looked up as before, whether the schema gives them or not. -/
theorem rootTypes_add (roots : schema.RootsResolve) : (schema.add definition).rootTypes = schema.rootTypes := by
  have root (operation : Operation) : (schema.add definition).rootType? operation = schema.rootType? operation := by
    refine objectType?_add ?_
    change ((schema.rootNames.getD {}).get operation).getD operation.defaultRoot ≠ definition.name
    cases given : (schema.rootNames.getD {}).get operation with
    | none => exact Ne.symm (free.noRoot operation)
    | some name => exact free.ne_of_resolves (roots.of_given given)
  simp only [rootTypes, root]

theorem rootsResolve_add (roots : schema.RootsResolve) : (schema.add definition).RootsResolve := by
  intro names named operation name given
  have resolves := roots names named operation name given
  rw [resolves_iff, objectType?_add (free.ne_of_resolves resolves)]
  exact resolves_iff.mp resolves

theorem nestedNames_add (roots : schema.RootsResolve) :
    (schema.add definition).nestedNames (schema.add definition).rootTypes = schema.nestedNames schema.rootTypes := by
  have members : (schema.add definition).unionMembers = schema.unionMembers := by
    rw [unionMembers, unions, add, List.filterMap_append, List.filterMap_cons_none free.noUnion, List.filterMap_nil,
      List.append_nil]
    rfl
  rw [nestedNames, nestedNames, members, free.rootTypes_add roots]

/-- The new definition is among the data types, since roots and members are known by other names. -/
theorem not_mem_nestedNames (members : schema.MembersResolve) :
    definition.name ∉ schema.nestedNames schema.rootTypes := by
  intro nested
  rcases List.mem_append.mp nested with root | member
  · obtain ⟨operation, type, found, same⟩ := mem_rootNames_iff.mp root
    exact free.untaken _ (mem_of_objectType? found) same
  · obtain ⟨type, kept, listed⟩ := List.mem_flatMap.mp member
    obtain ⟨entry, inside, rfl⟩ := List.mem_map.mp kept
    exact free.ne_of_resolves (members entry.2 (mem_unions inside).2 _ listed) rfl

theorem added_known (roots : schema.RootsResolve) (members : schema.MembersResolve) {known : Definition}
    (defined : known ∈ schema.definitions) :
    known.added (schema.add definition) scalars = known.added schema scalars := by
  have write : known.write (schema.add definition) scalars = known.write schema scalars := by
    cases known with
    | object type => rfl
    | input type => rfl
    | enum type => rfl
    | union type =>
      rw [Definition.write, Definition.write, UnionType.write_congr]
      intro member listed
      have other := free.ne_of_resolves (members type defined member listed)
      rw [UnionType.writeMember, UnionType.writeMember, requireObject, requireObject, objectType?_add other]
  rw [Definition.added, Definition.added, Definition.typeDeclarations, Definition.typeDeclarations, write,
    free.nestedNames_add roots]

/-- The new definition adds its argument classes and its own declaration. -/
theorem added_new (roots : schema.RootsResolve) (members : schema.MembersResolve) :
    definition.added (schema.add definition) scalars =
      (definition.write schema scalars).map fun written => written.2.map .caseClass ++ [written.1] := by
  have write : definition.write (schema.add definition) scalars = definition.write schema scalars := by
    cases definition with
    | object type => rfl
    | input type => rfl
    | enum type => rfl
    | union type => cases free.noUnion
  have apart : (schema.nestedNames schema.rootTypes).contains definition.name = false :=
    Bool.eq_false_iff.mpr fun nested => free.not_mem_nestedNames members (List.contains_iff_mem.mp nested)
  rw [Definition.added, Definition.typeDeclarations, write, free.nestedNames_add roots, apart, Bool.and_false]
  rfl

/-- The walk over the known definitions is the same as before, and one step follows it. -/
theorem write_add {context : WriteContext} {packageName : Option String} {document : Document}
    (written : schema.write context packageName = .ok document) :
    (schema.add definition).write context packageName = (do
      let new ← definition.write schema context.scalars
      let types ← addDeclarations document.types (new.2.map .caseClass ++ [new.1])
      return { document with types }) := by
  obtain ⟨roots, members, -, same⟩ := write_eq_ok written
  obtain ⟨-, collected, query, mutation, subscription⟩ := write_parts written
  have packageName : document.packageName = packageName := congrArg Document.packageName same
  have known (known : Definition) (defined : known ∈ schema.definitions) :
      (id known).added (schema.add definition) context.scalars = known.added schema context.scalars :=
    free.added_known roots members defined
  have walk : collect (schema.add definition) context.scalars [] schema.definitions = .ok document.types := by
    rw [← collected, ← collect_congr known, List.map_id]
  have types : (schema.add definition).typeDeclarations context.scalars
      ((schema.add definition).nestedNames schema.rootTypes) = (do
        let new ← definition.write schema context.scalars
        addDeclarations document.types (new.2.map .caseClass ++ [new.1])) := by
    rw [← free.rootTypes_add roots, typeDeclarations_eq_collect]
    change collect (schema.add definition) context.scalars [] (schema.definitions ++ [definition]) = _
    rw [collect_append, walk]
    change collect (schema.add definition) context.scalars document.types [definition] = _
    rw [collect_cons, free.added_new roots members]
    cases definition.write schema context.scalars with
    | error error => rfl
    | ok new => exact bind_pure (addDeclarations document.types (new.2.map .caseClass ++ [new.1]))
  rw [write, roots_of_resolved (free.rootsResolve_add roots), free.rootTypes_add roots]
  change (schema.add definition).typeDeclarations context.scalars _ >>= _ = _
  rw [types, query, mutation, subscription]
  cases definition.write schema context.scalars with
  | error error => rfl
  | ok new =>
    change addDeclarations document.types (new.2.map .caseClass ++ [new.1]) >>= _ =
      addDeclarations document.types (new.2.map .caseClass ++ [new.1]) >>= _
    rw [← packageName]
    cases addDeclarations document.types (new.2.map .caseClass ++ [new.1]) <;> rfl

end Free

end Schema

/-- Writing an object type, input type or enum on its own fails only for a value that is no type reference. -/
theorem Definition.write_of_noUnion {schema : Schema} {scalars : Scalars} {definition : Definition}
    (noUnion : definition.union? = none) :
    (∃ field ∈ definition.fields, ¬field.WellTyped) ∧
        (∃ found, definition.write schema scalars = .error (.malformedType found)) ∨
      ∃ own arguments, definition.write schema scalars = .ok (own, arguments) := by
  have untyped {fields : List Field} (fails : ¬∀ field ∈ fields, field.WellTyped) :
      ∃ field ∈ fields, ¬field.WellTyped := by
    simpa using fails
  cases definition with
  | object type =>
    rw [write, RecordType.writeObject]
    cases fault : type.fault? with
    | none => exact Or.inr ⟨_, _, rfl⟩
    | some found =>
      refine Or.inl ⟨untyped fun wellTyped => ?_, found, rfl⟩
      rw [RecordType.fault?_eq_none wellTyped] at fault
      cases fault
  | input type =>
    rw [write, RecordType.writeInput]
    cases fault : type.resultFault? with
    | none => exact Or.inr ⟨_, _, rfl⟩
    | some found =>
      refine Or.inl ⟨untyped fun wellTyped => ?_, found, rfl⟩
      rw [RecordType.resultFault?_eq_none wellTyped] at fault
      cases fault
  | enum type => exact Or.inr ⟨_, _, rfl⟩
  | union type => cases noUnion

namespace Settings

variable {schema : Schema} {definition : Definition}

/-- One more definition is a conflict, or leaves the document as it is and adds to the end of its data types what is not
declared yet: the argument classes of the definition, then its own declaration. The blocks of the document stay where
they are, and the new ones follow in the same group. A definition that holds some other value in the place of a type is
refused for it. -/
theorem write_appended {settings : Settings} {effect : Option String} {document : Document}
    (written : settings.write schema effect = .ok document) (free : schema.Free definition) :
    ((∃ field ∈ definition.fields, ¬field.WellTyped) ∧
      ∃ found, settings.write (schema.add definition) effect = .error (.malformedType found)) ∨
    ∃ own arguments, definition.write schema settings.scalars = .ok (own, arguments) ∧
      (¬Compatible (document.types ++ (arguments.map .caseClass ++ [own])) ∧
        (∃ name, settings.write (schema.add definition) effect = .error (.conflictingDeclarations name)) ∨
      Compatible (document.types ++ (arguments.map .caseClass ++ [own])) ∧
        ∃ extended, settings.write (schema.add definition) effect = .ok extended ∧
          extended.packageName = document.packageName ∧ extended.operations = document.operations ∧
          extended.types = document.types ++ document.undeclared (arguments.map .caseClass ++ [own]) ∧
          document.LaidOut (document.types.map Declaration.text) (document.operations.map CaseClass.text) ∧
          extended.LaidOut (document.types.map Declaration.text ++
              (document.undeclared (arguments.map .caseClass ++ [own])).map Declaration.text)
            (document.operations.map CaseClass.text)) := by
  have whole : settings.write (schema.add definition) effect = _ := free.write_add written
  obtain ⟨-, -, compatible, same⟩ := Schema.write_eq_ok written
  have types : document.types = firstOfEachName (schema.emitted settings.scalars) := congrArg Document.types same
  have kept : firstOfEachName document.types = document.types := by
    rw [types]
    exact firstOfEachName_of_distinct (firstOfEachName_distinct _)
  have known : Compatible document.types := by
    intro first inFirst second inSecond
    rw [types] at inFirst inSecond
    exact compatible first (mem_of_mem_firstOfEachName inFirst) second (mem_of_mem_firstOfEachName inSecond)
  change _ = definition.write schema settings.scalars >>= _ at whole
  rcases Definition.write_of_noUnion free.noUnion with ⟨untyped, found, refused⟩ | ⟨own, arguments, alone⟩
  · rw [refused] at whole
    exact Or.inl ⟨untyped, found, whole⟩
  · refine Or.inr ⟨own, arguments, alone, ?_⟩
    rw [alone] at whole
    change _ = addDeclarations document.types (arguments.map .caseClass ++ [own]) >>= _ at whole
    by_cases fits : Compatible (document.types ++ (arguments.map .caseClass ++ [own]))
    · have added := addDeclarations_compatible fits
      rw [kept, firstOfEachName_append, kept] at added
      rw [added] at whole
      refine Or.inr ⟨fits, _, whole, rfl, rfl, rfl, document.laidOut, ?_⟩
      rw [← List.map_append]
      exact Document.laidOut _
    · obtain ⟨declaration, -, refused⟩ := addDeclarations_of_conflict known fits
      rw [kept] at refused
      rw [refused] at whole
      exact Or.inl ⟨fits, declaration.name, whole⟩

def lift (name : String) : Field :=
  { name, type := .named "Int" true, arguments := [{ name := "load", type := .named "Int" true }] }

def wharf : Schema :=
  { definitions := [.object { name := "Query", fields := [lift "crane"] }, .enum { name := "Flag" }] }

def depot : Definition :=
  .object { name := "Depot", fields := [lift "crane", lift "hoist"] }

theorem wharf_free_depot : wharf.Free depot :=
  { noUnion := rfl, untaken := by decide, noRoot := fun operation => by cases operation <;> decide }

theorem wharf_free_craneArgs : wharf.Free (.input { name := "CraneArgs" }) :=
  { noUnion := rfl, untaken := by decide, noRoot := fun operation => by cases operation <;> decide }

/-- Of two argument classes only one is new; an empty input type of the name of the other is a conflict. -/
theorem write_appended_depot :
    wharf.Free depot ∧ wharf.Free (.input { name := "CraneArgs" }) ∧
      ∃ document, ({} : Settings).write wharf = .ok document ∧
        document.types.map (·.name) = ["CraneArgs", "Flag"] ∧
        (∃ name, ({} : Settings).write (wharf.add (.input { name := "CraneArgs" })) =
          .error (.conflictingDeclarations name)) ∧
        ∃ extended, ({} : Settings).write (wharf.add depot) = .ok extended ∧
          extended.operations = document.operations ∧
          extended.types.map (·.name) = ["CraneArgs", "Flag", "HoistArgs", "Depot"] ∧
          extended.operationsGroup = document.operationsGroup := by
  have written : ({} : Settings).write wharf = .ok _ := rfl
  refine ⟨wharf_free_depot, wharf_free_craneArgs, _, written, by decide, ?_, ?_⟩
  · rcases write_appended written wharf_free_craneArgs with ⟨-, found, refused⟩ | ⟨own, arguments, -, outcome⟩
    · cases refused
    · rcases outcome with ⟨-, conflict⟩ | ⟨-, extended, accepted, -⟩
      · exact conflict
      · cases accepted
  · rcases write_appended written wharf_free_depot with ⟨-, found, refused⟩ | ⟨own, arguments, alone, outcome⟩
    · cases refused
    · rcases outcome with ⟨-, name, refused⟩ | ⟨-, extended, accepted, -, operations, types, laidOut, further⟩
      · cases refused
      · cases alone
        refine ⟨extended, accepted, operations, ?_, further.operationsGroup.trans laidOut.operationsGroup.symm⟩
        rw [types]
        decide

end Settings

end SchemaScribe
