import Mathlib.Data.List.Nodup
import Mathlib.Data.List.Perm.Basic
import SchemaScribe.Proofs.DefinitionsDeclared

/-! The order of the definitions. Where all names differ, every look-up is a question of membership, so that another
order leads to the same declarations, and to an error exactly if the first order does. -/

namespace SchemaScribe
open Source (bind_eq_ok)

/-- What a document declares among its data types, whatever is said in descriptions. -/
def Document.shapes (document : Document) : List (String × Shape) :=
  document.types.map fun declaration => (declaration.name, declaration.shape)

section Shapes

variable {declarations others : List Declaration}

theorem compatible_iff_of_perm (permuted : declarations.Perm others) : Compatible declarations ↔ Compatible others := by
  simp only [Compatible, permuted.mem_iff]

theorem nodup_map_name (declarations : List Declaration) : ((firstOfEachName declarations).map (·.name)).Nodup :=
  List.pairwise_map.mpr (firstOfEachName_distinct declarations)

theorem mem_shapes_iff (compatible : Compatible declarations) {name : String} {shape : Shape} :
    (name, shape) ∈ (firstOfEachName declarations).map (fun declaration => (declaration.name, declaration.shape)) ↔
      ∃ declaration ∈ declarations, declaration.name = name ∧ declaration.shape = shape := by
  simp only [List.mem_map, Prod.mk.injEq]
  constructor
  · rintro ⟨kept, member, same⟩
    exact ⟨kept, mem_of_mem_firstOfEachName member, same⟩
  · rintro ⟨declaration, member, rfl, rfl⟩
    obtain ⟨kept, isKept, sameName⟩ := exists_kept member
    have sameShape := compatible kept (mem_of_mem_firstOfEachName isKept) declaration member sameName
    exact ⟨kept, isKept, sameName, sameShape⟩

/-- Which declaration of a name comes first is of no consequence for names and shapes. -/
theorem shapes_perm (compatible : Compatible declarations) (permuted : declarations.Perm others) :
    ((firstOfEachName declarations).map fun declaration => (declaration.name, declaration.shape)).Perm
      ((firstOfEachName others).map fun declaration => (declaration.name, declaration.shape)) := by
  have nodup (declarations : List Declaration) : ((firstOfEachName declarations).map fun declaration =>
      (declaration.name, declaration.shape)).Nodup := by
    apply List.Nodup.of_map Prod.fst
    rw [List.map_map]
    exact nodup_map_name declarations
  apply (List.perm_ext_iff_of_nodup (nodup declarations) (nodup others)).mpr
  rintro ⟨name, shape⟩
  rw [mem_shapes_iff compatible, mem_shapes_iff ((compatible_iff_of_perm permuted).mp compatible)]
  simp only [permuted.mem_iff]

end Shapes

section Success

variable {schema : Schema} {scalars : Scalars}

/-- The walk over the definitions goes through exactly if each can be added by itself and no two declarations of one
name differ. -/
theorem collect_succeeds_iff (before : List Declaration) {definitions : List Definition}
    (compatible : Compatible before) :
    (∃ collected, collect schema scalars (firstOfEachName before) definitions = .ok collected) ↔
      (∀ definition ∈ definitions, ∃ declarations, definition.added schema scalars = .ok declarations) ∧
        Compatible (before ++ definitions.flatMap (·.emitted schema scalars)) := by
  induction definitions generalizing before with
  | nil =>
    rw [List.flatMap_nil, List.append_nil]
    exact ⟨fun _ => ⟨nofun, compatible⟩, fun _ => ⟨_, rfl⟩⟩
  | cons definition rest ih =>
    rw [List.forall_mem_cons, List.flatMap_cons, ← List.append_assoc]
    constructor
    · rintro ⟨collected, done⟩
      rw [collect_cons] at done
      obtain ⟨declarations, added, done⟩ := bind_eq_ok done
      obtain ⟨middle, kept, done⟩ := bind_eq_ok done
      obtain ⟨-, rfl⟩ := Definition.added_eq_ok added
      obtain ⟨fits, rfl⟩ := (addDeclarations_eq_ok compatible).mp kept
      obtain ⟨others, whole⟩ := (ih _ fits).mp ⟨collected, done⟩
      exact ⟨⟨⟨_, added⟩, others⟩, whole⟩
    · rintro ⟨⟨⟨declarations, added⟩, others⟩, whole⟩
      obtain ⟨-, rfl⟩ := Definition.added_eq_ok added
      obtain ⟨collected, done⟩ := (ih _ whole.of_append).mpr ⟨others, whole⟩
      refine ⟨collected, ?_⟩
      rw [collect_cons, added]
      change addDeclarations _ _ >>= _ = _
      rw [addDeclarations_compatible whole.of_append]
      exact done

/-- Each root can be written, which is a matter of its own types alone. -/
def Roots.Writable (context : WriteContext) (roots : Roots) : Prop :=
  (∃ query, roots.query.mapM (·.writeOperation context) = .ok query) ∧
    (∃ mutation, roots.mutation.mapM (·.writeOperation context) = .ok mutation) ∧
    ∃ subscription, roots.subscription.mapM (·.writeSubscription context) = .ok subscription

namespace Schema

variable {context : WriteContext} {packageName : Option String}

theorem write_succeeds_iff_parts :
    (∃ document, schema.write context packageName = .ok document) ↔
      schema.RootsResolve ∧
        (∃ collected, collect schema context.scalars [] schema.definitions = .ok collected) ∧
        schema.rootTypes.Writable context := by
  constructor
  · rintro ⟨document, written⟩
    obtain ⟨roots, rooted, written⟩ := bind_eq_ok written
    obtain ⟨resolve, rfl⟩ := roots_eq_ok_iff.mp rooted
    obtain ⟨types, collected, written⟩ := bind_eq_ok written
    obtain ⟨query, queryWritten, written⟩ := bind_eq_ok written
    obtain ⟨mutation, mutationWritten, written⟩ := bind_eq_ok written
    obtain ⟨subscription, subscriptionWritten, -⟩ := bind_eq_ok written
    exact ⟨resolve, ⟨types, collected⟩, ⟨query, queryWritten⟩, ⟨mutation, mutationWritten⟩, subscription,
      subscriptionWritten⟩
  · rintro ⟨resolve, ⟨types, collected⟩, ⟨query, queryWritten⟩, ⟨mutation, mutationWritten⟩, subscription,
      subscriptionWritten⟩
    simp only [write, roots_of_resolved resolve, typeDeclarations_eq_collect, collected, queryWritten, mutationWritten,
      subscriptionWritten, bind, Except.bind]
    exact ⟨_, rfl⟩

end Schema

end Success

namespace Schema

/-- The same definitions in another order, with names that all differ. -/
structure Reordered (first second : Schema) : Prop where
  distinct : (first.definitions.map (·.name)).Nodup
  permuted : first.definitions.Perm second.definitions
  rootNames : first.rootNames = second.rootNames

section Distinct

variable {schema : Schema}

theorem eq_of_name_eq (distinct : (schema.definitions.map (·.name)).Nodup) {first second : Definition}
    (inFirst : first ∈ schema.definitions) (inSecond : second ∈ schema.definitions) (same : first.name = second.name) :
    first = second :=
  List.inj_on_of_nodup_map distinct inFirst inSecond same

theorem objectType?_iff_mem (distinct : (schema.definitions.map (·.name)).Nodup) {name : String} {type : RecordType} :
    schema.objectType? name = some type ↔ .object type ∈ schema.definitions ∧ type.name = name := by
  constructor
  · intro found
    exact ⟨mem_of_objectType? found, name_of_objectType? found⟩
  · rintro ⟨defined, rfl⟩
    obtain ⟨definition, found⟩ := Option.isSome_iff_exists.mp
      (List.find?_isSome.mpr ⟨.object type, defined, decide_eq_true rfl⟩ :
        (schema.definitions.find? (·.name = type.name)).isSome)
    have matching := List.find?_some found
    have same := eq_of_name_eq distinct (List.mem_of_find?_eq_some found) defined (of_decide_eq_true matching)
    rw [same] at found
    exact objectType?_eq_some_iff.mpr found

theorem mem_unionMembers_iff (distinct : (schema.definitions.map (·.name)).Nodup) {name : String} :
    name ∈ schema.unionMembers ↔ schema.IsMember name := by
  rw [unionMembers, Table.values, List.mem_flatMap]
  constructor
  · rintro ⟨type, kept, listed⟩
    obtain ⟨entry, member, rfl⟩ := List.mem_map.mp kept
    exact ⟨entry.2, (mem_unions member).2, listed⟩
  · rintro ⟨type, defined, listed⟩
    obtain ⟨last, entry⟩ := exists_mem_unions defined
    obtain ⟨sameName, lastDefined⟩ := mem_unions entry
    cases eq_of_name_eq distinct defined lastDefined sameName
    exact ⟨type, List.mem_map.mpr ⟨_, entry, rfl⟩, listed⟩

end Distinct

namespace Reordered

variable {first second : Schema} (reordered : first.Reordered second)
include reordered

theorem otherDistinct : (second.definitions.map (·.name)).Nodup :=
  (reordered.permuted.map _).nodup_iff.mp reordered.distinct

theorem objectType?_eq : first.objectType? = second.objectType? := by
  funext name
  apply Option.ext
  intro type
  rw [objectType?_iff_mem reordered.distinct, objectType?_iff_mem reordered.otherDistinct,
    reordered.permuted.mem_iff]

theorem rootTypes_eq : first.rootTypes = second.rootTypes := by
  simp only [rootTypes, rootType?, reordered.objectType?_eq, reordered.rootNames]

theorem rootsResolve_iff : first.RootsResolve ↔ second.RootsResolve := by
  simp only [RootsResolve, resolves_iff, reordered.objectType?_eq, reordered.rootNames]

theorem nestedNames_contains (name : String) :
    (first.nestedNames first.rootTypes).contains name = (second.nestedNames second.rootTypes).contains name := by
  rw [Bool.eq_iff_iff, List.contains_iff_mem, List.contains_iff_mem, nestedNames, nestedNames, List.mem_append,
    List.mem_append, mem_unionMembers_iff reordered.distinct, mem_unionMembers_iff reordered.otherDistinct,
    reordered.rootTypes_eq]
  simp only [IsMember, reordered.permuted.mem_iff]

theorem write_eq (scalars : Scalars) (definition : Definition) :
    definition.write first scalars = definition.write second scalars := by
  have writeMember (type : UnionType) : type.writeMember first scalars = type.writeMember second scalars := by
    funext member
    simp only [UnionType.writeMember, requireObject, reordered.objectType?_eq]
  cases definition with
  | object type => rfl
  | input type => rfl
  | enum type => rfl
  | union type => simp only [Definition.write, UnionType.write, writeMember]

theorem added_eq (scalars : Scalars) (definition : Definition) :
    definition.added first scalars = definition.added second scalars := by
  simp only [Definition.added, Definition.typeDeclarations, reordered.write_eq, reordered.nestedNames_contains]

theorem emitted_eq (scalars : Scalars) (definition : Definition) :
    definition.emitted first scalars = definition.emitted second scalars := by
  have topLevel : definition.isTopLevel first = definition.isTopLevel second := by
    rw [Definition.isTopLevel, Definition.isTopLevel, reordered.nestedNames_contains]
  have objects (type : UnionType) : type.objects first = type.objects second := by
    rw [UnionType.objects, UnionType.objects, reordered.objectType?_eq]
  rw [Definition.emitted, Definition.emitted, topLevel]
  cases definition with
  | object type => rfl
  | input type => rfl
  | enum type => rfl
  | union type => simp only [Definition.argumentClasses, Definition.declaration, UnionType.sealedTrait, objects]

theorem emitted_perm (scalars : Scalars) : (first.emitted scalars).Perm (second.emitted scalars) := by
  have same : second.emitted scalars = second.definitions.flatMap (·.emitted first scalars) := by
    simp only [emitted, reordered.emitted_eq]
  rw [same]
  exact reordered.permuted.flatMap_right _

theorem collect_succeeds_iff (scalars : Scalars) :
    (∃ collected, collect first scalars [] first.definitions = .ok collected) ↔
      ∃ collected, collect second scalars [] second.definitions = .ok collected := by
  have walk (schema : Schema) :
      (∃ collected, collect schema scalars [] schema.definitions = .ok collected) ↔
        (∀ definition ∈ schema.definitions, ∃ declarations, definition.added schema scalars = .ok declarations) ∧
          Compatible (schema.emitted scalars) :=
    SchemaScribe.collect_succeeds_iff [] nofun
  rw [walk, walk, compatible_iff_of_perm (reordered.emitted_perm scalars)]
  simp only [reordered.added_eq, reordered.permuted.mem_iff]

theorem write_succeeds_iff (context : WriteContext) (packageName : Option String) :
    (∃ document, first.write context packageName = .ok document) ↔
      ∃ document, second.write context packageName = .ok document := by
  rw [write_succeeds_iff_parts, write_succeeds_iff_parts, reordered.rootsResolve_iff, reordered.collect_succeeds_iff,
    reordered.rootTypes_eq]

theorem operations_eq (context : WriteContext) (packageName : Option String) :
    (first.document context packageName).operations = (second.document context packageName).operations := by
  simp only [Document.operations, document, reordered.rootTypes_eq]

theorem subscription_eq (context : WriteContext) (packageName : Option String) :
    (first.document context packageName).subscription = (second.document context packageName).subscription := by
  simp only [document, reordered.rootTypes_eq]

theorem shapes_perm {context : WriteContext} (compatible : Compatible (first.emitted context.scalars))
    (packageName : Option String) :
    (first.document context packageName).shapes.Perm (second.document context packageName).shapes :=
  SchemaScribe.shapes_perm compatible (reordered.emitted_perm context.scalars)

end Reordered

end Schema

/-- All imports but that of the annotations follow from the groups that are there and from the subscription. -/
theorem Document.imports_filter (document : Document) :
    document.imports.filter (· ≠ .annotations) =
      (if document.types.isEmpty || document.operations.isEmpty then [] else [.types]) ++
        (if document.subscription.isSome then [.streams] else []) := by
  rw [imports]
  cases document.types.isEmpty || document.operations.isEmpty <;>
    cases document.types.any Declaration.hasAnnotations <;> cases document.subscription.isSome <;> rfl

theorem Document.isEmpty_types_eq {document other : Document} (same : document.shapes.Perm other.shapes) :
    document.types.isEmpty = other.types.isEmpty := by
  have length := same.length_eq
  rw [shapes, shapes, List.length_map, List.length_map] at length
  rw [Bool.eq_iff_iff, List.isEmpty_iff_length_eq_zero, List.isEmpty_iff_length_eq_zero, length]

namespace Settings

/-- Another order of the definitions changes neither whether a schema can be written nor, but for descriptions and
order, what is declared. The operations are the same text. -/
theorem write_of_reordered (settings : Settings) (effect : Option String) {first second : Schema}
    (reordered : first.Reordered second) :
    ((∃ document, settings.write first effect = .ok document) ↔
      ∃ document, settings.write second effect = .ok document) ∧
    ∀ document other, settings.write first effect = .ok document → settings.write second effect = .ok other →
      document.operationsGroup = other.operationsGroup ∧
      document.imports.filter (· ≠ .annotations) = other.imports.filter (· ≠ .annotations) ∧
      document.shapes.Perm other.shapes ∧
      (document.types.map (·.name)).Nodup ∧ (other.types.map (·.name)).Nodup := by
  refine ⟨reordered.write_succeeds_iff _ _, ?_⟩
  intro document other written otherWritten
  obtain ⟨-, -, compatible, rfl⟩ := Schema.write_eq_ok written
  obtain ⟨-, -, -, rfl⟩ := Schema.write_eq_ok otherWritten
  have shapes := reordered.shapes_perm compatible settings.packageName
  refine ⟨?_, ?_, shapes, nodup_map_name _, nodup_map_name _⟩
  · rw [Document.operationsGroup, Document.operationsGroup, reordered.operations_eq]
  · rw [Document.imports_filter, Document.imports_filter, Document.isEmpty_types_eq shapes, reordered.operations_eq,
      reordered.subscription_eq]

/-- Two fields of one name, of which one describes its argument, with a union between their types. -/
def harbour : Schema :=
  let dock (description : Option String) : Field :=
    { name := "dock", type := .named "Int" true,
      arguments := [{ name := "at", type := .named "Int" true, description }] }
  { definitions :=
      [.object { name := "Query", fields := [dock none] }, .union { name := "Ship", members := ["Sloop"] },
       .object { name := "Sloop", fields := [dock (some "The berth")] }, .enum { name := "Flag" }] }

/-- In reverse order the described argument class is the one that is kept, and so its import is added. -/
theorem write_of_reordered_harbour :
    let turned : Schema := { definitions := harbour.definitions.reverse }
    ∃ document other, ({} : Settings).write harbour = .ok document ∧ ({} : Settings).write turned = .ok other ∧
      document.imports ≠ other.imports ∧ document.operationsGroup = other.operationsGroup ∧
      document.shapes.Perm other.shapes ∧ document.shapes ≠ other.shapes := by
  intro turned
  have reordered : harbour.Reordered turned :=
    { distinct := by decide, permuted := (List.reverse_perm _).symm, rootNames := rfl }
  obtain ⟨succeeds, same⟩ := write_of_reordered {} none reordered
  obtain ⟨other, otherWritten⟩ := succeeds.mp ⟨_, rfl⟩
  obtain ⟨operations, -, shapes, -⟩ := same _ other rfl otherWritten
  cases otherWritten
  exact ⟨_, _, rfl, rfl, by decide +kernel, operations, shapes, by decide +kernel⟩

end Settings

end SchemaScribe
