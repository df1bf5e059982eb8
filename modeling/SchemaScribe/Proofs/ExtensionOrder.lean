import SchemaScribe.Proofs.Documents
import SchemaScribe.Proofs.Merging

/-! Where a definition stands among its extensions. What comes before it is put behind its fields when it is read, what
comes after it is appended, and both end in the same fields in the same order. -/

namespace SchemaScribe
open Source (Statement)

namespace RecordType

/-- The definition behind that many of its extensions, and in front of the others. -/
def among (base : RecordType) (extensions : List (List Field)) (position : Nat) : List Statement :=
  (extensions.take position).map (.extendObject base.name) ++
    .object base :: (extensions.drop position).map (.extendObject base.name)

/-- A definition that finds only extensions is what it would be if it had come before them, but for an empty
description. -/
theorem fields_define_firstFields (base : RecordType) (name : String) (extension : List Field) :
    (({ name, fields := firstFields extension } : RecordType).define base).fields =
      extendFields base.fields extension :=
  (extendFields_eq base.fields extension).symm

theorem description_define_undescribed (base : RecordType) (name : String) (fields : List Field) :
    (({ name, fields } : RecordType).define base).description.getD "" = base.description.getD "" := by
  cases given : base.description with
  | none => simp [define, isDescribed, given]
  | some text => by_cases empty : text = "" <;> simp [define, isDescribed, given, empty]

end RecordType

namespace Schema

variable {schema : Schema} {name : String}

section Free

variable (free : ∀ definition ∈ schema.definitions, definition.name ≠ name)
include free

theorem updateOrAdd_of_free {fresh : RecordType} (here : fresh.name = name) (update : RecordType → RecordType) :
    schema.updateOrAdd update fresh = schema.add (.object fresh) := by
  subst here
  exact updateOrAdd_of_missing (objectType?_of_free free)

/-- The object type that was added last is found if it is the only one of its name. -/
theorem updateOrAdd_add {type fresh : RecordType} (known : type.name = name) (here : fresh.name = name)
    (update : RecordType → RecordType) :
    (schema.add (.object type)).updateOrAdd update fresh = schema.add (.object (update type)) := by
  subst here
  exact updateOrAdd_of_found rfl free known

theorem applyAll_extensions {type : RecordType} (known : type.name = name) (extensions : List (List Field)) :
    (schema.add (.object type)).applyAll (extensions.map (.extendObject name)) =
      schema.add (.object (type.extend extensions.flatten)) := by
  induction extensions generalizing type with
  | nil => rfl
  | cons extension rest ih =>
    have step : (schema.add (.object type)).apply (.extendObject name extension) =
        schema.add (.object (type.extend extension)) := updateOrAdd_add free known rfl _
    have extended : (type.extend extension).name = name := known
    rw [List.map_cons, applyAll, List.foldl_cons, step]
    refine (ih extended).trans ?_
    rw [List.flatten_cons, RecordType.extend, RecordType.extend, RecordType.extend, extendFields_append]

/-- Extensions without a definition make up an object type of their own. -/
theorem applyAll_extensions_of_free {first : List Field} (distinct : (first.map (·.name)).Nodup)
    (extensions : List (List Field)) :
    schema.applyAll ((first :: extensions).map (.extendObject name)) =
      schema.add (.object { name, fields := firstFields (first :: extensions).flatten }) := by
  have step : schema.apply (.extendObject name first) = schema.add (.object { name, fields := first }) :=
    updateOrAdd_of_free free rfl _
  rw [List.map_cons, applyAll, List.foldl_cons, step]
  refine (applyAll_extensions free rfl extensions).trans ?_
  rw [List.flatten_cons, ← extendFields_nil, extendFields_append, extendFields_nil first,
    firstFields_of_distinct distinct]
  rfl

end Free

/-- The definition, after its extensions so far, is merged into an object type that has the fields of all of them. -/
theorem exists_merged {base : RecordType} (free : ∀ definition ∈ schema.definitions, definition.name ≠ base.name)
    {extensions : List (List Field)} (distinct : ∀ extension ∈ extensions, (extension.map (·.name)).Nodup) :
    ∃ merged : RecordType,
      (schema.applyAll (extensions.map (.extendObject base.name))).apply (.object base) =
        schema.add (.object merged) ∧
      merged.name = base.name ∧ merged.fields = extendFields base.fields extensions.flatten ∧
      merged.description.getD "" = base.description.getD "" := by
  cases extensions with
  | nil => exact ⟨base, updateOrAdd_of_free free rfl _, rfl, rfl, rfl⟩
  | cons first rest =>
    let extended : RecordType := { name := base.name, fields := firstFields (first :: rest).flatten }
    have earlier : schema.applyAll ((first :: rest).map (.extendObject base.name)) = schema.add (.object extended) :=
      applyAll_extensions_of_free free (distinct first (List.mem_cons_self ..)) rest
    have known : extended.name = base.name := rfl
    have step : (schema.add (.object extended)).apply (.object base) = schema.add (.object (extended.define base)) :=
      updateOrAdd_add free known rfl _
    rw [earlier]
    exact ⟨_, step, known, base.fields_define_firstFields .., base.description_define_undescribed ..⟩

/-- Wherever a definition stands among its extensions, one object type results: the fields of the definition, and behind
them each field of the extensions whose name is neither there nor in an earlier field of an extension. -/
theorem applyAll_among (schema : Schema) (base : RecordType) (extensions : List (List Field)) (position : Nat)
    (free : ∀ definition ∈ schema.definitions, definition.name ≠ base.name)
    (distinct : ∀ extension ∈ extensions, (extension.map (·.name)).Nodup) :
    ∃ merged : RecordType,
      schema.applyAll (base.among extensions position) = schema.add (.object merged) ∧
      (∀ documents, Source.Hold documents (base.among extensions position) →
        schema.addSources documents = .ok (schema.add (.object merged))) ∧
      (schema.add (.object merged)).definitions.filter (·.name = base.name) = [.object merged] ∧
      merged.fields = base.fields ++ (firstFields extensions.flatten).filter (!·.isIn base.fields) ∧
      merged.description.getD "" = base.description.getD "" := by
  obtain ⟨middle, extended, named, fields, described⟩ :=
    exists_merged free fun extension member => distinct extension (List.mem_of_mem_take member)
  have built : schema.applyAll (base.among extensions position) =
      schema.add (.object (middle.extend (extensions.drop position).flatten)) := by
    rw [RecordType.among, List.append_cons, applyAll_append, applyAll_append]
    change ((schema.applyAll _).apply (.object base)).applyAll _ = _
    rw [extended]
    exact applyAll_extensions free named _
  refine ⟨_, built, ?_, ?_, ?_, described⟩
  · intro documents held
    exact addSources_eq_ok_iff.mpr ⟨_, held, built.symm⟩
  · have none : schema.definitions.filter (·.name = base.name) = [] :=
      List.filter_eq_nil_iff.mpr fun definition member same => free definition member (of_decide_eq_true same)
    change (schema.definitions ++ [_]).filter _ = _
    rw [List.filter_append, none, List.nil_append, List.filter_cons]
    exact if_pos (decide_eq_true named)
  · have whole : (extensions.take position).flatten ++ (extensions.drop position).flatten = extensions.flatten := by
      rw [← List.flatten_append, List.take_append_drop]
    change extendFields middle.fields _ = _
    rw [fields, ← extendFields_append, whole, extendFields_eq]

/-- A field for each name, with the type of that name. -/
def fieldsOf (type : String) (names : List String) : List Field :=
  names.map fun name => { name, type := .named type false }

def shipExtensions : List (List Field) :=
  [fieldsOf "Int" ["name", "crew"], fieldsOf "String" ["crew", "port"]]

def shipDocuments : List (String × String) :=
  [("first.graphql", "extend type Ship \x7b name: Int crew: Int \x7d"),
   ("second.graphql", "\"\" type Ship \x7b name: Float \x7d extend type Ship \x7b crew: String port: String \x7d")]

/-- The definition stands between its extensions, in the second of two documents, and shares a field with the first. -/
theorem applyAll_among_ship :
    let ship : RecordType := { name := "Ship", fields := fieldsOf "Float" ["name"], description := some "" }
    let fleet : Schema := { definitions := [.enum { name := "Origin" }] }
    Source.Hold shipDocuments (ship.among shipExtensions 1) ∧
      ∃ merged : RecordType, fleet.addSources shipDocuments = .ok (fleet.add (.object merged)) ∧
        merged.fields = fieldsOf "Float" ["name"] ++ fieldsOf "Int" ["crew"] ++ fieldsOf "String" ["port"] ∧
        merged.description.getD "" = "" := by
  intro ship fleet
  have held : Source.Hold shipDocuments (ship.among shipExtensions 1) :=
    have first : Source.statementsOf _ = .ok ((ship.among shipExtensions 1).take 1) := by decide +kernel
    have second : Source.statementsOf _ = .ok ((ship.among shipExtensions 1).drop 1) := by decide +kernel
    .cons first (.cons second .nil)
  obtain ⟨merged, -, added, -, fields, described⟩ :=
    applyAll_among fleet ship shipExtensions 1 (by decide) (by decide)
  exact ⟨held, merged, added shipDocuments held, fields, described⟩

end Schema

end SchemaScribe
