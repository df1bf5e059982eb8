import Mathlib.Data.List.Nodup
import SchemaScribe.Proofs.BuiltSchema
import SchemaScribe.Proofs.Resolution

/-! How object types are merged. A statement about an object type changes the one that its name leads to, and adds one
where the name leads to none; the fields of an extension come behind those that are there, each name once. -/

namespace SchemaScribe

/-- The first field of each name, in the order of the fields. -/
def firstFields : List Field → List Field
  | [] => []
  | field :: rest => field :: (firstFields rest).filter (·.name ≠ field.name)

section Fields

variable {field : Field} {fields extension : List Field}

theorem Field.isIn_iff : field.isIn fields ↔ field.name ∈ fields.map (·.name) := by
  simp [isIn]

theorem Field.isIn_append (field : Field) (fields others : List Field) :
    field.isIn (fields ++ others) = (field.isIn fields || field.isIn others) := by
  simp [isIn]

theorem Field.isIn_of_name_eq {other : Field} (same : field.name = other.name) :
    field.isIn fields = other.isIn fields := by
  rw [isIn, isIn, same]

/-- Taken one by one, the fields of an extension are compared with more and more fields. -/
theorem extendFields_eq (fields extension : List Field) :
    extendFields fields extension = fields ++ (firstFields extension).filter (!·.isIn fields) := by
  induction extension generalizing fields with
  | nil => exact (List.append_nil fields).symm
  | cons head rest ih =>
    have step : extendFields fields (head :: rest) =
        extendFields (if head.isIn fields then fields else fields ++ [head]) rest := rfl
    rw [step, ih, firstFields, List.filter_cons, List.filter_filter]
    by_cases known : head.isIn fields
    · have same : ∀ field : Field, (!field.isIn fields && decide (field.name ≠ head.name)) = !field.isIn fields := by
        intro field
        by_cases named : field.name = head.name
        · rw [Field.isIn_of_name_eq named, known]
          rfl
        · simp [named]
      simp only [known, if_true, same, Bool.not_true, Bool.false_eq_true, if_false]
    · have same : ∀ field : Field, (!field.isIn (fields ++ [head])) =
          (!field.isIn fields && decide (field.name ≠ head.name)) := by
        intro field
        rw [Field.isIn_append]
        simp [Field.isIn, eq_comm]
      simp only [known, same, Bool.false_eq_true, if_false, Bool.not_false, if_true, List.append_assoc,
        List.singleton_append]

theorem extendFields_append (fields first second : List Field) :
    extendFields fields (first ++ second) = extendFields (extendFields fields first) second :=
  List.foldl_append

theorem extendFields_nil (extension : List Field) : extendFields [] extension = firstFields extension := by
  rw [extendFields_eq, List.nil_append]
  exact List.filter_eq_self.mpr fun _ _ => rfl

theorem firstFields_of_distinct (distinct : (fields.map (·.name)).Nodup) : firstFields fields = fields := by
  induction fields with
  | nil => rfl
  | cons head rest ih =>
    obtain ⟨fresh, others⟩ := List.nodup_cons.mp distinct
    rw [firstFields, ih others, List.filter_eq_self.mpr]
    intro field member
    refine decide_eq_true fun same => fresh ?_
    exact List.mem_map.mpr ⟨field, member, same⟩

theorem mem_names_firstFields {name : String} :
    name ∈ (firstFields fields).map (·.name) ↔ name ∈ fields.map (·.name) := by
  induction fields with
  | nil => rfl
  | cons head rest ih =>
    have later : name ∈ ((firstFields rest).filter (·.name ≠ head.name)).map (·.name) ↔
        name ∈ rest.map (·.name) ∧ name ≠ head.name := by
      rw [← ih]
      simp only [List.mem_map, List.mem_filter, decide_eq_true_eq]
      constructor
      · rintro ⟨field, ⟨member, other⟩, rfl⟩
        exact ⟨⟨field, member, rfl⟩, other⟩
      · rintro ⟨⟨field, member, rfl⟩, other⟩
        exact ⟨field, ⟨member, other⟩, rfl⟩
    rw [firstFields, List.map_cons, List.map_cons, List.mem_cons, List.mem_cons, later]
    by_cases same : name = head.name <;> simp [same]

/-- Fields that are left out because their names are known do not take a name with them. -/
theorem mem_names_append_new {name : String} {others : List Field} :
    name ∈ (fields ++ others.filter (!·.isIn fields)).map (·.name) ↔
      name ∈ fields.map (·.name) ∨ name ∈ others.map (·.name) := by
  rw [List.map_append, List.mem_append]
  refine or_congr_right' fun unknown => ?_
  constructor
  · intro member
    obtain ⟨field, kept, same⟩ := List.mem_map.mp member
    exact List.mem_map.mpr ⟨field, (List.mem_filter.mp kept).1, same⟩
  · intro member
    obtain ⟨field, kept, rfl⟩ := List.mem_map.mp member
    refine List.mem_map.mpr ⟨field, List.mem_filter.mpr ⟨kept, ?_⟩, rfl⟩
    rw [eq_false_of_ne_true fun known => unknown (Field.isIn_iff.mp known)]
    rfl

end Fields

section Objects

variable {schema : Schema} {name : String} {type fresh : RecordType} {update : RecordType → RecordType}

theorem updateObject?_of_found {before after : List Definition} (free : ∀ definition ∈ before, definition.name ≠ name)
    (here : type.name = name) :
    updateObject? name update (before ++ .object type :: after) = some (before ++ .object (update type) :: after) := by
  induction before with
  | nil => exact if_pos here
  | cons head rest ih =>
    obtain ⟨elsewhere, others⟩ := List.forall_mem_cons.mp free
    rw [List.cons_append, updateObject?, if_neg elsewhere, ih others]
    rfl

namespace Schema

/-- Where a name leads to an object type, no definition of the name stands in front of it. -/
theorem objectType?_eq_some_iff_split :
    schema.objectType? name = some type ↔ type.name = name ∧ ∃ before after,
      schema.definitions = before ++ .object type :: after ∧ ∀ definition ∈ before, definition.name ≠ name := by
  rw [objectType?_eq_some_iff, List.find?_eq_some_iff_append]
  constructor
  · rintro ⟨here, before, after, split, free⟩
    refine ⟨of_decide_eq_true here, before, after, split, fun definition member => ?_⟩
    simpa using free definition member
  · rintro ⟨here, before, after, split, free⟩
    refine ⟨decide_eq_true here, before, after, split, fun definition member => ?_⟩
    simpa using free definition member

theorem updateOrAdd_of_found {before after : List Definition}
    (split : schema.definitions = before ++ .object type :: after)
    (free : ∀ definition ∈ before, definition.name ≠ fresh.name) (here : type.name = fresh.name) :
    schema.updateOrAdd update fresh = { schema with definitions := before ++ .object (update type) :: after } := by
  rw [updateOrAdd, split, updateObject?_of_found free here]

theorem updateOrAdd_of_missing (missing : schema.objectType? fresh.name = none) :
    schema.updateOrAdd update fresh = schema.add (.object fresh) := by
  rw [updateOrAdd]
  cases updated : updateObject? fresh.name update schema.definitions with
  | none => rfl
  | some definitions =>
    obtain ⟨before, type, after, split, here, free, -⟩ := updateObject?_eq_some updated
    have found := objectType?_eq_some_iff_split.mpr ⟨here, before, after, split, free⟩
    rw [missing] at found
    cases found

theorem objectType?_of_free (free : ∀ definition ∈ schema.definitions, definition.name ≠ name) :
    schema.objectType? name = none := by
  rw [objectType?, definition?, List.find?_eq_none.mpr]
  · rfl
  · intro definition member same
    exact free definition member (of_decide_eq_true same)

end Schema

end Objects

end SchemaScribe
