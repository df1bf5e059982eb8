import SchemaScribe.Proofs.StatementNames

/-! What holds of every schema that is built from a text: its names and types are proper, and an object type that can be
looked up is the only one of its name, since all further definitions and extensions are merged into it. -/

namespace SchemaScribe
open Source (Statement)

/-- Where the first definition of a name is an object type, no other of that name is one. -/
def Lone (definitions : List Definition) : Prop :=
  ∀ name type rest, definitions.filter (·.name = name) = .object type :: rest → ∀ other ∈ rest, other.object? = none

structure Schema.Proper (schema : Schema) : Prop where
  definitions : ∀ definition ∈ schema.definitions, definition.Proper
  roots : ∀ roots, schema.rootNames = some roots → ∀ name ∈ roots.names, IsName name
  lone : Lone schema.definitions

theorem updateObject?_eq_some {name : String} {update : RecordType → RecordType}
    {definitions updated : List Definition} (done : updateObject? name update definitions = some updated) :
    ∃ before type after, definitions = before ++ .object type :: after ∧ type.name = name ∧
      (∀ definition ∈ before, definition.name ≠ name) ∧ updated = before ++ .object (update type) :: after := by
  induction definitions generalizing updated with
  | nil => cases done
  | cons head rest ih =>
    rw [updateObject?] at done
    split at done
    next same =>
      cases head with
      | object type =>
        cases done
        exact ⟨[], type, rest, rfl, same, nofun, rfl⟩
      | input type => cases done
      | enum type => cases done
      | union type => cases done
    next different =>
      obtain ⟨others, found, rfl⟩ := Option.map_eq_some_iff.mp done
      obtain ⟨before, type, after, rfl, same, free, rfl⟩ := ih found
      exact ⟨head :: before, type, after, rfl, same, List.forall_mem_cons.mpr ⟨different, free⟩, rfl⟩

theorem updateObject?_eq_none {name : String} {update : RecordType → RecordType} {definitions : List Definition}
    (missing : updateObject? name update definitions = none) (type : RecordType) (rest : List Definition) :
    definitions.filter (·.name = name) ≠ .object type :: rest := by
  induction definitions with
  | nil => exact nofun
  | cons head others ih =>
    rw [updateObject?] at missing
    split at missing
    next same =>
      rw [List.filter_cons, if_pos (decide_eq_true same)]
      intro first
      cases (List.cons.inj first).1
      cases missing
    next different =>
      rw [List.filter_cons, if_neg (fun same => different (of_decide_eq_true same))]
      exact ih (Option.map_eq_none_iff.mp missing)

namespace Lone

theorem update {before after : List Definition} {type updated : RecordType} (sameName : updated.name = type.name)
    (free : ∀ definition ∈ before, definition.name ≠ type.name) (lone : Lone (before ++ .object type :: after)) :
    Lone (before ++ .object updated :: after) := by
  intro name found rest first
  by_cases same : type.name = name
  · subst same
    have none : before.filter (·.name = type.name) = [] := by
      apply List.filter_eq_nil_iff.mpr
      intro definition member same
      exact free definition member (of_decide_eq_true same)
    have here : Definition.name (.object updated) = type.name := sameName
    rw [List.filter_append, none, List.nil_append, List.filter_cons, if_pos (decide_eq_true here)] at first
    obtain ⟨-, rfl⟩ := List.cons.inj first
    refine lone type.name type _ ?_
    rw [List.filter_append, none, List.nil_append, List.filter_cons]
    exact if_pos (decide_eq_true rfl)
  · have elsewhere : ¬Definition.name (.object updated) = name := fun here => same (sameName.symm.trans here)
    have before : ¬Definition.name (.object type) = name := same
    refine lone name found rest ?_
    rw [← first]
    simp only [List.filter_append, List.filter_cons, decide_eq_true_eq, if_neg elsewhere, if_neg before]

theorem append {definitions : List Definition} {definition : Definition} (lone : Lone definitions)
    (fits : ∀ type, definition = .object type → ∀ known rest,
      definitions.filter (·.name = type.name) ≠ .object known :: rest) :
    Lone (definitions ++ [definition]) := by
  intro name found rest first other member
  rw [List.filter_append] at first
  cases known : definitions.filter (·.name = name) with
  | nil =>
    -- The new definition is the first of its name, and nothing stands behind it.
    rw [known, List.nil_append, List.filter_cons, List.filter_nil] at first
    split at first
    · cases first
      cases member
    · cases first
  | cons head tail =>
    rw [known, List.cons_append] at first
    obtain ⟨rfl, rfl⟩ := List.cons.inj first
    rcases List.mem_append.mp member with earlier | new
    · exact lone name found tail known other earlier
    · obtain ⟨here, same⟩ := List.mem_filter.mp new
      obtain rfl := List.mem_singleton.mp here
      cases other with
      | object type =>
        have sameName : type.name = name := of_decide_eq_true same
        subst sameName
        exact absurd known (fits type rfl found tail)
      | input type => rfl
      | enum type => rfl
      | union type => rfl

end Lone

namespace RecordType

theorem mem_extendFields {fields extension : List Field} {field : Field}
    (member : field ∈ extendFields fields extension) : field ∈ fields ∨ field ∈ extension := by
  induction extension generalizing fields with
  | nil => exact Or.inl member
  | cons head rest ih =>
    rw [extendFields, List.foldl_cons] at member
    rcases ih member with known | later
    · split at known
      · exact Or.inl known
      · rcases List.mem_append.mp known with old | new
        · exact Or.inl old
        · exact Or.inr (List.mem_cons.mpr (Or.inl (List.mem_singleton.mp new)))
    · exact Or.inr (List.mem_cons_of_mem _ later)

theorem Proper.extend {type : RecordType} {name : String} {extension : List Field} (proper : type.Proper)
    (added : ({ name, fields := extension } : RecordType).Proper) : (type.extend extension).Proper :=
  { name := proper.name
    fields := fun field member => (mem_extendFields member).elim (proper.fields field) (added.fields field) }

theorem Proper.define {type definition : RecordType} (proper : type.Proper) (added : definition.Proper) :
    (type.define definition).Proper := by
  refine { name := proper.name, fields := ?_ }
  intro field member
  rcases List.mem_append.mp member with new | old
  · exact added.fields field new
  · exact proper.fields field (List.mem_filter.mp old).1

end RecordType

namespace Schema

variable {schema : Schema}

theorem Proper.empty : ({} : Schema).Proper :=
  { definitions := nofun, roots := nofun, lone := nofun }

theorem Proper.add {definition : Definition} (proper : schema.Proper) (added : definition.Proper)
    (fits : ∀ type, definition = .object type → ∀ known rest,
      schema.definitions.filter (·.name = type.name) ≠ .object known :: rest) :
    (schema.add definition).Proper := by
  refine { definitions := ?_, roots := proper.roots, lone := proper.lone.append fits }
  intro other member
  rcases List.mem_append.mp member with old | new
  · exact proper.definitions other old
  · rw [List.mem_singleton.mp new]
    exact added

theorem Proper.updateOrAdd {update : RecordType → RecordType} {fresh : RecordType} (proper : schema.Proper)
    (sameName : ∀ type, (update type).name = type.name) (keeps : ∀ type, type.Proper → (update type).Proper)
    (added : fresh.Proper) : (schema.updateOrAdd update fresh).Proper := by
  rw [Schema.updateOrAdd]
  cases updated : updateObject? fresh.name update schema.definitions with
  | none =>
    refine proper.add added ?_
    intro type same
    cases same
    exact updateObject?_eq_none updated
  | some definitions =>
    obtain ⟨before, type, after, split, same, free, rfl⟩ := updateObject?_eq_some updated
    have all := proper.definitions
    have lone := proper.lone
    rw [split] at all lone
    refine { definitions := ?_, roots := proper.roots, lone := ?_ }
    · intro other member
      rcases List.mem_append.mp member with earlier | here
      · exact all other (List.mem_append_left _ earlier)
      · rcases List.mem_cons.mp here with rfl | later
        · exact keeps type (all (.object type) (List.mem_append_right _ (List.mem_cons_self ..)))
        · exact all other (List.mem_append_right _ (List.mem_cons_of_mem _ later))
    · exact lone.update (sameName type) (same ▸ free)

theorem mem_names_set {known : RootNames} {operation : Operation} {root name : String}
    (member : name ∈ (known.set operation root).names) : name ∈ known.names ∨ name = root := by
  cases operation <;> simp [RootNames.set, RootNames.names] at member ⊢ <;> grind

/-- Root names that are given later take the place of earlier ones or are added to them. -/
theorem mem_names_setAll {known : RootNames} {given : List (Operation × String)} {name : String}
    (member : name ∈ (given.foldl (fun known (operation, root) => known.set operation root) known).names) :
    name ∈ known.names ∨ ∃ entry ∈ given, name = entry.2 := by
  induction given generalizing known with
  | nil => exact Or.inl member
  | cons head rest ih =>
    rcases ih member with here | ⟨entry, later, same⟩
    · rcases mem_names_set here with old | new
      · exact Or.inl old
      · exact Or.inr ⟨head, List.mem_cons_self .., new⟩
    · exact Or.inr ⟨entry, List.mem_cons_of_mem _ later, same⟩

/-- Each statement keeps a schema proper. -/
theorem Proper.apply {statement : Statement} (proper : schema.Proper) (added : statement.Proper) :
    (schema.apply statement).Proper := by
  cases statement with
  | object type => exact proper.updateOrAdd (fun _ => rfl) (fun _ known => known.define added) added
  | extendObject name fields => exact proper.updateOrAdd (fun _ => rfl) (fun _ known => known.extend added) added
  | input type => exact proper.add added nofun
  | enum type => exact proper.add added nofun
  | union type => exact proper.add added nofun
  | roots given =>
    refine { definitions := proper.definitions, roots := ?_, lone := proper.lone }
    intro names same name member
    cases same
    rcases mem_names_setAll member with old | ⟨entry, new, rfl⟩
    · cases known : schema.rootNames with
      | none => simp [known, RootNames.names] at old
      | some names =>
        rw [known] at old
        exact proper.roots names known name old
    · exact added entry new
  | extendInput | extendEnum | extendUnion | extendRoots | unmodelled => exact proper

theorem Proper.applyAll {statements : List Statement} (proper : schema.Proper)
    (added : ∀ statement ∈ statements, statement.Proper) : (schema.applyAll statements).Proper := by
  induction statements generalizing schema with
  | nil => exact proper
  | cons head rest ih =>
    obtain ⟨first, others⟩ := List.forall_mem_cons.mp added
    exact ih (proper.apply first) others

theorem Proper.addSource {source text : String} {extended : Schema} (proper : schema.Proper)
    (read : schema.addSource source text = .ok extended) : extended.Proper := by
  rw [Schema.addSource] at read
  split at read
  · cases read
    exact proper
  · split at read
    next statements parsed =>
      cases read
      exact proper.applyAll (Source.parseDocument_proper parsed)
    next => cases read

theorem ofText_proper {text source : String} (read : Schema.ofText text source = .ok schema) : schema.Proper :=
  Proper.empty.addSource read

theorem Proper.wellTyped (proper : schema.Proper) : schema.WellTyped := by
  intro definition member field inside
  have sound := proper.definitions definition member
  cases definition with
  | object type => exact (sound.fields field inside).wellTyped
  | input type => exact (sound.fields field inside).wellTyped
  | enum type => cases inside
  | union type => cases inside

/-- Where a name leads to an object type, that is the only object type of the name. -/
theorem Proper.eq_of_objectType? {name : String} {type other : RecordType} (proper : schema.Proper)
    (found : schema.objectType? name = some type) (member : .object other ∈ schema.definitions)
    (sameName : other.name = name) : other = type := by
  have front := objectType?_eq_some_iff.mp found
  rw [← List.head?_filter] at front
  obtain ⟨rest, split⟩ := List.head?_eq_some_iff.mp front
  have listed : .object other ∈ schema.definitions.filter (·.name = name) :=
    List.mem_filter.mpr ⟨member, decide_eq_true sameName⟩
  rw [split] at listed
  rcases List.mem_cons.mp listed with same | later
  · exact Definition.object.inj same
  · exact absurd (proper.lone name type rest split _ later) nofun

end Schema

end SchemaScribe
