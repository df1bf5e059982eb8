import SchemaScribe.Files.SchemaFiles
import SchemaScribe.Proofs.ObjectLookup

/-! What the order of the sources decides. A definition keeps the place it got from the first source that has it. Of
fields of one name, a field that is already there wins over those of extensions, and the last definition of a type wins
over everything before it. -/

namespace SchemaScribe
open Source (Statement statementsOf bind_eq_ok)

/-- Under the names of these fields, the others are just these fields. -/
def Keeps (fields others : List Field) : Prop :=
  ∀ field ∈ fields, others.filter (·.name = field.name) = fields.filter (·.name = field.name)

theorem Keeps.refl (fields : List Field) : Keeps fields fields :=
  fun _ _ => rfl

theorem Keeps.trans {fields others more : List Field} (first : Keeps fields others) (second : Keeps others more) :
    Keeps fields more := by
  intro field member
  have named : field ∈ others.filter (·.name = field.name) := by
    rw [first field member]
    exact List.mem_filter.mpr ⟨member, decide_eq_true rfl⟩
  exact (second field (List.mem_filter.mp named).1).trans (first field member)

theorem keeps_append_new (fields others : List Field) : Keeps fields (fields ++ others.filter (!·.isIn fields)) := by
  intro field member
  have none : (others.filter (!·.isIn fields)).filter (·.name = field.name) = [] := by
    refine List.filter_eq_nil_iff.mpr fun other kept same => ?_
    have unknown := (List.mem_filter.mp kept).2
    have known : other.isIn fields :=
      Field.isIn_iff.mpr (List.mem_map.mpr ⟨field, member, (of_decide_eq_true same).symm⟩)
    rw [known] at unknown
    cases unknown
  rw [List.filter_append, none, List.append_nil]

theorem DefinitionStep.names {definitions given changed : List Definition}
    (step : DefinitionStep definitions given changed) : definitions.map (·.name) <+: changed.map (·.name) := by
  cases step with
  | unchanged => exact List.prefix_rfl
  | added definition =>
    rw [List.map_append]
    exact List.prefix_append ..
  | merged split here free kept =>
    rw [split]
    simp [Definition.name, here, kept]

namespace Schema

/-- How a schema stands to what later statements make of it. -/
structure Leads (first : Schema) (statements : List Statement) (whole : Schema) : Prop where
  /-- What is new is put behind what is there. -/
  places : first.definitions.map (·.name) <+: whole.definitions.map (·.name)
  /-- Where a type is only extended, the fields that it has win over those that are added. -/
  extended : ∀ name type, first.objectType? name = some type →
    (∀ base, .object base ∈ statements → base.name ≠ name) →
    ∃ merged, whole.objectType? name = some merged ∧ Keeps type.fields merged.fields
  /-- Where a type is defined again, the fields of its last definition win over all others. -/
  defined : ∀ type base before after, first.objectType? base.name = some type →
    statements = before ++ .object base :: after → (∀ other, .object other ∈ after → other.name ≠ base.name) →
    ∃ merged, whole.objectType? base.name = some merged ∧ Keeps base.fields merged.fields

theorem names_applyAll (schema : Schema) (statements : List Statement) :
    schema.definitions.map (·.name) <+: (schema.applyAll statements).definitions.map (·.name) := by
  induction statements generalizing schema with
  | nil => exact List.prefix_rfl
  | cons head rest ih => exact (schema.apply_step head).names.trans (ih (schema.apply head))

section Fields

variable {schema : Schema} {name : String} {type fresh : RecordType} {update : RecordType → RecordType}
  (found : schema.objectType? name = some type)
include found

theorem objectType?_add_of_found (definition : Definition) : (schema.add definition).objectType? name = some type := by
  obtain ⟨here, before, after, split, free⟩ := objectType?_eq_some_iff_split.mp found
  refine objectType?_eq_some_iff_split.mpr ⟨here, before, after ++ [definition], ?_, free⟩
  rw [add, split, List.append_assoc, List.cons_append]

theorem objectType?_updateOrAdd_of_ne (other : fresh.name ≠ name) (sameName : ∀ type, (update type).name = type.name) :
    (schema.updateOrAdd update fresh).objectType? name = some type := by
  cases known : schema.objectType? fresh.name with
  | none =>
    rw [updateOrAdd_of_missing known]
    exact objectType?_add_of_found found _
  | some old =>
    obtain ⟨here, before, after, split, free⟩ := objectType?_eq_some_iff_split.mp known
    have skipped {passed : RecordType} (same : passed.name = fresh.name) :
        (Definition.object passed :: after).find? (·.name = name) = after.find? (·.name = name) := by
      refine List.find?_cons_of_neg fun matched => other ?_
      rw [← same]
      exact of_decide_eq_true matched
    rw [updateOrAdd_of_found split free here]
    rw [objectType?_eq_some_iff, split, List.find?_append, skipped here] at found
    rw [objectType?_eq_some_iff, List.find?_append, skipped ((sameName old).trans here)]
    exact found

theorem objectType?_updateOrAdd_of_eq (here : fresh.name = name) (sameName : ∀ type, (update type).name = type.name) :
    (schema.updateOrAdd update fresh).objectType? name = some (update type) := by
  subst here
  obtain ⟨here, before, after, split, free⟩ := objectType?_eq_some_iff_split.mp found
  rw [updateOrAdd_of_found split free here]
  exact objectType?_eq_some_iff_split.mpr ⟨(sameName type).trans here, before, after, rfl, free⟩

/-- A name that leads to an object type goes on doing so, and only a definition takes the lead over its fields. -/
theorem exists_apply (statement : Statement) :
    ∃ merged, (schema.apply statement).objectType? name = some merged ∧
      (∀ base, statement = .object base → base.name = name → Keeps base.fields merged.fields) ∧
      ((∀ base, statement = .object base → base.name ≠ name) → Keeps type.fields merged.fields) := by
  cases statement with
  | object base =>
    by_cases here : base.name = name
    · refine ⟨_, objectType?_updateOrAdd_of_eq found here fun _ => rfl, ?_, fun never => absurd here (never base rfl)⟩
      rintro _ ⟨⟩ -
      exact keeps_append_new base.fields type.fields
    · refine ⟨type, objectType?_updateOrAdd_of_ne found here fun _ => rfl, ?_, fun _ => .refl _⟩
      rintro _ ⟨⟩ same
      exact absurd same here
  | extendObject other fields =>
    by_cases here : other = name
    · refine ⟨_, objectType?_updateOrAdd_of_eq found here fun _ => rfl, nofun, fun _ => ?_⟩
      change Keeps type.fields (extendFields type.fields fields)
      rw [extendFields_eq]
      exact keeps_append_new _ _
    · exact ⟨type, objectType?_updateOrAdd_of_ne found here fun _ => rfl, nofun, fun _ => .refl _⟩
  | input | enum | union => exact ⟨type, objectType?_add_of_found found _, nofun, fun _ => .refl _⟩
  | roots | unmodelled => exact ⟨type, found, nofun, fun _ => .refl _⟩
  | extendInput | extendEnum | extendUnion | extendRoots => exact ⟨type, found, nofun, fun _ => .refl _⟩

theorem exists_applyAll (statements : List Statement) :
    ∃ merged, (schema.applyAll statements).objectType? name = some merged ∧
      ((∀ base, .object base ∈ statements → base.name ≠ name) → Keeps type.fields merged.fields) := by
  induction statements generalizing schema type with
  | nil => exact ⟨type, found, fun _ => .refl _⟩
  | cons head rest ih =>
    obtain ⟨middle, next, -, first⟩ := exists_apply found head
    obtain ⟨merged, last, others⟩ := ih next
    refine ⟨merged, last, fun never => ?_⟩
    have here : Keeps type.fields middle.fields := by
      refine first fun base same => never base ?_
      rw [same]
      exact List.mem_cons_self ..
    exact here.trans (others fun base member => never base (List.mem_cons_of_mem _ member))

end Fields

theorem leads_applyAll (first : Schema) (statements : List Statement) :
    first.Leads statements (first.applyAll statements) where
  places := names_applyAll first statements
  extended name type found never := by
    obtain ⟨merged, last, keeps⟩ := exists_applyAll found statements
    exact ⟨merged, last, keeps never⟩
  defined type base before after found split never := by
    obtain ⟨middle, reached, -⟩ := exists_applyAll found before
    obtain ⟨redefined, next, leading, -⟩ := exists_apply reached (.object base)
    obtain ⟨merged, last, keeps⟩ := exists_applyAll next after
    refine ⟨merged, ?_, (leading base rfl rfl).trans (keeps never)⟩
    rw [split, applyAll_append]
    exact last

end Schema

/-- All files can be read, and these are their statements in order. -/
inductive FilesHold : List (String × ByteArray) → List Statement → Prop
  | nil : FilesHold [] []
  | cons {path text : String} {content : ByteArray} {files : List (String × ByteArray)}
      {statements others : List Statement} (admitted : FileTree.admits path)
      (decoded : decodeText? content = some text) (read : statementsOf text = .ok statements)
      (rest : FilesHold files others) : FilesHold ((path, content) :: files) (statements ++ others)

theorem FilesHold.unique {files : List (String × ByteArray)} {statements others : List Statement}
    (first : FilesHold files statements) (second : FilesHold files others) : statements = others := by
  induction first generalizing others with
  | nil =>
    cases second
    rfl
  | cons _ decoded read _ ih =>
    cases second with
    | cons _ otherDecoded otherRead rest =>
      cases decoded.symm.trans otherDecoded
      cases read.symm.trans otherRead
      rw [ih rest]

namespace Schema

def addFiles (schema : Schema) (files : List (String × ByteArray)) : Except LoadError Schema :=
  files.foldlM (fun schema file => schema.addFile file.1 file.2) schema

theorem ofFiles_eq_addFiles (files : List (String × ByteArray)) : ofFiles files = ({} : Schema).addFiles files :=
  rfl

variable {schema extended : Schema}

theorem addFile_eq_ok_iff {path : String} {content : ByteArray} :
    schema.addFile path content = .ok extended ↔
      FileTree.admits path ∧ ∃ text statements, decodeText? content = some text ∧
        statementsOf text = .ok statements ∧ extended = schema.applyAll statements := by
  rw [addFile]
  cases admitted : FileTree.admits path with
  | false => simp
  | true =>
    cases decoded : decodeText? content with
    | none => simp
    | some text =>
      have added : (schema.addSource (Path.fileName path) text).mapError LoadError.source = .ok extended ↔
          schema.addSource (Path.fileName path) text = .ok extended := by
        cases schema.addSource (Path.fileName path) text <;> simp [Except.mapError]
      simp [added, addSource_eq_ok_iff]

theorem addFiles_eq_ok_iff {files : List (String × ByteArray)} :
    schema.addFiles files = .ok extended ↔
      ∃ statements, FilesHold files statements ∧ extended = schema.applyAll statements := by
  induction files generalizing schema with
  | nil =>
    constructor
    · intro same
      exact ⟨[], .nil, (Except.ok.inj same).symm⟩
    · rintro ⟨statements, held, rfl⟩
      cases held
      rfl
  | cons file rest ih =>
    rw [addFiles, List.foldlM_cons]
    constructor
    · intro added
      obtain ⟨middle, first, others⟩ := bind_eq_ok added
      obtain ⟨admitted, text, statements, decoded, read, rfl⟩ := addFile_eq_ok_iff.mp first
      obtain ⟨further, held, rfl⟩ := ih.mp others
      exact ⟨statements ++ further, .cons admitted decoded read held, (applyAll_append ..).symm⟩
    · rintro ⟨statements, held, rfl⟩
      cases held with
      | @cons path text content files own further admitted decoded read held =>
        have first : schema.addFile path content = .ok _ :=
          addFile_eq_ok_iff.mpr ⟨admitted, text, own, decoded, read, rfl⟩
        have others := ih.mpr ⟨further, held, applyAll_append schema own further⟩
        rw [first]
        exact others

/-- What the files so far have built leads what the other files make of it. -/
theorem leads_ofFiles {earlier later : List (String × ByteArray)} {first whole : Schema}
    (read : ofFiles earlier = .ok first) (all : ofFiles (earlier ++ later) = .ok whole) :
    ∃ statements, FilesHold later statements ∧ first.Leads statements whole := by
  rw [ofFiles_eq_addFiles, addFiles, List.foldlM_append] at all
  obtain ⟨middle, same, others⟩ := bind_eq_ok all
  cases same.symm.trans read
  obtain ⟨statements, held, rfl⟩ := addFiles_eq_ok_iff.mp others
  exact ⟨statements, held, first.leads_applyAll statements⟩

end Schema

end SchemaScribe
