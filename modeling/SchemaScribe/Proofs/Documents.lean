import SchemaScribe.Schema.Build
import SchemaScribe.Source.Progress

/-! Documents as lists of statements. A schema is built from the statements alone: a blank document has none, and those
of several documents are applied one after the other, so it does not matter where one document ends and the next
begins. -/

namespace SchemaScribe
open Source (Statement SyntaxError bind_eq_ok)

namespace Source

def statementsOf (text : String) : Except SyntaxError (List Statement) :=
  if Text.isBlankText text then .ok [] else parseDocument text

/-- All documents, each with its name, can be read, and these are their statements in order. -/
inductive Hold : List (String × String) → List Statement → Prop where
  | nil : Hold [] []
  | cons {source text : String} {statements others : List Statement} {documents : List (String × String)}
      (read : statementsOf text = .ok statements) (rest : Hold documents others) :
      Hold ((source, text) :: documents) (statements ++ others)

end Source

namespace Schema

def addSources (schema : Schema) (documents : List (String × String)) : Except SourceError Schema :=
  documents.foldlM (fun schema document => schema.addSource document.1 document.2) schema

variable {schema extended : Schema}

theorem applyAll_append (schema : Schema) (first second : List Statement) :
    schema.applyAll (first ++ second) = (schema.applyAll first).applyAll second :=
  List.foldl_append

theorem addSource_eq_ok_iff {source text : String} :
    schema.addSource source text = .ok extended ↔
      ∃ statements, Source.statementsOf text = .ok statements ∧ extended = schema.applyAll statements := by
  rw [addSource, Source.statementsOf]
  by_cases blank : Text.isBlankText text
  · rw [if_pos blank, if_pos blank]
    constructor
    · intro same
      exact ⟨[], rfl, (Except.ok.inj same).symm⟩
    · rintro ⟨statements, none, rfl⟩
      cases none
      rfl
  · rw [if_neg blank, if_neg blank]
    cases Source.parseDocument text with
    | error cause => exact ⟨nofun, nofun⟩
    | ok statements =>
      constructor
      · intro same
        exact ⟨statements, rfl, (Except.ok.inj same).symm⟩
      · rintro ⟨others, same, rfl⟩
        cases same
        rfl

theorem ofText_eq_ok_iff {source text : String} :
    Schema.ofText text source = .ok schema ↔
      ∃ statements, Source.statementsOf text = .ok statements ∧ schema = ({} : Schema).applyAll statements :=
  addSource_eq_ok_iff

theorem addSources_eq_ok_iff {documents : List (String × String)} :
    schema.addSources documents = .ok extended ↔
      ∃ statements, Source.Hold documents statements ∧ extended = schema.applyAll statements := by
  induction documents generalizing schema with
  | nil =>
    constructor
    · intro same
      exact ⟨[], .nil, (Except.ok.inj same).symm⟩
    · rintro ⟨statements, held, rfl⟩
      cases held
      rfl
  | cons document rest ih =>
    rw [addSources, List.foldlM_cons]
    constructor
    · intro added
      obtain ⟨middle, first, others⟩ := bind_eq_ok added
      obtain ⟨statements, read, rfl⟩ := addSource_eq_ok_iff.mp first
      obtain ⟨further, held, rfl⟩ := ih.mp others
      exact ⟨statements ++ further, .cons read held, (applyAll_append ..).symm⟩
    · rintro ⟨statements, held, rfl⟩
      cases held with
      | @cons source text own further documents read held =>
        have first : schema.addSource source text = .ok _ := addSource_eq_ok_iff.mpr ⟨own, read, rfl⟩
        have others := ih.mpr ⟨further, held, applyAll_append schema own further⟩
        rw [first]
        exact others

end Schema

end SchemaScribe
