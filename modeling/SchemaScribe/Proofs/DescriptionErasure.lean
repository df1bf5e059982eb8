import SchemaScribe.Proofs.DescribedShapes
import SchemaScribe.Proofs.Outcome
import SchemaScribe.Proofs.RedescribedWriting

/-! Schemas without their descriptions. The walks over a schema with and without descriptions go side by side until, if
ever, a description decides whether two declarations can stand for each other. That happens to enums only. -/

namespace SchemaScribe
open Source (bind_eq_ok map_eq_ok)

variable {schema : Schema} {scalars : Scalars}

/-- Two declarations of that name are emitted that can stand for each other with their descriptions or without them, but
not both. -/
def Schema.TellsApart (schema : Schema) (scalars : Scalars) (name : String) : Prop :=
  ∃ first second, schema.Emits scalars first ∧ schema.Emits scalars second ∧ first.name = name ∧ second.name = name ∧
    ¬Unaffected first second

/-- The second outcome is the image of the first, or one of them is a conflict over such a name. -/
def Parallel (decides : String → Prop) (f : α → β) (first : Except WriteError α) (second : Except WriteError β) :
    Prop :=
  second = first.map f ∨ ∃ name, decides name ∧
    (first = .error (.conflictingDeclarations name) ∨ second = .error (.conflictingDeclarations name))

namespace Parallel

variable {decides : String → Prop}

theorem bind {f : α → β} {g : γ → δ} {first : Except WriteError α} {second : Except WriteError β}
    {next : α → Except WriteError γ} {others : β → Except WriteError δ} (parallel : Parallel decides f first second)
    (after : ∀ value, first = .ok value → Parallel decides g (next value) (others (f value))) :
    Parallel decides g (first >>= next) (second >>= others) := by
  rcases parallel with rfl | ⟨name, decided, failed | failed⟩
  · cases first with
    | error error => exact Or.inl rfl
    | ok value => exact after value rfl
  · rw [failed]
    exact Or.inr ⟨name, decided, Or.inl rfl⟩
  · rw [failed]
    exact Or.inr ⟨name, decided, Or.inr rfl⟩

end Parallel

theorem find?_redescribe {change : Option String → Option String} (declarations : List Declaration) (name : String) :
    (declarations.map (·.redescribe change)).find? (·.name = name) =
      (declarations.find? (·.name = name)).map (·.redescribe change) := by
  rw [List.find?_map]
  simp only [Function.comp_def, Declaration.name_redescribe]

/-- One more declaration is treated alike in both runs, unless descriptions decide whether it fits. -/
theorem addDeclaration_parallel {collected : List Declaration} {declaration : Declaration}
    (known : ∀ other ∈ collected, schema.Emits scalars other) (emits : schema.Emits scalars declaration) :
    Parallel (schema.TellsApart scalars) (List.map (·.redescribe undescribed)) (addDeclaration collected declaration)
      (addDeclaration (collected.map (·.redescribe undescribed)) (declaration.redescribe undescribed)) := by
  rw [addDeclaration, addDeclaration, Declaration.name_redescribe, find?_redescribe]
  cases found : collected.find? (·.name = declaration.name) with
  | none =>
    refine Or.inl (congrArg Except.ok ?_)
    rw [List.map_append]
    rfl
  | some other =>
    have matching := List.find?_some found
    have sameName : other.name = declaration.name := of_decide_eq_true matching
    have otherEmits := known other (List.mem_of_find?_eq_some found)
    dsimp only [Option.map_some]
    by_cases alike : Unaffected other declaration
    · left
      by_cases same : other.shape = declaration.shape
      · rw [if_pos same, if_pos (alike.mp same)]
        rfl
      · rw [if_neg same, if_neg (fun equal => same (alike.mpr equal))]
        rfl
    · refine Or.inr ⟨declaration.name, ⟨other, declaration, otherEmits, emits, sameName, rfl, alike⟩, ?_⟩
      by_cases same : other.shape = declaration.shape
      · exact Or.inr (if_neg fun equal => alike ⟨fun _ => equal, fun _ => same⟩)
      · exact Or.inl (if_neg same)

theorem mem_addDeclaration {collected extended : List Declaration} {declaration other : Declaration}
    (added : addDeclaration collected declaration = .ok extended) (member : other ∈ extended) :
    other ∈ collected ∨ other = declaration := by
  rw [addDeclaration] at added
  cases found : collected.find? (·.name = declaration.name) with
  | none =>
    rw [found] at added
    cases added
    simpa using member
  | some known =>
    rw [found] at added
    dsimp only at added
    split at added
    · cases added
      exact Or.inl member
    · cases added

theorem addDeclarations_cons (collected : List Declaration) (declaration : Declaration) (rest : List Declaration) :
    addDeclarations collected (declaration :: rest) =
      addDeclaration collected declaration >>= (addDeclarations · rest) :=
  List.foldlM_cons

theorem mem_addDeclarations {collected extended declarations : List Declaration} {other : Declaration}
    (added : addDeclarations collected declarations = .ok extended) (member : other ∈ extended) :
    other ∈ collected ∨ other ∈ declarations := by
  induction declarations generalizing collected with
  | nil =>
    cases added
    exact Or.inl member
  | cons head rest ih =>
    rw [addDeclarations_cons] at added
    obtain ⟨middle, first, added⟩ := bind_eq_ok added
    rcases ih added with inMiddle | later
    · rcases mem_addDeclaration first inMiddle with known | rfl
      · exact Or.inl known
      · exact Or.inr (List.mem_cons_self ..)
    · exact Or.inr (List.mem_cons_of_mem _ later)

theorem addDeclarations_parallel {collected declarations : List Declaration}
    (known : ∀ other ∈ collected, schema.Emits scalars other)
    (emits : ∀ declaration ∈ declarations, schema.Emits scalars declaration) :
    Parallel (schema.TellsApart scalars) (List.map (·.redescribe undescribed))
      (addDeclarations collected declarations)
      (addDeclarations (collected.map (·.redescribe undescribed)) (declarations.map (·.redescribe undescribed))) := by
  induction declarations generalizing collected with
  | nil => exact Or.inl rfl
  | cons head rest ih =>
    obtain ⟨first, others⟩ := List.forall_mem_cons.mp emits
    rw [List.map_cons, addDeclarations_cons, addDeclarations_cons]
    refine (addDeclaration_parallel known first).bind fun extended added => ih (fun other member => ?_) others
    rcases mem_addDeclaration added member with old | rfl
    · exact known other old
    · exact first

/-- The walk over the definitions goes the same way without descriptions, as long as they do not decide. -/
theorem collect_parallel {collected : List Declaration} {definitions : List Definition}
    (known : ∀ other ∈ collected, schema.Emits scalars other)
    (defined : ∀ definition ∈ definitions, definition ∈ schema.definitions) :
    Parallel (schema.TellsApart scalars) (List.map (·.redescribe undescribed))
      (collect schema scalars collected definitions)
      (collect (schema.redescribe undescribed) scalars (collected.map (·.redescribe undescribed))
        (definitions.map (·.redescribe undescribed))) := by
  induction definitions generalizing collected with
  | nil => exact Or.inl rfl
  | cons definition rest ih =>
    obtain ⟨here, later⟩ := List.forall_mem_cons.mp defined
    rw [List.map_cons, collect_cons, collect_cons]
    have added : Parallel (schema.TellsApart scalars) (List.map (·.redescribe undescribed))
        (definition.added schema scalars)
        ((definition.redescribe undescribed).added (schema.redescribe undescribed) scalars) :=
      Or.inl (definition.added_redescribe rfl schema scalars)
    refine added.bind fun declarations emitted => ?_
    obtain ⟨-, rfl⟩ := Definition.added_eq_ok emitted
    have emits : ∀ declaration ∈ definition.emitted schema scalars, schema.Emits scalars declaration := by
      intro declaration member
      exact Schema.mem_emitted_iff.mp (List.mem_flatMap.mpr ⟨definition, here, member⟩)
    refine (addDeclarations_parallel known emits).bind fun extended done => ih (fun other member => ?_) later
    rcases mem_addDeclarations done member with old | new
    · exact known other old
    · exact emits other new

namespace Schema

private theorem mapM_redescribe {write : RecordType → Except WriteError CaseClass}
    (each : ∀ type : RecordType, write (type.redescribe undescribed) = (write type).map (·.redescribe undescribed))
    (root : Option RecordType) :
    (root.map (·.redescribe undescribed)).mapM write =
      (root.mapM write).map (Option.map (·.redescribe undescribed)) := by
  cases root with
  | none => rfl
  | some type =>
    change (write (type.redescribe undescribed) >>= fun value => pure (some value)) =
      Except.map _ (write type >>= fun value => pure (some value))
    rw [each]
    cases write type <;> rfl

theorem write_parallel (schema : Schema) (context : WriteContext) (packageName : Option String) :
    Parallel (schema.TellsApart context.scalars) (·.redescribe undescribed) (schema.write context packageName)
      ((schema.redescribe undescribed).write context packageName) := by
  have roots : Parallel (schema.TellsApart context.scalars) (·.redescribe undescribed) schema.roots
      (schema.redescribe undescribed).roots :=
    Or.inl schema.roots_redescribe
  refine roots.bind fun served found => ?_
  obtain ⟨-, rfl⟩ := roots_eq_ok_iff.mp found
  have sameRoots : schema.rootTypes.redescribe undescribed = (schema.redescribe undescribed).rootTypes := by
    simp only [Roots.redescribe, rootTypes, rootType?_redescribe]
  have types : Parallel (schema.TellsApart context.scalars) (List.map (·.redescribe undescribed))
      (schema.typeDeclarations context.scalars (schema.nestedNames schema.rootTypes))
      ((schema.redescribe undescribed).typeDeclarations context.scalars
        ((schema.redescribe undescribed).nestedNames (schema.rootTypes.redescribe undescribed))) := by
    rw [sameRoots, typeDeclarations_eq_collect, typeDeclarations_eq_collect]
    exact collect_parallel (List.forall_mem_nil _) fun _ member => member
  refine types.bind fun declarations _ => ?_
  have operation (root : Option RecordType) :=
    mapM_redescribe (fun type => type.writeOperation_redescribe rfl context) root
  have subscription (root : Option RecordType) :=
    mapM_redescribe (fun type => type.writeSubscription_redescribe rfl context) root
  refine Parallel.bind (Or.inl (operation schema.rootTypes.query)) fun query _ => ?_
  refine Parallel.bind (Or.inl (operation schema.rootTypes.mutation)) fun mutation _ => ?_
  refine Parallel.bind (Or.inl (subscription schema.rootTypes.subscription)) fun subscription _ => ?_
  exact Or.inl rfl

theorem Emits.cases {declaration : Declaration} (emits : schema.Emits scalars declaration) :
    (∃ declared, declaration = .caseClass declared) ∨
      (∃ type, .enum type ∈ schema.definitions ∧ declaration = .sealedTrait type.sealedTrait) ∨
      ∃ type, .union type ∈ schema.definitions ∧ declaration = .sealedTrait (type.sealedTrait schema scalars) := by
  cases emits with
  | argumentClass | object | input | memberArgumentClass => exact Or.inl ⟨_, rfl⟩
  | enum defined => exact Or.inr (Or.inl ⟨_, defined, rfl⟩)
  | union defined => exact Or.inr (Or.inr ⟨_, defined, rfl⟩)

theorem Named.enumValue (named : schema.Named) {type : EnumType} (defined : .enum type ∈ schema.definitions)
    {value : EnumValue} (given : value ∈ type.values) : IsName value.name := by
  apply named
  refine List.mem_append_left _ (List.mem_flatMap.mpr ⟨.enum type, defined, ?_⟩)
  exact List.mem_cons_of_mem _ (List.mem_map_of_mem given)

/-- Under proper names, descriptions decide over nothing but enums that are defined twice with the same values. -/
theorem tellsApart_iff (named : schema.Named) {name : String} :
    schema.TellsApart scalars name ↔
      ∃ first second : EnumType, .enum first ∈ schema.definitions ∧ .enum second ∈ schema.definitions ∧
        first.name = name ∧ second.name = name ∧
        first.values.map (·.name) = second.values.map (·.name) ∧
        first.values.map (descriptionClause ·.description) ≠ second.values.map (descriptionClause ·.description) := by
  constructor
  · rintro ⟨first, second, emits, otherEmits, sameName, otherName, affected⟩
    rcases emits.cases with ⟨declared, rfl⟩ | ⟨type, defined, rfl⟩ | ⟨type, defined, rfl⟩
    · exact absurd (Unaffected.caseClass declared second) affected
    · rcases otherEmits.cases with ⟨declared, rfl⟩ | ⟨other, otherDefined, rfl⟩ | ⟨other, otherDefined, rfl⟩
      · exact absurd (Unaffected.caseClass declared _).symm affected
      · obtain ⟨-, values, descriptions⟩ := (Unaffected.enums_iff type other).mp affected
        refine ⟨type, other, defined, otherDefined, sameName, otherName, ?_, descriptions⟩
        refine map_eq_map_of_forall values fun value given another listed equal => ?_
        exact safeName_inj (named.enumValue defined given) (named.enumValue otherDefined listed) equal
      · exact absurd (Unaffected.enum_union type other) affected
    · rcases otherEmits.cases with ⟨declared, rfl⟩ | ⟨other, otherDefined, rfl⟩ | ⟨other, otherDefined, rfl⟩
      · exact absurd (Unaffected.caseClass declared _).symm affected
      · exact absurd (Unaffected.enum_union other type).symm affected
      · exact absurd (Unaffected.unions named type other) affected
  · rintro ⟨first, second, defined, otherDefined, sameName, otherName, values, descriptions⟩
    refine ⟨_, _, .enum defined, .enum otherDefined, sameName, otherName, ?_⟩
    refine (Unaffected.enums_iff first second).mpr ⟨sameName.trans otherName.symm, ?_, descriptions⟩
    exact map_eq_map_of_forall values fun value _ other _ equal => congrArg safeName equal

/-- Where descriptions decide, one of the two schemas cannot be written. -/
theorem TellsApart.not_both {name : String} {context : WriteContext} {packageName : Option String}
    {document other : Document} (decides : schema.TellsApart context.scalars name)
    (written : schema.write context packageName = .ok document)
    (otherWritten : (schema.redescribe undescribed).write context packageName = .ok other) : False := by
  obtain ⟨first, second, emits, otherEmits, sameName, otherName, affected⟩ := decides
  obtain ⟨-, -, compatible, -⟩ := write_eq_ok written
  obtain ⟨-, -, otherCompatible, -⟩ := write_eq_ok otherWritten
  rw [emitted_redescribe rfl] at otherCompatible
  have inFirst := mem_emitted_iff.mpr emits
  have inSecond := mem_emitted_iff.mpr otherEmits
  have same : first.name = second.name := sameName.trans otherName.symm
  refine affected ⟨fun _ => ?_, fun _ => compatible first inFirst second inSecond same⟩
  refine otherCompatible _ (List.mem_map_of_mem inFirst) _ (List.mem_map_of_mem inSecond) ?_
  rw [Declaration.name_redescribe, Declaration.name_redescribe, same]

/-- Under proper names, a schema in which descriptions decide is refused for them. -/
theorem TellsApart.not_written (named : schema.Named) {name : String} {context : WriteContext}
    {packageName : Option String} {document : Document} (decides : schema.TellsApart context.scalars name)
    (written : schema.write context packageName = .ok document) : False := by
  obtain ⟨-, -, compatible, -⟩ := write_eq_ok written
  obtain ⟨first, second, defined, otherDefined, sameName, otherName, -, descriptions⟩ :=
    (tellsApart_iff named).mp decides
  have sameShape := compatible _ (mem_emitted_iff.mpr (.enum defined)) _ (mem_emitted_iff.mpr (.enum otherDefined))
    (sameName.trans otherName.symm)
  exact descriptions (EnumType.shape_eq_iff.mp sameShape).2.2

end Schema

namespace Settings

/-- Without its descriptions a schema is written as the same document without descriptions, or is refused with the same
error, unless descriptions decide over a conflict. Then one of the two is refused for it. Under proper names it is the
schema with the descriptions, and an enum is defined twice with the same values and with different descriptions. -/
theorem write_undescribed (settings : Settings) (schema : Schema) (effect : Option String) :
    (settings.write (schema.redescribe undescribed) effect =
        (settings.write schema effect).map (·.redescribe undescribed) ∨
      ∃ name, schema.TellsApart settings.scalars name ∧
        (settings.write schema effect = .error (.conflictingDeclarations name) ∨
          settings.write (schema.redescribe undescribed) effect = .error (.conflictingDeclarations name))) ∧
    (∀ name, schema.TellsApart settings.scalars name →
      ¬((∃ document, settings.write schema effect = .ok document) ∧
        ∃ document, settings.write (schema.redescribe undescribed) effect = .ok document)) ∧
    (schema.Named →
      (∀ name, schema.TellsApart settings.scalars name ↔
        ∃ first second : EnumType, .enum first ∈ schema.definitions ∧ .enum second ∈ schema.definitions ∧
          first.name = name ∧ second.name = name ∧
          first.values.map (·.name) = second.values.map (·.name) ∧
          first.values.map (descriptionClause ·.description) ≠ second.values.map (descriptionClause ·.description)) ∧
      ((∃ document, settings.write schema effect = .ok document) ↔
        (∃ document, settings.write (schema.redescribe undescribed) effect = .ok document) ∧
          ∀ name, ¬schema.TellsApart settings.scalars name)) := by
  have parallel : Parallel (schema.TellsApart settings.scalars) (·.redescribe undescribed)
      (settings.write schema effect) (settings.write (schema.redescribe undescribed) effect) :=
    schema.write_parallel (settings.context effect) settings.packageName
  have same (undecided : ∀ name, ¬schema.TellsApart settings.scalars name) :=
    parallel.resolve_right fun ⟨name, decides, _⟩ => undecided name decides
  refine ⟨parallel, ?_, fun named => ⟨fun name => Schema.tellsApart_iff named, ?_, ?_⟩⟩
  · rintro name decides ⟨⟨document, written⟩, other, otherWritten⟩
    exact decides.not_both written otherWritten
  · rintro ⟨document, written⟩
    have undecided (name : String) (decides : schema.TellsApart settings.scalars name) : False :=
      decides.not_written named written
    rw [same undecided, written]
    exact ⟨⟨_, rfl⟩, undecided⟩
  · rintro ⟨⟨document, written⟩, undecided⟩
    rw [same undecided] at written
    obtain ⟨original, found, -⟩ := map_eq_ok written
    exact ⟨original, found⟩

/-- An enum is defined twice, and only the first definition describes its value. -/
def describedTwice : Schema :=
  { definitions :=
      [.enum { name := "E", values := [{ name := "A", description := some "d" }] },
       .enum { name := "E", values := [{ name := "A" }] }] }

/-- The enum is what descriptions decide over, and so the schema cannot be written. -/
theorem write_undescribed_describedTwice :
    describedTwice.Named ∧ describedTwice.TellsApart ({} : Settings).scalars "E" ∧
      (¬∃ document, ({} : Settings).write describedTwice = .ok document) ∧
      ∃ name, describedTwice.TellsApart ({} : Settings).scalars name ∧
        ({} : Settings).write describedTwice = .error (.conflictingDeclarations name) := by
  have named : describedTwice.Named := by decide
  have other : ({} : Settings).write (describedTwice.redescribe undescribed) = .ok _ := rfl
  obtain ⟨parallel, -, proper⟩ := write_undescribed {} describedTwice none
  obtain ⟨decides_iff, written_iff⟩ := proper named
  have decides : describedTwice.TellsApart ({} : Settings).scalars "E" :=
    (decides_iff "E").mpr ⟨_, _, List.mem_cons_self .., List.mem_cons_of_mem _ (List.mem_cons_self ..), rfl, rfl, rfl,
      by decide +kernel⟩
  have refused : ¬∃ document, ({} : Settings).write describedTwice = .ok document :=
    fun written => (written_iff.mp written).2 "E" decides
  refine ⟨named, decides, refused, ?_⟩
  rcases parallel with same | ⟨name, apart, conflict | otherConflict⟩
  · obtain ⟨document, written, -⟩ := map_eq_ok (same.symm.trans other)
    exact absurd ⟨document, written⟩ refused
  · exact ⟨name, apart, conflict⟩
  · cases other.symm.trans otherConflict

/-- It is refused for the description, and written without it. -/
theorem description_decides :
    Schema.ofText "enum E \x7b \"d\" A \x7d enum E \x7b A \x7d" = .ok describedTwice ∧
      ({} : Settings).write describedTwice = .error (.conflictingDeclarations "E") ∧
      ∃ document, ({} : Settings).write (describedTwice.redescribe undescribed) = .ok document := by
  exact ⟨by decide +kernel, by decide +kernel, _, rfl⟩

end Settings

end SchemaScribe
