import SchemaScribe.Proofs.Outcome
import SchemaScribe.Settings.Declarations

/-! Declarations in a document and on their own. Both come from the same definition, but in a document an earlier
declaration of the same name can stand for it. -/

namespace SchemaScribe
open Source (bind_eq_ok map_eq_ok)

/-- What is declared on its own is emitted, and its name has one block among the data types. The block is the first that
is emitted under the name. It has the same shape, and the same text unless the name is taken before. -/
def Document.Shows (document : Document) (emitted : List Declaration) (declared : Except WriteError Declaration)
    (text : Except WriteError String) : Prop :=
  ∃ own block, declared = .ok own ∧ text = .ok own.text ∧ own ∈ emitted ∧
    document.types.filter (·.name = own.name) = [block] ∧ emitted.find? (·.name = own.name) = some block ∧
    block.shape = own.shape ∧
    ∀ before after, emitted = before ++ own :: after → (∀ known ∈ before, known.name ≠ own.name) →
      text = .ok block.text

variable {schema : Schema} {scalars : Scalars}

/-- The first declaration of a name stands for all others of the name. -/
theorem exists_block {declarations : List Declaration} {own : Declaration} (compatible : Compatible declarations)
    (member : own ∈ declarations) :
    ∃ block, (firstOfEachName declarations).filter (·.name = own.name) = [block] ∧
      declarations.find? (·.name = own.name) = some block ∧ block.shape = own.shape := by
  obtain ⟨block, kept, sameName⟩ := exists_kept member
  have single := filter_name_eq_singleton kept
  rw [sameName] at single
  refine ⟨block, single, ?_, compatible block (mem_of_mem_firstOfEachName kept) own member sameName⟩
  rw [← find?_firstOfEachName, ← List.head?_filter, single]
  rfl

theorem find?_of_first {before after : List Declaration} {own : Declaration}
    (free : ∀ known ∈ before, known.name ≠ own.name) :
    (before ++ own :: after).find? (·.name = own.name) = some own := by
  rw [List.find?_append, List.find?_eq_none.mpr fun known member same => free known member (of_decide_eq_true same),
    Option.none_or]
  exact List.find?_cons_of_pos (decide_eq_true rfl)

theorem Document.shows_of_emitted {document : Document} {emitted : List Declaration}
    {declared : Except WriteError Declaration} {text : Except WriteError String} {own : Declaration}
    (compatible : Compatible emitted) (types : document.types = firstOfEachName emitted) (written : declared = .ok own)
    (single : text = .ok own.text) (member : own ∈ emitted) : document.Shows emitted declared text := by
  obtain ⟨block, alone, first, sameShape⟩ := exists_block compatible member
  refine ⟨own, block, written, single, member, types ▸ alone, first, sameShape, ?_⟩
  rintro before after rfl free
  rw [find?_of_first free] at first
  cases first
  exact single

/-- A definition is emitted as what it defines is written on its own. -/
theorem Document.shows_of_write {document : Document} {emitted : List Declaration} {alone : Except WriteError α}
    {place : α → Declaration × List CaseClass} {own : Declaration} {arguments : List CaseClass}
    (compatible : Compatible emitted) (types : document.types = firstOfEachName emitted)
    (written : alone.map place = .ok (own, arguments)) (member : own ∈ emitted) :
    document.Shows emitted (alone.map fun single => (place single).1)
      (alone.map fun single => (place single).1.text) := by
  obtain ⟨single, rfl, same⟩ := map_eq_ok written
  obtain rfl : (place single).1 = own := congrArg Prod.fst same
  exact shows_of_emitted compatible types rfl rfl member

/-- Each step of a finished walk has been taken. -/
theorem added_of_collect {collected result : List Declaration} {definitions : List Definition}
    (done : collect schema scalars collected definitions = .ok result) :
    ∀ definition ∈ definitions, definition.added schema scalars = .ok (definition.emitted schema scalars) := by
  induction definitions generalizing collected with
  | nil => exact nofun
  | cons first rest ih =>
    rw [collect_cons] at done
    obtain ⟨declarations, added, done⟩ := bind_eq_ok done
    obtain ⟨middle, -, remaining⟩ := bind_eq_ok done
    obtain ⟨-, rfl⟩ := Definition.added_eq_ok added
    exact List.forall_mem_cons.mpr ⟨added, ih remaining⟩

theorem mapM_eq_ok_map {f : α → Except ε β} {g : α → β} {items : List α}
    (each : ∀ item ∈ items, f item = .ok (g item)) : items.mapM f = .ok (items.map g) := by
  induction items with
  | nil => rfl
  | cons first rest ih =>
    obtain ⟨here, later⟩ := List.forall_mem_cons.mp each
    rw [List.mapM_cons, here, ih later]
    rfl

theorem Definition.write_of_added {definition : Definition} {declarations : List Declaration}
    (added : definition.added schema scalars = .ok declarations) :
    definition.write schema scalars =
      .ok (definition.declaration schema scalars, definition.argumentClasses schema scalars) := by
  obtain ⟨written, succeeds, -⟩ := bind_eq_ok added
  rw [succeeds, (write_eq_ok succeeds).2]

/-- Where an object type can be written, so can the argument class of each of its fields. -/
theorem Field.writeArguments_of_writeObject {type : RecordType} {parent : Option String}
    {result : CaseClass × List CaseClass} (written : type.writeObject scalars parent = .ok result) {field : Field}
    (inside : field ∈ type.fields) : field.writeArguments scalars = .ok (field.argumentClass? scalars) := by
  obtain ⟨sound, -⟩ := unlessMalformed_eq_ok.mp written
  have none : field.faults = [] := List.flatMap_eq_nil_iff.mp (List.head?_eq_none_iff.mp sound) field inside
  rw [writeArguments, (List.append_eq_nil_iff.mp none).1]
  rfl

theorem map_text_of_mapM {root : Option RecordType} {write : RecordType → Except WriteError CaseClass}
    {result : Option CaseClass} (written : root.mapM write = .ok result) :
    root.map (fun type => (write type).map CaseClass.text) = result.map fun declared => .ok declared.text := by
  cases root with
  | none =>
    cases written
    rfl
  | some type =>
    obtain ⟨declared, found, done⟩ := bind_eq_ok written
    cases done
    exact congrArg (fun outcome => some (Except.map _ outcome)) found

namespace Settings

/-- Under the settings, the group of the operations holds the texts of the roots on their own. All data types that are
neither named like a root nor members of a union, and all argument classes, are shown as on their own in the other. -/
theorem write_shows_singles {settings : Settings} {effect : Option String} {document : Document}
    (written : settings.write schema effect = .ok document) :
    ∃ roots blocks, schema.roots = .ok roots ∧
      schema.definitions.mapM (·.typeDeclarations schema settings.scalars (schema.nestedNames roots)) = .ok blocks ∧
      [roots.query.map (settings.operationText · effect), roots.mutation.map (settings.operationText · effect),
        roots.subscription.map settings.subscriptionText].filterMap id =
          document.operations.map (fun declared => .ok declared.text) ∧
      document.LaidOut (document.types.map Declaration.text) (document.operations.map CaseClass.text) ∧
      (∀ type, .enum type ∈ schema.definitions →
        document.Shows blocks.flatten (.ok (.sealedTrait type.sealedTrait)) (.ok (enumText type))) ∧
      (∀ type, .union type ∈ schema.definitions →
        document.Shows blocks.flatten ((type.write schema settings.scalars).map (.sealedTrait ·.1))
          (settings.unionText schema type)) ∧
      (∀ type, .input type ∈ schema.definitions →
        document.Shows blocks.flatten ((type.writeInput settings.scalars).map .caseClass) (settings.inputText type)) ∧
      (∀ type, .object type ∈ schema.definitions → type.name ∉ roots.names → type.name ∉ schema.unionMembers →
        document.Shows blocks.flatten ((type.writeObject settings.scalars none).map (.caseClass ·.1))
          (settings.objectText type)) ∧
      ∀ type field, .object type ∈ schema.definitions → field ∈ type.fields → field.arguments ≠ [] →
        ∃ arguments, field.writeArguments settings.scalars = .ok (some arguments) ∧
          document.Shows blocks.flatten (.ok (.caseClass arguments)) (settings.argumentsText field) := by
  obtain ⟨-, -, compatible, same⟩ := Schema.write_eq_ok written
  obtain ⟨rooted, collected, query, mutation, subscription⟩ := Schema.write_parts written
  have types : document.types = firstOfEachName (schema.emitted settings.scalars) := congrArg Document.types same
  have added := added_of_collect collected
  have write (definition : Definition) (defined : definition ∈ schema.definitions) :
      definition.write schema settings.scalars = .ok _ :=
    Definition.write_of_added (added definition defined)
  have member {own : Declaration} (emits : schema.Emits settings.scalars own) :
      own ∈ (schema.definitions.map (·.emitted schema settings.scalars)).flatten := by
    rw [← List.flatMap_def]
    exact Schema.mem_emitted_iff.mpr emits
  rw [Schema.emitted, List.flatMap_def] at compatible types
  refine ⟨schema.rootTypes, _, rooted, mapM_eq_ok_map added, ?_, document.laidOut, ?_, ?_, ?_, ?_, ?_⟩
  · have texts : [schema.rootTypes.query.map (settings.operationText · effect),
        schema.rootTypes.mutation.map (settings.operationText · effect),
        schema.rootTypes.subscription.map settings.subscriptionText] =
        [document.query, document.mutation, document.subscription].map
          (Option.map fun declared => .ok declared.text) := by
      rw [List.map_cons, List.map_cons, List.map_cons, ← map_text_of_mapM query, ← map_text_of_mapM mutation,
        ← map_text_of_mapM subscription]
      rfl
    rw [texts, Document.operations, List.filterMap_map, List.map_filterMap]
    rfl
  · intro type defined
    exact Document.shows_of_emitted compatible types rfl rfl (member (.enum defined))
  · intro type defined
    exact Document.shows_of_write compatible types (write _ defined) (member (.union defined))
  · intro type defined
    exact Document.shows_of_write compatible types (write _ defined) (member (.input defined))
  · intro type defined notRoot notMember
    have apart : type.name ∉ schema.nestedNames schema.rootTypes :=
      fun nested => (List.mem_append.mp nested).elim notRoot notMember
    exact Document.shows_of_write compatible types (write _ defined) (member (.object defined apart))
  · intro type field defined inside given
    obtain ⟨result, alone, -⟩ := map_eq_ok (write _ defined)
    have found := Field.writeArguments_of_writeObject alone inside
    have taken : field.argumentClass? settings.scalars = some _ := Field.argumentClass?_eq_some_iff.mpr ⟨given, rfl⟩
    rw [taken] at found
    have emits : schema.Emits settings.scalars _ := .argumentClass defined inside taken
    exact ⟨_, found, Document.shows_of_emitted compatible types rfl (congrArg (Except.map _) found) (member emits)⟩

def dock : Field :=
  { name := "dock", type := .named "Int" true, arguments := [{ name := "at", type := .named "Int" true }] }

def pierQuery : RecordType :=
  { name := "Query", fields := [dock] }

def dockInput : RecordType :=
  { name := "DockArgs", fields := [{ name := "at", type := .named "Int" true, description := some "The berth" }] }

/-- The name of an input type is taken by an argument class of the same shape. -/
def pier : Schema :=
  { definitions := [.object pierQuery, .input dockInput] }

theorem write_shows_singles_pier :
    ∃ document block, ({} : Settings).write pier = .ok document ∧
      document.types.filter (·.name = "DockArgs") = [block] ∧
      ({} : Settings).argumentsText dock = .ok block.text ∧
      (∃ own : Declaration, ({} : Settings).inputText dockInput = .ok own.text ∧ block.shape = own.shape ∧
        block.text ≠ own.text) ∧
      document.operations.map (fun declared => .ok declared.text) = [({} : Settings).operationText pierQuery] ∧
      document.operationsGroup = Document.group "Operations" "\n\n" (document.operations.map CaseClass.text) := by
  have written : ({} : Settings).write pier = .ok _ := rfl
  obtain ⟨roots, blocks, rooted, emitted, operations, laidOut, -, -, inputs, -, arguments⟩ :=
    write_shows_singles written
  cases rooted
  cases emitted
  obtain ⟨own, block, declared, input, -, single, first, sameShape, -⟩ := inputs dockInput (by decide)
  obtain ⟨taken, found, other, kept, same, -, -, -, otherFirst, -, unlessTaken⟩ :=
    arguments pierQuery dock (by decide) (by decide) (by decide)
  cases declared
  cases found
  cases same
  cases first
  cases otherFirst
  exact ⟨_, _, written, single, unlessTaken [] _ rfl nofun, ⟨_, input, sameShape, by decide +kernel⟩,
    operations.symm, laidOut.operationsGroup⟩

end Settings

end SchemaScribe
