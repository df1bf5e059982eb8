import SchemaScribe.Proofs.Outcome

/-! The effect around the results of queries and mutations. It decides over no error, and it stands nowhere but in front
of the brackets around these results, so the documents of a schema under two effects are alike in everything else. -/

namespace SchemaScribe
open Text (joinWith)

/-- The two texts are the same but for the name in front of the brackets around the result of each field. -/
inductive AlikeButEffect (scalars : Scalars) (first second : String) : List Field → String → String → Prop where
  | same (text : String) : AlikeButEffect scalars first second [] text text
  | result (before : String) (field : Field) {fields : List Field} {text other : String}
      (rest : AlikeButEffect scalars first second fields text other) :
      AlikeButEffect scalars first second (field :: fields)
        (before ++ first ++ "[" ++ field.type.expression scalars ++ "]" ++ text)
        (before ++ second ++ "[" ++ field.type.expression scalars ++ "]" ++ other)

/-- Two records that are both missing, as the root is, or alike in all but the effect around the root's results. -/
inductive RootsAlike (scalars : Scalars) (first second : String) :
    Option RecordType → Option CaseClass → Option CaseClass → Prop where
  | missing : RootsAlike scalars first second none none none
  | served {type : RecordType} {record other : CaseClass}
      (alike : AlikeButEffect scalars first second type.fields record.text other.text) :
      RootsAlike scalars first second (some type) (some record) (some other)

/-- The fields whose results are inside the effect, in their order. -/
def Roots.effectFields (roots : Roots) : List Field :=
  [roots.query, roots.mutation].flatMap fun root => (root.map (·.fields)).getD []

variable {scalars : Scalars} {first second : String}

namespace AlikeButEffect

theorem after (before : String) {fields : List Field} {text other : String}
    (alike : AlikeButEffect scalars first second fields text other) :
    AlikeButEffect scalars first second fields (before ++ text) (before ++ other) := by
  cases alike with
  | same text => exact .same _
  | result between field rest =>
    simp only [← String.append_assoc]
    exact .result (before ++ between) field rest

theorem append {fields others : List Field} {text other more further : String}
    (alike : AlikeButEffect scalars first second fields text other)
    (next : AlikeButEffect scalars first second others more further) :
    AlikeButEffect scalars first second (fields ++ others) (text ++ more) (other ++ further) := by
  induction alike with
  | same text => exact next.after text
  | @result before field fields text other rest ih =>
    have whole := AlikeButEffect.result before field ih
    simp only [← String.append_assoc] at whole
    exact whole

theorem before {fields : List Field} {text other : String}
    (alike : AlikeButEffect scalars first second fields text other) (behind : String) :
    AlikeButEffect scalars first second fields (text ++ behind) (other ++ behind) := by
  have whole := alike.append (.same behind)
  rwa [List.append_nil] at whole

/-- Texts that are alike one by one are alike when they are joined. -/
theorem joinWith (separator : String) {items : List α} {fields : α → List Field} {text other : α → String}
    (each : ∀ item ∈ items, AlikeButEffect scalars first second (fields item) (text item) (other item)) :
    AlikeButEffect scalars first second (items.flatMap fields) (joinWith separator (items.map text))
      (Text.joinWith separator (items.map other)) := by
  induction items with
  | nil => exact .same ""
  | cons item rest ih =>
    obtain ⟨here, later⟩ := List.forall_mem_cons.mp each
    cases rest with
    | nil =>
      rw [List.flatMap_singleton]
      exact here
    | cons next others => exact (here.before separator).append (ih later)

end AlikeButEffect

theorem Field.operationParameter_alike (field : Field) :
    AlikeButEffect scalars first second [field] (field.operationParameter scalars (effectOf first)).text
      (field.operationParameter scalars (effectOf second)).text := by
  have result : AlikeButEffect scalars first second [field] (effectOf first (field.type.expression scalars))
      (effectOf second (field.type.expression scalars)) := by
    have whole : AlikeButEffect scalars first second [field] _ _ := .result "" field (.same "")
    simpa [effectOf] using whole
  rw [Parameter.text, Parameter.text]
  refine AlikeButEffect.after _ ?_
  change AlikeButEffect scalars first second [field] (field.signature _) (field.signature _)
  rw [signature, signature]
  split
  · exact result
  · exact result.after _

theorem RecordType.operationClass_alike (type : RecordType) :
    AlikeButEffect scalars first second type.fields (type.operationClass scalars (effectOf first)).text
      (type.operationClass scalars (effectOf second)).text := by
  have joined : AlikeButEffect scalars first second (type.fields.flatMap fun field => [field]) _ _ :=
    AlikeButEffect.joinWith ",\n" fun field _ => field.operationParameter_alike
  rw [List.flatMap_singleton'] at joined
  -- The parameters of an operation stand on lines of their own, whatever they are.
  have text (effect : String) : (type.operationClass scalars (effectOf effect)).text =
      "case class " ++ type.name ++ "(\n" ++
        Text.joinWith ",\n" (type.fields.map fun field => (field.operationParameter scalars (effectOf effect)).text) ++
        "\n)" := by
    simp [operationClass, CaseClass.text, CaseClass.parameterList, CaseClass.parentClause, descriptionClause,
      Function.comp_def, String.append_assoc]
  rw [text, text]
  exact (joined.after _).before _

theorem rootsAlike_operationClass (root : Option RecordType) :
    RootsAlike scalars first second root (root.map (·.operationClass scalars (effectOf first)))
      (root.map (·.operationClass scalars (effectOf second))) := by
  cases root with
  | none => exact .missing
  | some type => exact .served type.operationClass_alike

namespace Document

/-- What an operation adds to the group of operations. -/
def block (operation : Option CaseClass) : String :=
  (operation.map fun record => record.text ++ "\n\n").getD ""

theorem joinWith_operations (document : Document) :
    Text.joinWith "" (document.operations.map fun record => record.text ++ "\n\n") =
      block document.query ++ block document.mutation ++ block document.subscription := by
  rw [operations]
  cases document.query <;> cases document.mutation <;> cases document.subscription <;>
    simp [block, Text.joinWith, String.append_assoc]

/-- The documents have all parts in common, except for the effect around the results of the roots. -/
structure SameButEffect (scalars : Scalars) (first second : String) (roots : Roots) (document other : Document) :
    Prop where
  packageName : document.packageName = other.packageName
  types : document.types = other.types
  query : RootsAlike scalars first second roots.query document.query other.query
  mutation : RootsAlike scalars first second roots.mutation document.mutation other.mutation
  subscription : document.subscription = other.subscription

end Document

theorem RootsAlike.block_alike {root : Option RecordType} {record other : Option CaseClass}
    (alike : RootsAlike scalars first second root record other) :
    AlikeButEffect scalars first second ((root.map (·.fields)).getD []) (Document.block record)
      (Document.block other) := by
  cases alike with
  | missing => exact .same ""
  | served alike => exact alike.before _

theorem RootsAlike.isSome_eq {root : Option RecordType} {record other : Option CaseClass}
    (alike : RootsAlike scalars first second root record other) : record.isSome = other.isSome := by
  cases alike <;> rfl

namespace Document.SameButEffect

variable {roots : Roots} {document other : Document}

theorem isEmpty_operations_eq (same : document.SameButEffect scalars first second roots other) :
    document.operations.isEmpty = other.operations.isEmpty := by
  have isEmpty (document : Document) : document.operations.isEmpty =
      !(document.query.isSome || document.mutation.isSome || document.subscription.isSome) := by
    rw [operations]
    cases document.query <;> cases document.mutation <;> cases document.subscription <;> rfl
  rw [isEmpty, isEmpty, same.query.isSome_eq, same.mutation.isSome_eq, same.subscription]

theorem packageClause_eq (same : document.SameButEffect scalars first second roots other) :
    document.packageClause = other.packageClause := by
  rw [packageClause, packageClause, same.packageName]

theorem importClauses_eq (same : document.SameButEffect scalars first second roots other) :
    document.importClauses = other.importClauses := by
  rw [importClauses, importClauses, imports, imports, same.types, same.isEmpty_operations_eq, same.subscription]

theorem typesGroup_eq (same : document.SameButEffect scalars first second roots other) :
    document.typesGroup = other.typesGroup := by
  rw [typesGroup, typesGroup, same.types]

theorem operationsGroup_alike (same : document.SameButEffect scalars first second roots other) :
    AlikeButEffect scalars first second roots.effectFields document.operationsGroup other.operationsGroup := by
  have fields : roots.effectFields =
      (roots.query.map (·.fields)).getD [] ++ (roots.mutation.map (·.fields)).getD [] := by
    simp [Roots.effectFields]
  have blocks := (same.query.block_alike.append same.mutation.block_alike).before (block document.subscription)
  rw [← fields, ← joinWith_operations, same.subscription, ← joinWith_operations] at blocks
  rw [operationsGroup, operationsGroup, same.isEmpty_operations_eq]
  by_cases empty : other.operations.isEmpty
  · -- Where there is no operation, there is no field with a result inside the effect either.
    have none := List.isEmpty_iff.mp (same.isEmpty_operations_eq.trans empty)
    rw [none, List.isEmpty_iff.mp empty] at blocks
    rw [if_pos empty, if_pos empty]
    exact blocks
  · rw [if_neg empty, if_neg empty]
    exact (blocks.after _).before _

/-- The two files are the same text but for the effect. -/
theorem text_alike (same : document.SameButEffect scalars first second roots other) :
    AlikeButEffect scalars first second roots.effectFields document.text other.text := by
  have separator : document.groupSeparator = other.groupSeparator := by
    rw [groupSeparator, groupSeparator, same.types, same.isEmpty_operations_eq]
  have group := same.operationsGroup_alike
  rw [text, text, isEmpty, isEmpty, same.types, same.isEmpty_operations_eq]
  split
  next empty =>
    have none := (Bool.and_eq_true _ _ ▸ empty : other.types.isEmpty ∧ other.operations.isEmpty).2
    rw [operationsGroup, operationsGroup, same.isEmpty_operations_eq, if_pos none, if_pos none] at group
    exact group.after "\n"
  next =>
    rw [same.packageClause_eq, same.importClauses_eq, same.typesGroup_eq, separator]
    exact group.after _

end Document.SameButEffect

namespace Schema

theorem document_sameButEffect (schema : Schema) (scalars : Scalars) (packageName : Option String)
    (first second : String) :
    (schema.document { scalars, effect := first } packageName).SameButEffect scalars first second schema.rootTypes
      (schema.document { scalars, effect := second } packageName) :=
  { packageName := rfl
    types := rfl
    query := rootsAlike_operationClass _
    mutation := rootsAlike_operationClass _
    subscription := rfl }

end Schema

end SchemaScribe
