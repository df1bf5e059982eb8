import SchemaScribe.Declaration.Basic

/-! What equal shapes say about two declarations. Case classes of one shape have the same parameters; a case class and
a sealed trait share a shape only when neither has anything inside. -/

namespace SchemaScribe

/-- What equal images say about single items, they say about the lists. -/
theorem map_eq_map_of_forall {first : α → γ} {second : β → γ} {third : α → δ} {fourth : β → δ} {items : List α}
    {others : List β} (same : items.map first = others.map second)
    (each : ∀ item ∈ items, ∀ other ∈ others, first item = second other → third item = fourth other) :
    items.map third = others.map fourth := by
  induction items generalizing others with
  | nil =>
    rw [List.map_eq_nil_iff.mp same.symm]
    rfl
  | cons item rest ih =>
    cases others with
    | nil => cases same
    | cons other further =>
      obtain ⟨head, tail⟩ := List.cons.inj same
      have sameHead := each item (List.mem_cons_self ..) other (List.mem_cons_self ..) head
      have sameTail := ih tail fun item inside other listed =>
        each item (List.mem_cons_of_mem _ inside) other (List.mem_cons_of_mem _ listed)
      rw [List.map_cons, List.map_cons, sameHead, sameTail]

/-- Lists are told apart by two ways of showing their items if single items are. -/
theorem map_eq_map_iff_of_forall {first : α → γ} {second : β → γ} {third : α → δ} {fourth : β → δ} {items : List α}
    {others : List β}
    (each : ∀ item ∈ items, ∀ other ∈ others, first item = second other ↔ third item = fourth other) :
    items.map first = others.map second ↔ items.map third = others.map fourth := by
  constructor
  · exact fun same => map_eq_map_of_forall same fun item inside other listed => (each item inside other listed).mp
  · exact fun same => map_eq_map_of_forall same fun item inside other listed => (each item inside other listed).mpr

/-- The parameters without their descriptions. -/
def CaseClass.signature (declaration : CaseClass) : List (String × String) :=
  declaration.parameters.map fun parameter => (parameter.name, parameter.type)

def Variant.parameters : Variant → List Parameter
  | .caseObject _ => []
  | .caseClass variant => variant.parameters

/-- The parameters of a case class, or of all variants of a sealed trait. -/
def Declaration.parameters : Declaration → List Parameter
  | .caseClass declaration => declaration.parameters
  | .sealedTrait declaration => declaration.variants.flatMap Variant.parameters

theorem CaseClass.shape_eq_iff {first second : CaseClass} :
    first.shape = second.shape ↔ first.name = second.name ∧ first.signature = second.signature := by
  have shape_eq (declaration : CaseClass) : declaration.shape =
      { name := declaration.name, members := declaration.signature.map fun entry => .parameter entry.1 entry.2 } := by
    simp [shape, signature, Function.comp_def]
  rw [shape_eq, shape_eq, Shape.mk.injEq, List.map_inj_right]
  intro entry other same
  injection same with sameName sameType
  exact Prod.ext sameName sameType

theorem SealedTrait.shape_eq_iff {first second : SealedTrait} :
    first.shape = second.shape ↔
      first.name = second.name ∧ first.variants.map Variant.text = second.variants.map Variant.text := by
  have shape_eq (declaration : SealedTrait) : declaration.shape =
      { name := declaration.name, members := (declaration.variants.map Variant.text).map .variant } := by
    simp [shape, Function.comp_def]
  rw [shape_eq, shape_eq, Shape.mk.injEq, List.map_inj_right]
  intro text other same
  exact ShapeMember.variant.inj same

theorem eq_nil_of_shape_eq {declaration : CaseClass} {other : SealedTrait}
    (same : declaration.shape = other.shape) : declaration.parameters = [] ∧ other.variants = [] := by
  have inner : _ = _ := congrArg Shape.members same
  simp only [CaseClass.shape, SealedTrait.shape] at inner
  cases parameters : declaration.parameters with
  | nil =>
    rw [parameters] at inner
    exact ⟨rfl, List.map_eq_nil_iff.mp inner.symm⟩
  | cons first rest =>
    cases variants : other.variants with
    | nil => simp [parameters, variants] at inner
    | cons head tail => simp [parameters, variants] at inner

end SchemaScribe
