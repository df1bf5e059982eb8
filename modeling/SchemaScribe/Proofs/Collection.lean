import SchemaScribe.Document.Write

/-! Collecting declarations keeps the first of each name. Every later one is compared with the kept one only, and
yet collecting goes through exactly when any two declarations of one name have the same shape. -/

namespace SchemaScribe

/-- The first declaration of each name, in the order of the declarations. -/
def firstOfEachName : List Declaration → List Declaration
  | [] => []
  | declaration :: rest => declaration :: (firstOfEachName rest).filter (·.name ≠ declaration.name)

/-- Any two declarations of one name can stand for each other. -/
def Compatible (declarations : List Declaration) : Prop :=
  ∀ first ∈ declarations, ∀ second ∈ declarations, first.name = second.name → first.shape = second.shape

/-- The declaration has the shape of every other one of its name. -/
def Agrees (declarations : List Declaration) (declaration : Declaration) : Prop :=
  ∀ known ∈ declarations, known.name = declaration.name → known.shape = declaration.shape

theorem mem_of_mem_firstOfEachName {declarations : List Declaration} {declaration : Declaration}
    (kept : declaration ∈ firstOfEachName declarations) : declaration ∈ declarations := by
  induction declarations with
  | nil => exact kept
  | cons head rest ih =>
    rcases List.mem_cons.mp kept with same | later
    · exact List.mem_cons.mpr (Or.inl same)
    · exact List.mem_cons.mpr (Or.inr (ih (List.mem_filter.mp later).1))

/-- Looking up a name gives the same declaration before and after the others are dropped. -/
theorem find?_firstOfEachName (declarations : List Declaration) (name : String) :
    (firstOfEachName declarations).find? (·.name = name) = declarations.find? (·.name = name) := by
  induction declarations with
  | nil => rfl
  | cons head rest ih =>
    simp only [firstOfEachName, List.find?_cons]
    by_cases same : head.name = name
    · simp only [same, decide_true]
    · simp only [same, decide_false, List.find?_filter, ← ih]
      congr 1
      funext declaration
      by_cases matching : declaration.name = name
      · simp [matching, Ne.symm same]
      · simp [matching]

theorem firstOfEachName_distinct (declarations : List Declaration) :
    (firstOfEachName declarations).Pairwise (fun first second => first.name ≠ second.name) := by
  induction declarations with
  | nil => exact List.Pairwise.nil
  | cons head rest ih =>
    refine List.pairwise_cons.mpr ⟨?_, ih.filter _⟩
    intro later member
    exact Ne.symm (of_decide_eq_true (List.mem_filter.mp member).2)

/-- A kept declaration is the only kept one of its name. -/
theorem filter_name_eq_singleton {declarations : List Declaration} {declaration : Declaration}
    (kept : declaration ∈ firstOfEachName declarations) :
    (firstOfEachName declarations).filter (·.name = declaration.name) = [declaration] := by
  have distinct := firstOfEachName_distinct declarations
  generalize firstOfEachName declarations = collected at kept distinct
  induction collected with
  | nil => cases kept
  | cons head rest ih =>
    obtain ⟨apart, distinct⟩ := List.pairwise_cons.mp distinct
    rcases List.mem_cons.mp kept with rfl | later
    · rw [List.filter_cons, if_pos (decide_eq_true rfl)]
      congr 1
      refine List.filter_eq_nil_iff.mpr fun other member same => ?_
      exact apart other member (of_decide_eq_true same).symm
    · rw [List.filter_cons, if_neg fun same => apart declaration later (of_decide_eq_true same)]
      exact ih later distinct

theorem eq_of_kept_of_name_eq {declarations : List Declaration} {first second : Declaration}
    (firstKept : first ∈ firstOfEachName declarations) (secondKept : second ∈ firstOfEachName declarations)
    (same : first.name = second.name) : first = second := by
  have inside : first ∈ (firstOfEachName declarations).filter (·.name = second.name) :=
    List.mem_filter.mpr ⟨firstKept, decide_eq_true same⟩
  rw [filter_name_eq_singleton secondKept] at inside
  exact List.mem_singleton.mp inside

/-- Every name that is declared at all is declared among the kept ones. -/
theorem exists_kept {declarations : List Declaration} {declaration : Declaration}
    (member : declaration ∈ declarations) :
    ∃ kept ∈ firstOfEachName declarations, kept.name = declaration.name := by
  have found : (declarations.find? (·.name = declaration.name)).isSome :=
    List.find?_isSome.mpr ⟨declaration, member, decide_eq_true rfl⟩
  obtain ⟨kept, same⟩ := Option.isSome_iff_exists.mp found
  rw [← find?_firstOfEachName] at same
  have matching := List.find?_some same
  exact ⟨kept, List.mem_of_find?_eq_some same, of_decide_eq_true matching⟩

/-- What was kept before a declaration is what is kept of the declarations before it. -/
theorem firstOfEachName_split {declarations before after : List Declaration} {declaration : Declaration}
    (split : firstOfEachName declarations = before ++ declaration :: after) :
    ∃ earlier later, declarations = earlier ++ declaration :: later ∧ before = firstOfEachName earlier := by
  induction declarations generalizing before after with
  | nil => simp [firstOfEachName] at split
  | cons head rest ih =>
    rw [firstOfEachName] at split
    cases before with
    | nil =>
      obtain ⟨rfl, -⟩ := List.cons.inj split
      exact ⟨[], rest, rfl, rfl⟩
    | cons first before =>
      obtain ⟨rfl, filtered⟩ := List.cons.inj split
      obtain ⟨front, back, whole, rfl, backFiltered⟩ := List.filter_eq_append_iff.mp filtered
      obtain ⟨skipped, remaining, rfl, dropped, -, -⟩ := List.filter_eq_cons_iff.mp backFiltered
      rw [← List.append_assoc] at whole
      obtain ⟨earlier, later, rfl, same⟩ := ih whole
      refine ⟨head :: earlier, later, rfl, ?_⟩
      rw [firstOfEachName, ← same, List.filter_append, List.filter_eq_nil_iff.mpr dropped, List.append_nil]

theorem firstOfEachName_append (declarations others : List Declaration) :
    firstOfEachName (declarations ++ others) = firstOfEachName declarations ++
      (firstOfEachName others).filter fun declaration => !declarations.any (·.name = declaration.name) := by
  induction declarations with
  | nil => exact (List.filter_eq_self.mpr fun _ _ => rfl).symm
  | cons head rest ih =>
    rw [List.cons_append, firstOfEachName, firstOfEachName, ih, List.filter_append, List.filter_filter,
      List.cons_append]
    congr 3
    funext declaration
    by_cases same : declaration.name = head.name <;> simp [same, eq_comm]

/-- One more declaration is kept unless its name is taken. -/
theorem firstOfEachName_snoc (declarations : List Declaration) (declaration : Declaration) :
    firstOfEachName (declarations ++ [declaration]) =
      if declarations.any (·.name = declaration.name) then firstOfEachName declarations
      else firstOfEachName declarations ++ [declaration] := by
  rw [firstOfEachName_append]
  change _ ++ List.filter _ [declaration] = _
  rw [List.filter_cons, List.filter_nil]
  by_cases taken : declarations.any (·.name = declaration.name)
  · simp [taken]
  · simp [taken]

theorem compatible_snoc {declarations : List Declaration} {declaration : Declaration} :
    Compatible (declarations ++ [declaration]) ↔ Compatible declarations ∧ Agrees declarations declaration := by
  constructor
  · intro compatible
    refine ⟨fun first inFirst second inSecond same => ?_, fun known member same => ?_⟩
    · exact compatible first (List.mem_append_left _ inFirst) second (List.mem_append_left _ inSecond) same
    · exact compatible known (List.mem_append_left _ member) declaration (by simp) same
  · rintro ⟨compatible, agrees⟩ first inFirst second inSecond same
    rcases List.mem_append.mp inFirst with inFirst | isFirst <;>
      rcases List.mem_append.mp inSecond with inSecond | isSecond
    · exact compatible first inFirst second inSecond same
    · cases List.mem_singleton.mp isSecond
      exact agrees first inFirst same
    · cases List.mem_singleton.mp isFirst
      exact (agrees second inSecond same.symm).symm
    · cases List.mem_singleton.mp isFirst
      cases List.mem_singleton.mp isSecond
      rfl

theorem Compatible.of_append {declarations others : List Declaration}
    (compatible : Compatible (declarations ++ others)) : Compatible declarations :=
  fun first inFirst second inSecond =>
    compatible first (List.mem_append_left _ inFirst) second (List.mem_append_left _ inSecond)

/-- A declaration whose name is taken is accepted when it has the shape of the known one. -/
theorem addDeclaration_eq_ok_iff_of_find? {collected : List Declaration} {known : Declaration}
    (declaration : Declaration) (found : collected.find? (·.name = declaration.name) = some known) :
    addDeclaration collected declaration = .ok collected ↔ known.shape = declaration.shape := by
  rw [addDeclaration, found]
  by_cases same : known.shape = declaration.shape
  · simp [same]
  · simp [same]

theorem addDeclaration_agreeing {before : List Declaration} {declaration : Declaration}
    (agrees : Agrees before declaration) :
    addDeclaration (firstOfEachName before) declaration = .ok (firstOfEachName (before ++ [declaration])) := by
  rw [addDeclaration, find?_firstOfEachName, firstOfEachName_snoc]
  cases found : before.find? (·.name = declaration.name) with
  | none =>
    have free : ¬before.any (·.name = declaration.name) := by
      simpa [List.any_eq_true] using List.find?_eq_none.mp found
    rw [if_neg free]
  | some known =>
    have member := List.mem_of_find?_eq_some found
    have matching := List.find?_some found
    have taken : before.any (·.name = declaration.name) := List.any_eq_true.mpr ⟨known, member, matching⟩
    rw [if_pos taken]
    exact if_pos (agrees known member (of_decide_eq_true matching))

/-- A conflict with any earlier declaration is a conflict with the kept one. -/
theorem addDeclaration_conflicting {before : List Declaration} {declaration : Declaration}
    (compatible : Compatible before) (conflict : ¬Agrees before declaration) :
    addDeclaration (firstOfEachName before) declaration =
      .error (.conflictingDeclarations declaration.name) := by
  rw [addDeclaration, find?_firstOfEachName]
  cases found : before.find? (·.name = declaration.name) with
  | none =>
    refine absurd (fun known member same => ?_) conflict
    exact absurd (decide_eq_true same) (List.find?_eq_none.mp found known member)
  | some kept =>
    have member := List.mem_of_find?_eq_some found
    have matching := List.find?_some found
    refine if_neg fun agreeing => conflict fun known inside same => ?_
    rw [← agreeing]
    exact compatible known inside kept member (same.trans (of_decide_eq_true matching).symm)

theorem addDeclarations_compatible {before declarations : List Declaration}
    (compatible : Compatible (before ++ declarations)) :
    addDeclarations (firstOfEachName before) declarations = .ok (firstOfEachName (before ++ declarations)) := by
  induction declarations generalizing before with
  | nil =>
    rw [List.append_nil]
    rfl
  | cons head rest ih =>
    rw [List.append_cons] at compatible ⊢
    have agrees := (compatible_snoc.mp compatible.of_append).2
    rw [← ih compatible, addDeclarations, List.foldlM_cons, addDeclaration_agreeing agrees]
    rfl

theorem addDeclarations_conflicting {before agreeing rest : List Declaration} {declaration : Declaration}
    (compatible : Compatible (before ++ agreeing)) (conflict : ¬Agrees (before ++ agreeing) declaration) :
    addDeclarations (firstOfEachName before) (agreeing ++ declaration :: rest) =
      .error (.conflictingDeclarations declaration.name) := by
  have collected : agreeing.foldlM addDeclaration (firstOfEachName before) = _ :=
    addDeclarations_compatible compatible
  rw [addDeclarations, List.foldlM_append, collected]
  change List.foldlM addDeclaration (firstOfEachName (before ++ agreeing)) (declaration :: rest) = _
  rw [List.foldlM_cons, addDeclaration_conflicting compatible conflict]
  rfl

/-- Where declarations are not compatible, some first one disagrees with those before it. -/
theorem exists_first_conflict {before declarations : List Declaration} (compatible : Compatible before)
    (conflict : ¬Compatible (before ++ declarations)) :
    ∃ agreeing declaration rest, declarations = agreeing ++ declaration :: rest ∧
      Compatible (before ++ agreeing) ∧ ¬Agrees (before ++ agreeing) declaration := by
  induction declarations generalizing before with
  | nil => exact absurd (by rwa [List.append_nil]) conflict
  | cons head rest ih =>
    by_cases agrees : Agrees before head
    · rw [List.append_cons] at conflict
      obtain ⟨agreeing, declaration, others, rfl, accepted, refused⟩ :=
        ih (compatible_snoc.mpr ⟨compatible, agrees⟩) conflict
      refine ⟨head :: agreeing, declaration, others, rfl, ?_⟩
      rw [List.append_cons]
      exact ⟨accepted, refused⟩
    · refine ⟨[], head, rest, rfl, ?_⟩
      rw [List.append_nil]
      exact ⟨compatible, agrees⟩

theorem addDeclarations_of_conflict {before declarations : List Declaration} (compatible : Compatible before)
    (conflict : ¬Compatible (before ++ declarations)) :
    ∃ declaration ∈ declarations,
      addDeclarations (firstOfEachName before) declarations = .error (.conflictingDeclarations declaration.name) := by
  obtain ⟨agreeing, declaration, rest, rfl, accepted, refused⟩ := exists_first_conflict compatible conflict
  exact ⟨declaration, by simp, addDeclarations_conflicting accepted refused⟩

/-- Collecting goes through exactly when the declarations are compatible, and then keeps the first of each name. -/
theorem addDeclarations_eq_ok {before declarations collected : List Declaration} (compatible : Compatible before) :
    addDeclarations (firstOfEachName before) declarations = .ok collected ↔
      Compatible (before ++ declarations) ∧ collected = firstOfEachName (before ++ declarations) := by
  constructor
  · intro added
    by_cases fits : Compatible (before ++ declarations)
    · rw [addDeclarations_compatible fits] at added
      exact ⟨fits, (Except.ok.inj added).symm⟩
    · obtain ⟨declaration, -, refused⟩ := addDeclarations_of_conflict compatible fits
      rw [refused] at added
      cases added
  · rintro ⟨fits, rfl⟩
    exact addDeclarations_compatible fits

end SchemaScribe
