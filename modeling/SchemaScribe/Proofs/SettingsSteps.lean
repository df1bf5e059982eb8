import SchemaScribe.Proofs.Layering

/-! Settings that change step by step. Every step leaves settings behind that would be accepted again as they are, so
that overriding twice is the same as overriding once with what counts of both. -/

namespace SchemaScribe.Settings
open Text (strip isBlank)

/-- The settings have been checked, and come out of another check as they are. -/
structure Normal (settings : Settings) : Prop where
  effect : IsEffect settings.effect ∧ strip settings.effect = settings.effect
  packageName : ∀ name, settings.packageName = some name → isPackageName name.toList
  scalarMappings : settings.scalarMappings.Distinct

variable {settings changed between result : Settings}

theorem Normal.of_validateEntries {origin : ValueOrigin} {entries : Table Json}
    (accepted : validateEntries origin entries = .ok settings) : settings.Normal where
  effect := ⟨(effect_of_validateEntries accepted).1, (effect_of_validateEntries accepted).2.1⟩
  packageName := (packageName_of_validateEntries accepted).1
  scalarMappings := (scalarMappings_of_validateEntries accepted).1

theorem Normal.default : ({} : Settings).Normal :=
  .of_validateEntries (rfl : validateEntries .program [] = .ok {})

theorem Normal.effect_solid (normal : settings.Normal) :
    settings.effect ≠ "" ∧ ∀ c ∈ settings.effect.toList, ¬isBlank c := by
  obtain ⟨⟨nonempty, solid⟩, stripped⟩ := normal.effect
  have same : Text.stripChars settings.effect.toList = settings.effect.toList := by
    rw [← String.toList_ofList (l := Text.stripChars settings.effect.toList)]
    exact congrArg String.toList stripped
  rw [same] at nonempty solid
  exact ⟨fun empty => nonempty (by rw [empty]; rfl), solid⟩

section Overriding

/-- What the values say, whichever way they are looked up. -/
structure ReadsAs (value : String → Option Json) (settings : Settings) : Prop where
  effect : effectOf (value "effect") = .ok settings.effect
  packageName : packageNameOf (value "package_name") = .ok settings.packageName
  scalarMappings : scalarMappingsOf .program (value "scalar_mappings") = .ok settings.scalarMappings
  known : ∀ name, (value name).isSome → name ∈ settingNames

theorem validateEntries_eq_ok_iff_readsAs {entries : Table Json} :
    validateEntries .program entries = .ok settings ↔ ReadsAs (Table.last? entries) settings := by
  have known : (∀ entry ∈ entries, entry.1 ∈ settingNames) ↔
      ∀ name, (Table.last? entries name).isSome → name ∈ settingNames := by
    simp only [Table.isSome_last?_iff, forall_exists_index, Prod.forall]
  rw [validateEntries_eq_ok_iff, known]
  constructor
  · rintro ⟨effect, packageName, scalarMappings, known⟩
    exact { effect, packageName, scalarMappings, known }
  · intro reads
    exact ⟨reads.effect, reads.packageName, reads.scalarMappings, reads.known⟩

/-- Under any values that take precedence, it does not matter where the other settings are read off. -/
theorem ReadsAs.under {value stored earlier : String → Option Json} (first : ReadsAs earlier between)
    (again : ReadsAs stored between) (reads : ReadsAs (fun name => (value name).or (stored name)) result) :
    ReadsAs (fun name => (value name).or (earlier name)) result := by
  -- Each setting is read off the value that takes precedence, or was the same before.
  have each {ε α : Type} {check : Option Json → Except ε α} {name : String} {same read : α}
      (first : check (earlier name) = .ok same) (again : check (stored name) = .ok same)
      (reads : check ((value name).or (stored name)) = .ok read) :
      check ((value name).or (earlier name)) = .ok read := by
    cases given : value name with
    | none =>
      rw [given, Option.none_or, again] at reads
      rw [Option.none_or, first, reads]
    | some override =>
      rw [given, Option.some_or] at reads
      rw [Option.some_or, reads]
  exact {
    effect := each first.effect again.effect reads.effect
    packageName := each first.packageName again.packageName reads.packageName
    scalarMappings := each first.scalarMappings again.scalarMappings reads.scalarMappings
    known := by
      intro name given
      rcases Bool.or_eq_true_iff.mp (Option.isSome_or.symm.trans given) with override | old
      · refine reads.known name ?_
        rw [Option.isSome_or, override, Bool.true_or]
      · exact first.known name old }

theorem readsAs_under_iff {value stored earlier : String → Option Json} (first : ReadsAs earlier between)
    (again : ReadsAs stored between) :
    ReadsAs (fun name => (value name).or (stored name)) result ↔
      ReadsAs (fun name => (value name).or (earlier name)) result :=
  ⟨first.under again, again.under first⟩

theorem distinct_toEntries (settings : Settings) : settings.toEntries.Distinct := by
  change ["effect", "package_name", "scalar_mappings"].Nodup
  decide

theorem Normal.readsAs (normal : settings.Normal) : ReadsAs (Table.last? settings.toEntries) settings where
  effect := effectOf_eq_ok_iff.mpr (Or.inr ⟨settings.effect, rfl, normal.effect.1, normal.effect.2.symm⟩)
  packageName := by
    change packageNameOf (some ((settings.packageName.map Json.string).getD .null)) = .ok settings.packageName
    cases given : settings.packageName with
    | none => rfl
    | some name => exact packageNameOf_eq_ok_iff.mpr (Or.inr ⟨name, rfl, normal.packageName name given, rfl⟩)
  scalarMappings := scalarMappingsOf_texts.mpr normal.scalarMappings.ofEntries_eq.symm
  known := by
    intro name given
    obtain ⟨value, member⟩ := Table.isSome_last?_iff.mp given
    have listed : name ∈ settings.toEntries.map Prod.fst := List.mem_map_of_mem member
    exact listed

/-- The overrides that count. -/
def counting (overrides : Table Json) : Table Json :=
  overrides.filter (!isNull ·.2)

theorem merge_eq_ok_iff {overrides : Table Json} :
    settings.merge overrides = .ok result ↔ ReadsAs
      (fun name => (Table.last? (counting overrides) name).or (Table.last? settings.toEntries name)) result := by
  rw [merge, validateEntries_eq_ok_iff_readsAs]
  have values : Table.last? (settings.toEntries.insertAll (overrides.filter (!isNull ·.2))) =
      fun name => (Table.last? (counting overrides) name).or (Table.last? settings.toEntries name) :=
    funext (settings.distinct_toEntries.last?_insertAll _)
  rw [values]

/-- Nulls are no overrides, whatever names they are given for. -/
theorem Normal.merge_nulls (normal : settings.Normal) {overrides : Table Json}
    (nulls : ∀ entry ∈ overrides, entry.2 = .null) : settings.merge overrides = .ok settings := by
  have nothing : counting overrides = [] := by
    refine List.filter_eq_nil_iff.mpr fun entry member => ?_
    rw [nulls entry member]
    decide
  rw [merge_eq_ok_iff, nothing]
  exact normal.readsAs

/-- Of two sets of overrides, that the second comes last is all that matters. -/
theorem last?_counting_insertAll {overrides later : Table Json} (distinct : overrides.Distinct) (name : String) :
    Table.last? (counting (overrides.insertAll (counting later))) name =
      (Table.last? (counting later) name).or (Table.last? (counting overrides) name) := by
  rw [counting, (distinct.insertAll _).last?_filter (!isNull ·), distinct.last?_insertAll, counting, counting,
    distinct.last?_filter (!isNull ·)]
  cases found : Table.last? (later.filter (!isNull ·.2)) name with
  | none => rfl
  | some value =>
    have counts : (!isNull value) = true := (List.mem_filter.mp (Table.mem_of_last? found)).2
    rw [Option.some_or, Option.some_or, Option.filter_some, if_pos counts]

theorem merge_merge {overrides later : Table Json} (distinct : overrides.Distinct)
    (merged : settings.merge overrides = .ok between) :
    between.merge later = .ok result ↔ settings.merge (overrides.insertAll (counting later)) = .ok result := by
  -- What the settings in between store reads like what they were read off, so the one may stand for the other.
  have normal : between.Normal := .of_validateEntries merged
  rw [merge_eq_ok_iff, merge_eq_ok_iff, readsAs_under_iff (merge_eq_ok_iff.mp merged) normal.readsAs]
  simp only [last?_counting_insertAll distinct, Option.or_assoc]

end Overriding

section Steps

variable {tree : FileTree} {directory : List String}

/-- A step that succeeds keeps the settings or checks new ones. -/
theorem step_cases {next : Step} (done : settings.step tree directory next = .ok changed) :
    changed = settings ∨ ∃ origin entries, validateEntries origin entries = .ok changed := by
  cases next with
  | replace values =>
    have accepted := mapError_eq_ok_iff.mp done
    cases values with
    | object entries => exact Or.inr ⟨_, _, accepted⟩
    | _ => cases accepted
  | load path =>
    obtain ⟨-, -, entries, -, -, -, accepted⟩ := load_eq_ok_iff.mp done
    exact Or.inr ⟨_, _, accepted⟩
  | merge overrides => exact Or.inr ⟨_, _, mapError_eq_ok_iff.mp done⟩
  | assign name => cases done
  | keep => exact Or.inl (Except.ok.inj done).symm

theorem Normal.step (normal : settings.Normal) {next : Step}
    (done : settings.step tree directory next = .ok changed) : changed.Normal := by
  rcases step_cases done with rfl | ⟨origin, entries, accepted⟩
  · exact normal
  · exact .of_validateEntries accepted

theorem Normal.steps (normal : settings.Normal) (done : List Step) :
    (settings.steps tree directory done).2.Normal := by
  induction done generalizing settings with
  | nil => exact normal
  | cons first rest ih =>
    rw [Settings.steps]
    cases outcome : settings.step tree directory first with
    | ok changed => exact ih (normal.step outcome)
    | error cause => exact ih normal

theorem steps_append (settings : Settings) (done later : List Step) :
    (settings.steps tree directory (done ++ later)).2 =
      ((settings.steps tree directory done).2.steps tree directory later).2 := by
  induction done generalizing settings with
  | nil => rfl
  | cons first rest ih => exact ih _

theorem steps_concat_of_error {done : List Step} {next : Step} {cause : SettingsError}
    (failed : (settings.steps tree directory done).2.step tree directory next = .error cause) :
    (settings.steps tree directory (done ++ [next])).2 = (settings.steps tree directory done).2 := by
  rw [steps_append, steps, failed]
  rfl

theorem steps_concat_of_ok {done : List Step} {next : Step}
    (succeeded : (settings.steps tree directory done).2.step tree directory next = .ok changed) :
    (settings.steps tree directory (done ++ [next])).2 = changed := by
  rw [steps_append, steps, succeeded]
  rfl

end Steps

/-- After any steps the effect is a single word and the package name, if there is one, is accepted. A step that fails
changes nothing. Overriding nothing gives the same settings, and overriding twice is overriding once with the first
overrides, updated by what counts of the second. -/
theorem steps_normal (tree : FileTree) (directory : List String) (done : List Step) :
    let current := (({} : Settings).steps tree directory done).2
    (current.effect ≠ "" ∧ ∀ c ∈ current.effect.toList, ¬isBlank c) ∧
      (∀ name, current.packageName = some name → checkPackageName name = .ok name) ∧
      (∀ next cause, current.step tree directory next = .error cause →
        (({} : Settings).steps tree directory (done ++ [next])).2 = current) ∧
      (∀ next changed, current.step tree directory next = .ok changed →
        (({} : Settings).steps tree directory (done ++ [next])).2 = changed) ∧
      (∀ overrides : Table Json, (∀ entry ∈ overrides, entry.2 = .null) → current.merge overrides = .ok current) ∧
      ∀ (overrides later : Table Json) (between result : Settings), overrides.Distinct →
        current.merge overrides = .ok between →
        (between.merge later = .ok result ↔
          current.merge (overrides.insertAll (later.filter (!isNull ·.2))) = .ok result) := by
  intro current
  have normal : current.Normal := Normal.default.steps done
  refine ⟨normal.effect_solid, fun name given => ?_, fun _ _ => steps_concat_of_error, fun _ _ => steps_concat_of_ok,
    fun _ => normal.merge_nulls, fun _ _ _ _ => merge_merge⟩
  exact checkPackageName_eq_ok_iff.mpr ⟨normal.packageName name given, rfl⟩

/-- White space around the effect is gone after the first step, and the other steps fail or change nothing. -/
theorem steps_normal_task :
    let done : List Step := [.merge [("effect", .string " zio.Task\n")], .assign "effect"]
    let task : Settings := { effect := "zio.Task" }
    (({} : Settings).steps (.directory []) [] done).2 = task ∧
      (({} : Settings).steps (.directory []) [] (done ++ [.load "c.json"])).2 = task ∧
      task.merge [("effect", .null), ("color", .null)] = .ok task ∧
      task.merge [("package_name", .string "shop"), ("effect", .string "IO "),
          ("scalar_mappings", .object [("Money", .string "BigDecimal")])] =
        .ok { effect := "IO", packageName := some "shop", scalarMappings := [("Money", "BigDecimal")] } := by
  intro done task
  obtain ⟨-, -, failing, -, nulls, twice⟩ := steps_normal (.directory []) [] done
  refine ⟨rfl, failing _ _ rfl, nulls [("effect", .null), ("color", .null)] (by simp), ?_⟩
  have distinct : Table.Distinct [("package_name", Json.string "shop"), ("effect", .string "IO ")] := by
    change ["package_name", "effect"].Nodup
    decide
  have merged : ({ effect := "IO", packageName := some "shop" } : Settings).merge
      [("effect", .null), ("scalar_mappings", .object [("Money", .string "BigDecimal")])] =
        .ok { effect := "IO", packageName := some "shop", scalarMappings := [("Money", "BigDecimal")] } := rfl
  exact (twice _ _ _ _ distinct rfl).mp merged

end SchemaScribe.Settings
