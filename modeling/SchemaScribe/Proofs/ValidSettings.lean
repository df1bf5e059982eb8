import SchemaScribe.Proofs.Tables
import SchemaScribe.Settings.Basic
import SchemaScribe.Source.Progress

/-! Which values are accepted as settings, and what the settings are then. Each setting is judged by the last value
given for it, on its own. -/

namespace SchemaScribe
open Source (bind_eq_ok map_eq_ok)

namespace Text

/-- Without the white space at the two ends. -/
def strip (text : String) : String :=
  String.ofList (stripChars text.toList)

theorem stripChars_of_not_blank {chars : List Char} (solid : ∀ c ∈ chars, ¬isBlank c) : stripChars chars = chars := by
  have kept {chars : List Char} (solid : ∀ c ∈ chars, ¬isBlank c) : chars.dropWhile isBlank = chars := by
    cases chars with
    | nil => rfl
    | cons c rest => exact List.dropWhile_cons_of_neg (solid c (List.mem_cons_self ..))
  rw [stripChars, kept solid, kept fun c member => solid c (List.mem_reverse.mp member), List.reverse_reverse]

end Text

namespace Settings
open Text (strip stripChars isBlank)

/-- A single word, perhaps with white space around it. -/
def IsEffect (text : String) : Prop :=
  stripChars text.toList ≠ [] ∧ ∀ c ∈ stripChars text.toList, ¬isBlank c

theorem IsEffect.strip {text : String} (effect : IsEffect text) :
    IsEffect (Text.strip text) ∧ Text.strip (Text.strip text) = Text.strip text := by
  have same := Text.stripChars_of_not_blank effect.2
  simp only [IsEffect, Text.strip, String.toList_ofList, same]
  exact ⟨effect, trivial⟩

theorem checkEffect_eq_ok_iff {given effect : String} :
    checkEffect given = .ok effect ↔ IsEffect given ∧ effect = strip given := by
  rw [checkEffect, IsEffect, strip]
  by_cases bad : (stripChars given.toList).isEmpty || (stripChars given.toList).any isBlank
  · simp only [if_pos bad, reduceCtorEq, false_iff]
    rintro ⟨⟨some, solid⟩, -⟩
    rcases Bool.or_eq_true_iff.mp bad with empty | blank
    · exact some (List.isEmpty_iff.mp empty)
    · obtain ⟨c, member, blank⟩ := List.any_eq_true.mp blank
      exact solid c member blank
  · simp only [if_neg bad, Except.ok.injEq]
    rw [Bool.or_eq_true, not_or] at bad
    refine ⟨fun same => ⟨⟨?_, ?_⟩, same.symm⟩, fun accepted => accepted.2.symm⟩
    · exact fun empty => bad.1 (List.isEmpty_iff.mpr empty)
    · exact fun c member blank => bad.2 (List.any_eq_true.mpr ⟨c, member, blank⟩)

theorem textOf_eq_ok_iff {value : Json} {text : String} : textOf value = .ok text ↔ value = .string text := by
  cases value <;> simp [textOf]

theorem effectOf_eq_ok_iff {value : Option Json} {effect : String} :
    effectOf value = .ok effect ↔
      value = none ∧ effect = "zio.UIO" ∨
        ∃ text, value = some (.string text) ∧ IsEffect text ∧ effect = strip text := by
  cases value with
  | none => simpa [effectOf] using eq_comm
  | some value =>
    constructor
    · intro accepted
      obtain ⟨text, read, checked⟩ := bind_eq_ok accepted
      exact Or.inr ⟨text, congrArg some (textOf_eq_ok_iff.mp read), checkEffect_eq_ok_iff.mp checked⟩
    · rintro (⟨impossible, -⟩ | ⟨text, same, accepted⟩)
      · cases impossible
      · cases same
        exact checkEffect_eq_ok_iff.mpr accepted

theorem checkPackageName_eq_ok_iff {given name : String} :
    checkPackageName given = .ok name ↔ isPackageName given.toList ∧ name = given := by
  rw [checkPackageName]
  split
  next accepted => simpa [accepted] using eq_comm
  next refused => simp [refused]

theorem packageNameOf_eq_ok_iff {value : Option Json} {name : Option String} :
    packageNameOf value = .ok name ↔
      (value = none ∨ value = some .null) ∧ name = none ∨
        ∃ text, value = some (.string text) ∧ isPackageName text.toList ∧ name = some text := by
  cases value with
  | none => simpa [packageNameOf] using eq_comm
  | some value =>
    by_cases null : value = .null
    · subst null
      simpa [packageNameOf] using eq_comm
    · constructor
      · intro accepted
        rw [packageNameOf.eq_3 value null] at accepted
        obtain ⟨text, done, rfl⟩ := map_eq_ok accepted
        obtain ⟨given, read, checked⟩ := bind_eq_ok done
        obtain ⟨valid, rfl⟩ := checkPackageName_eq_ok_iff.mp checked
        exact Or.inr ⟨text, congrArg some (textOf_eq_ok_iff.mp read), valid, rfl⟩
      · rintro (⟨impossible | impossible, -⟩ | ⟨text, same, valid, rfl⟩)
        · cases impossible
        · exact absurd (Option.some.inj impossible) null
        · cases same
          rw [packageNameOf.eq_3 _ null, textOf_eq_ok_iff.mpr rfl]
          exact congrArg (Except.map some) (checkPackageName_eq_ok_iff.mpr ⟨valid, rfl⟩)

/-- The values of a table that are all texts. -/
def texts (mappings : Table String) : Table Json :=
  mappings.map (Prod.map id Json.string)

theorem mappingTexts_texts (mappings : Table String) : mappingTexts (texts mappings) = mappings := by
  rw [mappingTexts, texts, List.filterMap_map]
  exact List.filterMap_some

theorem mappingIssues_texts (mappings : Table String) : mappingIssues (texts mappings) = [] := by
  rw [mappingIssues, texts, List.filterMap_map]
  exact List.filterMap_eq_nil_iff.mpr fun _ _ => rfl

theorem exists_texts {entries : Table Json} (allTexts : ∀ entry ∈ entries, ∃ text, entry.2 = .string text) :
    ∃ mappings, entries = texts mappings := by
  induction entries with
  | nil => exact ⟨[], rfl⟩
  | cons head rest ih =>
    obtain ⟨⟨text, same⟩, others⟩ := List.forall_mem_cons.mp allTexts
    obtain ⟨mappings, rfl⟩ := ih others
    exact ⟨(head.1, text) :: mappings, List.cons_eq_cons.mpr ⟨Prod.ext rfl same, rfl⟩⟩

theorem exists_texts_of_mappingIssues {entries : Table Json} (sound : mappingIssues entries = []) :
    ∃ mappings, entries = texts mappings := by
  refine exists_texts fun (name, value) member => ?_
  have silent := List.filterMap_eq_nil_iff.mp sound (name, value) member
  cases read : textOf value with
  | ok text => exact ⟨text, textOf_eq_ok_iff.mp read⟩
  | error fault =>
    simp only [read] at silent
    cases silent

theorem scalarMappingsOf_object {origin : ValueOrigin} {given : Table Json} {mappings : Table String} :
    scalarMappingsOf origin (some (.object given)) = .ok mappings ↔ Table.ofEntries given = texts mappings := by
  rw [scalarMappingsOf]
  constructor
  · intro accepted
    split at accepted
    next sound =>
      obtain ⟨others, same⟩ := exists_texts_of_mappingIssues (List.isEmpty_iff.mp sound)
      rw [same, mappingTexts_texts] at accepted
      rw [same, Except.ok.inj accepted]
    next => cases accepted
  · intro same
    rw [same, mappingIssues_texts, mappingTexts_texts]
    rfl

theorem scalarMappingsOf_texts {origin : ValueOrigin} {given mappings : Table String} :
    scalarMappingsOf origin (some (.object (texts given))) = .ok mappings ↔ mappings = Table.ofEntries given := by
  have kept : Table.ofEntries (texts given) = texts (Table.ofEntries given) := Table.insertAll_map [] given
  rw [scalarMappingsOf_object, kept]
  constructor
  · intro same
    rw [← mappingTexts_texts mappings, ← same, mappingTexts_texts]
  · rintro rfl
    rfl

theorem scalarMappingsOf_eq_ok_iff {origin : ValueOrigin} {value : Option Json} {mappings : Table String} :
    scalarMappingsOf origin value = .ok mappings ↔
      value = none ∧ mappings = [] ∨
        ∃ given, value = some (.object given) ∧ Table.ofEntries given = texts mappings := by
  cases value with
  | none => simp [scalarMappingsOf]
  | some value =>
    cases value with
    | object given => simp [scalarMappingsOf_object]
    | _ => simp [scalarMappingsOf]

theorem unknownIssues_eq_nil_iff {entries : Table Json} :
    unknownIssues (Table.ofEntries entries) = [] ↔ ∀ entry ∈ entries, entry.1 ∈ settingNames := by
  simp only [unknownIssues, List.map_eq_nil_iff, List.filter_eq_nil_iff, Bool.not_eq_true', Bool.not_eq_false,
    List.contains_iff_mem]
  constructor
  · intro known entry member
    obtain ⟨kept, inside⟩ := Table.exists_mem_insertAll (Or.inl ⟨entry.2, member⟩)
    exact known (entry.1, kept) inside
  · intro known entry member
    rcases Table.mem_insertAll member with impossible | given
    · cases impossible
    · exact known entry given

theorem validateEntries_eq_ok_iff {origin : ValueOrigin} {entries : Table Json} {settings : Settings} :
    validateEntries origin entries = .ok settings ↔
      effectOf (Table.last? entries "effect") = .ok settings.effect ∧
      packageNameOf (Table.last? entries "package_name") = .ok settings.packageName ∧
      scalarMappingsOf origin (Table.last? entries "scalar_mappings") = .ok settings.scalarMappings ∧
      ∀ entry ∈ entries, entry.1 ∈ settingNames := by
  rw [← unknownIssues_eq_nil_iff]
  simp only [validateEntries, Table.find?_ofEntries]
  constructor
  · intro accepted
    split at accepted
    next effect packageName mappings known =>
      cases accepted
      exact ⟨effect, packageName, mappings, known⟩
    next => cases accepted
  · rintro ⟨effect, packageName, mappings, known⟩
    rw [effect, packageName, mappings, known]

/-- What the entries of a file may say: every name is that of a setting, and the last value of each is of its kind. -/
structure Valid (entries : Table Json) : Prop where
  known : ∀ entry ∈ entries, entry.1 ∈ settingNames
  effect : ∀ value, Table.last? entries "effect" = some value → ∃ text, value = .string text ∧ IsEffect text
  packageName : ∀ value, Table.last? entries "package_name" = some value →
    value = .null ∨ ∃ text, value = .string text ∧ isPackageName text.toList
  scalarMappings : ∀ value, Table.last? entries "scalar_mappings" = some value →
    ∃ given, value = .object given ∧ ∀ name type, Table.last? given name = some type → ∃ text, type = .string text

/-- The text that entries give for a name. -/
def textIn (entries : Table Json) (name : String) : Option String :=
  match Table.last? entries name with
  | some (.string text) => some text
  | _ => none

/-- The Scala type that entries give for a scalar. -/
def mappingIn (entries : Table Json) (name : String) : Option String :=
  match Table.last? entries "scalar_mappings" with
  | some (.object given) => textIn given name
  | _ => none

theorem exists_of_valid (origin : ValueOrigin) {entries : Table Json} (valid : Valid entries) :
    ∃ settings, validateEntries origin entries = .ok settings := by
  have effect : ∃ effect, effectOf (Table.last? entries "effect") = .ok effect := by
    cases given : Table.last? entries "effect" with
    | none => exact ⟨_, rfl⟩
    | some value =>
      obtain ⟨text, rfl, accepted⟩ := valid.effect value given
      exact ⟨_, effectOf_eq_ok_iff.mpr (Or.inr ⟨text, rfl, accepted, rfl⟩)⟩
  have packageName : ∃ name, packageNameOf (Table.last? entries "package_name") = .ok name := by
    cases given : Table.last? entries "package_name" with
    | none => exact ⟨_, rfl⟩
    | some value =>
      rcases valid.packageName value given with rfl | ⟨text, rfl, accepted⟩
      · exact ⟨_, rfl⟩
      · exact ⟨_, packageNameOf_eq_ok_iff.mpr (Or.inr ⟨text, rfl, accepted, rfl⟩)⟩
  have mappings : ∃ mappings, scalarMappingsOf origin (Table.last? entries "scalar_mappings") = .ok mappings := by
    cases given : Table.last? entries "scalar_mappings" with
    | none => exact ⟨_, rfl⟩
    | some value =>
      obtain ⟨pairs, rfl, accepted⟩ := valid.scalarMappings value given
      have allTexts : ∀ entry ∈ Table.ofEntries pairs, ∃ text, entry.2 = .string text := by
        intro entry member
        apply accepted entry.1
        rw [← Table.find?_ofEntries]
        exact (Table.distinct_ofEntries pairs).find?_of_mem member
      obtain ⟨mappings, same⟩ := exists_texts allTexts
      exact ⟨mappings, scalarMappingsOf_object.mpr same⟩
  obtain ⟨effect, effectGiven⟩ := effect
  obtain ⟨packageName, packageGiven⟩ := packageName
  obtain ⟨scalarMappings, mappingsGiven⟩ := mappings
  refine ⟨{ effect, packageName, scalarMappings }, validateEntries_eq_ok_iff.mpr ?_⟩
  exact ⟨effectGiven, packageGiven, mappingsGiven, valid.known⟩

section Values

variable {origin : ValueOrigin} {entries : Table Json} {settings : Settings}
  (accepted : validateEntries origin entries = .ok settings)
include accepted

theorem valid_of_validateEntries : Valid entries := by
  obtain ⟨effect, packageName, mappings, known⟩ := validateEntries_eq_ok_iff.mp accepted
  refine ⟨known, fun value given => ?_, fun value given => ?_, fun value given => ?_⟩
  · rw [given] at effect
    rcases effectOf_eq_ok_iff.mp effect with ⟨impossible, -⟩ | ⟨text, same, valid, -⟩
    · cases impossible
    · exact ⟨text, Option.some.inj same, valid⟩
  · rw [given] at packageName
    rcases packageNameOf_eq_ok_iff.mp packageName with ⟨impossible | null, -⟩ | ⟨text, same, valid, -⟩
    · cases impossible
    · exact Or.inl (Option.some.inj null)
    · exact Or.inr ⟨text, Option.some.inj same, valid⟩
  · rw [given] at mappings
    rcases scalarMappingsOf_eq_ok_iff.mp mappings with ⟨impossible, -⟩ | ⟨pairs, same, read⟩
    · cases impossible
    · refine ⟨pairs, Option.some.inj same, fun name type found => ?_⟩
      rw [← Table.find?_ofEntries, read, texts, Table.find?_map] at found
      obtain ⟨text, -, rfl⟩ := Option.map_eq_some_iff.mp found
      exact ⟨text, rfl⟩

theorem effect_of_validateEntries :
    IsEffect settings.effect ∧ strip settings.effect = settings.effect ∧
      settings.effect = ((textIn entries "effect").map strip).getD "zio.UIO" := by
  obtain ⟨effect, -⟩ := validateEntries_eq_ok_iff.mp accepted
  rw [textIn]
  rcases effectOf_eq_ok_iff.mp effect with ⟨missing, same⟩ | ⟨text, given, valid, same⟩
  · obtain ⟨valid, stripped⟩ := checkEffect_eq_ok_iff.mp (rfl : checkEffect "zio.UIO" = .ok "zio.UIO")
    rw [missing, same]
    exact ⟨valid, stripped.symm, rfl⟩
  · rw [given, same]
    exact ⟨valid.strip.1, valid.strip.2, rfl⟩

theorem packageName_of_validateEntries :
    (∀ name, settings.packageName = some name → isPackageName name.toList) ∧
      settings.packageName = textIn entries "package_name" := by
  obtain ⟨-, packageName, -⟩ := validateEntries_eq_ok_iff.mp accepted
  rw [textIn]
  rcases packageNameOf_eq_ok_iff.mp packageName with ⟨missing | missing, same⟩ | ⟨text, given, valid, same⟩
  · rw [missing, same]
    exact ⟨nofun, rfl⟩
  · rw [missing, same]
    exact ⟨nofun, rfl⟩
  · rw [given, same]
    refine ⟨?_, rfl⟩
    rintro name ⟨⟩
    exact valid

theorem scalarMappings_of_validateEntries :
    settings.scalarMappings.Distinct ∧ ∀ name, settings.scalarMappings.find? name = mappingIn entries name := by
  obtain ⟨-, -, mappings, -⟩ := validateEntries_eq_ok_iff.mp accepted
  simp only [mappingIn]
  rcases scalarMappingsOf_eq_ok_iff.mp mappings with ⟨missing, same⟩ | ⟨given, found, read⟩
  · rw [missing, same]
    exact ⟨List.nodup_nil, fun _ => rfl⟩
  · rw [found]
    constructor
    · have distinct := Table.distinct_ofEntries given
      rw [read, texts, Table.Distinct, List.map_map] at distinct
      exact distinct
    · intro name
      change _ = textIn given name
      rw [textIn, ← Table.find?_ofEntries, read, texts, Table.find?_map]
      cases settings.scalarMappings.find? name <;> rfl

end Values

end Settings

end SchemaScribe
