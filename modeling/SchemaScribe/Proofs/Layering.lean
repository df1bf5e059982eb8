import SchemaScribe.Proofs.Runs
import SchemaScribe.Proofs.ValidSettings

/-! Where the settings of a run come from. An option counts before the file and the file before what is built in,
setting by setting and scalar by scalar. The file has to be valid on its own, and so has every option for a scalar,
whatever overrides them. -/

namespace SchemaScribe
open Settings (Valid IsEffect isPackageName textIn mappingIn validateEntries)
open Source (bind_eq_ok map_eq_ok)
open Text (strip stripChars cutAt)

section ScalarOptions

/-- What an option for a scalar says: the name stands before its first equals sign, and the type behind it. -/
def Gives (option name type : String) : Prop :=
  ∃ before behind, option.toList = before ++ '=' :: behind ∧ '=' ∉ before ∧
    name = String.ofList (stripChars before) ∧ type = String.ofList (stripChars behind)

/-- An option for a scalar that names it and its type. -/
def IsMapping (option : String) : Prop :=
  ∃ name type, Gives option name type ∧ name ≠ "" ∧ type ≠ ""

/-- What the last option that names a scalar says of it. -/
inductive Latest (options : List String) (name : String) : Option String → Prop
  | given {before after : List String} {option type : String} (found : options = before ++ option :: after)
      (gives : Gives option name type) (last : ∀ later ∈ after, ∀ other, ¬Gives later name other) :
      Latest options name (some type)
  | absent (never : ∀ option ∈ options, ∀ type, ¬Gives option name type) : Latest options name none

theorem Text.cutAt_append {separator : Char} {before : List Char} (first : separator ∉ before) (behind : List Char) :
    cutAt separator (before ++ separator :: behind) = (before, some behind) := by
  have others : ∀ c ∈ before, decide (c ≠ separator) := by
    intro c member
    exact decide_eq_true fun same => first (same ▸ member)
  rw [cutAt, List.takeWhile_append_of_pos others, List.dropWhile_append_of_pos others]
  simp

theorem Text.cutAt_of_not_mem {separator : Char} {chars : List Char} (absent : separator ∉ chars) :
    cutAt separator chars = (chars, none) := by
  have others : ∀ c ∈ chars, decide (c ≠ separator) := by
    intro c member
    exact decide_eq_true fun same => absent (same ▸ member)
  have cut : cutAt separator (chars ++ []) = (chars ++ [], none) := by
    rw [cutAt, List.takeWhile_append_of_pos others, List.dropWhile_append_of_pos others]
    rfl
  rwa [List.append_nil] at cut

theorem Gives.unique {option name type otherName otherType : String} (first : Gives option name type)
    (second : Gives option otherName otherType) : name = otherName ∧ type = otherType := by
  obtain ⟨before, behind, split, free, rfl, rfl⟩ := first
  obtain ⟨otherBefore, otherBehind, otherSplit, otherFree, rfl, rfl⟩ := second
  have cut := Text.cutAt_append free behind
  rw [← split, otherSplit, Text.cutAt_append otherFree] at cut
  obtain ⟨rfl, same⟩ := Prod.mk.inj cut
  cases same
  exact ⟨rfl, rfl⟩

theorem Latest.cons {option name type key : String} {rest : List String} {found : Option String}
    (latest : Latest rest key found) (gives : Gives option name type) :
    Latest (option :: rest) key (found.or (if key = name then some type else none)) := by
  cases latest with
  | @given before _ _ _ place found last =>
    have listed : option :: rest = (option :: before) ++ _ := congrArg (option :: ·) place
    rw [Option.some_or]
    exact .given listed found last
  | absent never =>
    rw [Option.none_or]
    split
    next same =>
      subst same
      exact .given (List.nil_append _).symm gives never
    next different =>
      refine .absent (List.forall_mem_cons.mpr ⟨fun other same => ?_, never⟩)
      exact different (same.unique gives).1

theorem parseScalar_cases (option : String) :
    (∃ name type, Gives option name type ∧ IsMapping option ∧ parseScalar option = .ok (name, type)) ∨
      ¬IsMapping option ∧ parseScalar option = .error (.badScalar option) := by
  by_cases signed : '=' ∈ option.toList
  · obtain ⟨before, behind, split, first⟩ := List.eq_append_cons_of_mem signed
    have gives : Gives option _ _ := ⟨before, behind, split, first, rfl, rfl⟩
    rw [parseScalar, split, Text.cutAt_append first]
    by_cases blank : (stripChars before).isEmpty || (stripChars behind).isEmpty
    · refine Or.inr ⟨?_, if_pos blank⟩
      rintro ⟨name, type, other, named, typed⟩
      obtain ⟨rfl, rfl⟩ := gives.unique other
      simp_all
    · refine Or.inl ⟨_, _, gives, ⟨_, _, gives, ?_, ?_⟩, if_neg blank⟩
      · simp_all
      · simp_all
  · refine Or.inr ⟨?_, ?_⟩
    · rintro ⟨_, _, ⟨before, behind, split, -⟩, -⟩
      exact signed (by simp [split])
    · rw [parseScalar, Text.cutAt_of_not_mem signed]

/-- An option that names no scalar or no type, behind others that all do. -/
def FirstUnusable (options : List String) (option : String) : Prop :=
  ∃ before after, options = before ++ option :: after ∧ (∀ earlier ∈ before, IsMapping earlier) ∧ ¬IsMapping option

/-- Either every option is used, and the last for each scalar counts, or the first that cannot be used is refused. -/
theorem parseScalars_cases (options : List String) :
    (∃ pairs, options.mapM parseScalar = .ok pairs ∧ (∀ option ∈ options, IsMapping option) ∧
        ∀ name, Latest options name (Table.last? pairs name)) ∨
      ∃ bad, FirstUnusable options bad ∧ options.mapM parseScalar = .error (.badScalar bad) := by
  induction options with
  | nil => exact Or.inl ⟨[], rfl, nofun, fun _ => .absent nofun⟩
  | cons option rest ih =>
    rw [List.mapM_cons]
    rcases parseScalar_cases option with ⟨name, type, gives, mapping, read⟩ | ⟨bad, refused⟩
    · rw [read]
      rcases ih with ⟨pairs, done, mappings, latest⟩ | ⟨bad, ⟨before, after, place, earlier, unusable⟩, refused⟩
      · rw [done]
        refine Or.inl ⟨(name, type) :: pairs, rfl, List.forall_mem_cons.mpr ⟨mapping, mappings⟩, fun key => ?_⟩
        rw [Table.last?_cons]
        exact (latest key).cons gives
      · rw [refused]
        refine Or.inr ⟨bad, ⟨option :: before, after, congrArg (option :: ·) place, ?_, unusable⟩, rfl⟩
        exact List.forall_mem_cons.mpr ⟨mapping, earlier⟩
    · rw [refused]
      exact Or.inr ⟨option, ⟨[], rest, rfl, nofun, bad⟩, rfl⟩

end ScalarOptions

section Config

/-- What the configuration says: the entries of the file, or nothing if there is none. -/
inductive World.ConfigSays (world : World) : Option String → Table Json → Prop
  | nothing : ConfigSays world none []
  | file {path text : String} {content : ByteArray} {entries : Table Json}
      (read : world.tree.readFile world.directory (Path.tidy path) = .ok content)
      (decoded : decodeText? content = some text) (parsed : Json.parse? text = some (.object entries)) :
      ConfigSays world (some path) entries

theorem Settings.load_eq_ok_iff {tree : FileTree} {directory : List String} {path : String} {settings : Settings} :
    Settings.load tree directory path = .ok settings ↔
      ∃ content text entries, tree.readFile directory (Path.tidy path) = .ok content ∧ decodeText? content = some text ∧
        Json.parse? text = some (.object entries) ∧ validateEntries .file entries = .ok settings := by
  constructor
  · intro loaded
    rw [load] at loaded
    split at loaded
    next => cases loaded
    next => cases loaded
    next content read =>
      split at loaded
      next => cases loaded
      next text decoded =>
        have accepted := mapError_eq_ok_iff.mp loaded
        rw [ofText] at accepted
        split at accepted
        next value parsed =>
          cases value with
          | object entries => exact ⟨content, text, entries, read, decoded, parsed, accepted⟩
          | _ => cases accepted
        next => cases accepted
  · rintro ⟨content, text, entries, read, decoded, parsed, accepted⟩
    simp only [load, read, decoded, ofText, parsed, validate, accepted]
    rfl

/-- The configuration can be read and is valid by itself. -/
def World.ConfigValid (world : World) (config : Option String) : Prop :=
  ∃ entries, world.ConfigSays config entries ∧ Valid entries

variable {world : World} {request : GenerateRequest}

theorem GenerateRequest.baseSettings_eq_ok_iff {base : Settings} :
    request.baseSettings world = .ok base ↔
      ∃ entries, world.ConfigSays request.config entries ∧ validateEntries .file entries = .ok base := by
  rw [baseSettings]
  cases request.config with
  | none =>
    have usual : validateEntries .file [] = .ok {} := rfl
    constructor
    · rintro ⟨⟩
      exact ⟨[], .nothing, usual⟩
    · rintro ⟨entries, stated, accepted⟩
      cases stated
      cases usual.symm.trans accepted
      rfl
  | some path =>
    simp only [Settings.load_eq_ok_iff]
    constructor
    · rintro ⟨content, text, entries, read, decoded, parsed, accepted⟩
      exact ⟨entries, .file read decoded parsed, accepted⟩
    · rintro ⟨entries, stated, accepted⟩
      cases stated with
      | file read decoded parsed => exact ⟨_, _, entries, read, decoded, parsed, accepted⟩

theorem World.ConfigSays.unique {config : Option String} {entries others : Table Json}
    (first : world.ConfigSays config entries) (second : world.ConfigSays config others) : entries = others := by
  cases first with
  | nothing =>
    cases second
    rfl
  | file read decoded parsed =>
    cases second with
    | file otherRead otherDecoded otherParsed =>
      cases read.symm.trans otherRead
      cases decoded.symm.trans otherDecoded
      cases parsed.symm.trans otherParsed
      rfl

end Config

namespace GenerateRequest

variable {world : World} {request : GenerateRequest}

/-- Overriding leaves each setting as it was unless there is an option for it. -/
theorem merged_entries (request : GenerateRequest) (base : Settings) (mappings : Option (Table String)) :
    base.toEntries.insertAll ((request.overrides mappings).filter (!Settings.isNull ·.2)) =
      [("effect", .string (request.effect.getD base.effect)),
       ("package_name", ((request.packageName.or base.packageName).map Json.string).getD .null),
       ("scalar_mappings", .object (Settings.texts (mappings.getD base.scalarMappings)))] := by
  rw [overrides]
  cases request.effect <;> cases request.packageName <;> cases mappings <;> rfl

theorem effectOf_override {base effect : String} {override : Option String}
    (checked : IsEffect base ∧ strip base = base) :
    Settings.effectOf (some (.string (override.getD base))) = .ok effect ↔
      (∀ given, override = some given → IsEffect given) ∧ effect = (override.map strip).getD base := by
  cases override with
  | none => simp [Settings.effectOf_eq_ok_iff, checked]
  | some given => simp [Settings.effectOf_eq_ok_iff]

theorem packageNameOf_override {base override name : Option String}
    (checked : ∀ name, base = some name → isPackageName name.toList) :
    Settings.packageNameOf (some (((override.or base).map Json.string).getD .null)) = .ok name ↔
      (∀ given, override = some given → isPackageName given.toList) ∧ name = override.or base := by
  cases override with
  | none =>
    cases base with
    | none => simp [Settings.packageNameOf_eq_ok_iff]
    | some old => simp [Settings.packageNameOf_eq_ok_iff, checked old rfl]
  | some given => simp [Settings.packageNameOf_eq_ok_iff]

theorem merge_overrides_eq_ok_iff {base settings : Settings} {mappings : Option (Table String)}
    (effect : IsEffect base.effect ∧ strip base.effect = base.effect)
    (packageName : ∀ name, base.packageName = some name → isPackageName name.toList) :
    base.merge (request.overrides mappings) = .ok settings ↔
      (∀ given, request.effect = some given → IsEffect given) ∧
      (∀ given, request.packageName = some given → isPackageName given.toList) ∧
      settings = { effect := (request.effect.map strip).getD base.effect
                   packageName := request.packageName.or base.packageName
                   scalarMappings := Table.ofEntries (mappings.getD base.scalarMappings) } := by
  rw [Settings.merge, merged_entries, Settings.validateEntries_eq_ok_iff]
  change Settings.effectOf (some _) = _ ∧ Settings.packageNameOf (some _) = _ ∧
    Settings.scalarMappingsOf .program (some _) = _ ∧ _ ↔ _
  rw [effectOf_override effect, packageNameOf_override packageName, Settings.scalarMappingsOf_texts]
  constructor
  · rintro ⟨⟨effects, sameEffect⟩, ⟨names, sameName⟩, sameMappings, -⟩
    refine ⟨effects, names, ?_⟩
    rw [← sameEffect, ← sameName, ← sameMappings]
  · rintro ⟨effects, names, rfl⟩
    exact ⟨⟨effects, rfl⟩, ⟨names, rfl⟩, rfl, by simp [Settings.settingNames]⟩

theorem scalarMappings_cases (request : GenerateRequest) {base : Table String} (distinct : base.Distinct) :
    (∃ mappings, request.scalarMappings base = .ok mappings ∧ (∀ option ∈ request.scalars, IsMapping option) ∧
        (mappings.getD base).Distinct ∧ ∀ name, ∃ given, Latest request.scalars name given ∧
          (mappings.getD base).find? name = given.or (base.find? name)) ∨
      ∃ bad, FirstUnusable request.scalars bad ∧ request.scalarMappings base = .error (.badScalar bad) := by
  rw [scalarMappings, parseScalars]
  rcases parseScalars_cases request.scalars with ⟨pairs, done, mappings, latest⟩ | ⟨bad, unusable, refused⟩
  · left
    by_cases empty : request.scalars.isEmpty
    · refine ⟨none, if_pos empty, mappings, distinct, fun name => ⟨none, ?_, rfl⟩⟩
      rw [List.isEmpty_iff.mp empty]
      exact .absent nofun
    · rw [if_neg empty, done]
      refine ⟨_, rfl, mappings, distinct.insertAll _, fun name => ⟨_, latest name, ?_⟩⟩
      rw [Option.getD_some, Table.find?_insertAll, (Table.distinct_ofEntries pairs).last?_eq_find?,
        Table.find?_ofEntries]
  · right
    have nonempty : ¬request.scalars.isEmpty := by
      obtain ⟨before, after, place, -⟩ := unusable
      simp [place]
    rw [if_neg nonempty, refused]
    exact ⟨bad, unusable, rfl⟩

/-- Settings as the layers give them: the options, the entries of the file, and what is built in. -/
structure Layered (request : GenerateRequest) (entries : Table Json) (settings : Settings) : Prop where
  effect : (settings.context none).effect = ((request.effect.or (textIn entries "effect")).map strip).getD "zio.UIO"
  packageName : settings.packageName = request.packageName.or (textIn entries "package_name")
  scalar : ∀ name, ∃ given, Latest request.scalars name given ∧ ∀ required,
    (TypeRef.named name required).expression (settings.context none).scalars =
      TypeRef.optionUnless required (((given.or (mappingIn entries name)).or (Scalars.builtin.find? name)).getD name)

theorem layered_of_base {entries : Table Json} {base : Settings} {mappings : Option (Table String)}
    (accepted : validateEntries .file entries = .ok base) (distinct : (mappings.getD base.scalarMappings).Distinct)
    (latest : ∀ name, ∃ given, Latest request.scalars name given ∧
      (mappings.getD base.scalarMappings).find? name = given.or (base.scalarMappings.find? name)) :
    request.Layered entries
      { effect := (request.effect.map strip).getD base.effect
        packageName := request.packageName.or base.packageName
        scalarMappings := Table.ofEntries (mappings.getD base.scalarMappings) } where
  effect := by
    change (request.effect.map strip).getD base.effect = _
    rw [(Settings.effect_of_validateEntries accepted).2.2]
    cases request.effect <;> rfl
  packageName := by rw [← (Settings.packageName_of_validateEntries accepted).2]
  scalar name := by
    obtain ⟨given, last, found⟩ := latest name
    refine ⟨given, last, fun required => congrArg (TypeRef.optionUnless required) ?_⟩
    rw [← (Settings.scalarMappings_of_validateEntries accepted).2, ← found]
    change ((Scalars.builtin.insertAll (Table.ofEntries _)).find? name).getD name = _
    rw [Table.find?_insertAll, (Table.distinct_ofEntries _).last?_eq_find?, Table.find?_ofEntries,
      distinct.last?_eq_find?]

/-- The file is judged first, then the options for scalars, and then the other options. -/
theorem settings_cases (request : GenerateRequest) (world : World) :
    (¬world.ConfigValid request.config ∧ ∃ error, request.settings world = .error (.settings error)) ∨
      (world.ConfigValid request.config ∧ ∃ bad, FirstUnusable request.scalars bad ∧
        request.settings world = .error (.usage (.badScalar bad))) ∨
      ∃ entries layered, world.ConfigSays request.config entries ∧ Valid entries ∧
        (∀ option ∈ request.scalars, IsMapping option) ∧ request.Layered entries layered ∧
        ∀ settings, request.settings world = .ok settings ↔
          (∀ given, request.effect = some given → IsEffect given) ∧
          (∀ given, request.packageName = some given → isPackageName given.toList) ∧ settings = layered := by
  rw [settings]
  cases based : request.baseSettings world with
  | error error =>
    refine Or.inl ⟨?_, error, rfl⟩
    rintro ⟨entries, stated, valid⟩
    obtain ⟨base, accepted⟩ := Settings.exists_of_valid .file valid
    cases based.symm.trans (baseSettings_eq_ok_iff.mpr ⟨entries, stated, accepted⟩)
  | ok base =>
    obtain ⟨entries, stated, accepted⟩ := baseSettings_eq_ok_iff.mp based
    have valid := Settings.valid_of_validateEntries accepted
    obtain ⟨effect, stripped, -⟩ := Settings.effect_of_validateEntries accepted
    obtain ⟨named, -⟩ := Settings.packageName_of_validateEntries accepted
    obtain ⟨distinct, -⟩ := Settings.scalarMappings_of_validateEntries accepted
    right
    rcases request.scalarMappings_cases distinct with ⟨mappings, given, usable, stays, latest⟩ |
      ⟨bad, unusable, refused⟩
    · refine Or.inr ⟨entries, _, stated, valid, usable, layered_of_base accepted stays latest, fun settings => ?_⟩
      rw [← merge_overrides_eq_ok_iff ⟨effect, stripped⟩ named]
      change ((request.scalarMappings base.scalarMappings).mapError Failure.usage >>= _) = _ ↔ _
      rw [given]
      exact mapError_eq_ok_iff
    · refine Or.inl ⟨⟨entries, stated, valid⟩, bad, unusable, ?_⟩
      change ((request.scalarMappings base.scalarMappings).mapError Failure.usage >>= _) = _
      rw [refused]
      rfl

theorem run_of_settings_error {arguments : List String} {failure : Failure}
    (asked : Request.parse world.pathExists arguments = .ok (.generate request))
    (failed : request.settings world = .error failure) :
    (world.run arguments).failure = some failure ∧ (world.run arguments).exitCode = failure.exitCode := by
  have uncoded : request.code world = .error failure := by
    rw [code, failed]
    rfl
  obtain ⟨transcript, ran⟩ := execute_of_code_error uncoded { tree := world.tree }
  rw [World.run_of_parse asked, Request.execute, ran]
  exact ⟨rfl, rfl⟩

theorem exists_settings_iff (request : GenerateRequest) (world : World) :
    (∃ settings, request.settings world = .ok settings) ↔
      world.ConfigValid request.config ∧ (∀ option ∈ request.scalars, IsMapping option) ∧
      (∀ given, request.effect = some given → IsEffect given) ∧
      ∀ given, request.packageName = some given → isPackageName given.toList := by
  rcases request.settings_cases world with ⟨invalid, error, failed⟩ | ⟨-, first, unusable, failed⟩ |
    ⟨entries, layered, stated, valid, usable, -, accepted⟩
  · rw [failed]
    exact ⟨nofun, fun sound => absurd sound.1 invalid⟩
  · obtain ⟨before, after, place, -, bad⟩ := unusable
    rw [failed, place]
    exact ⟨nofun, fun sound => absurd (sound.2.1 first (by simp)) bad⟩
  · constructor
    · rintro ⟨settings, done⟩
      obtain ⟨effects, names, -⟩ := (accepted settings).mp done
      exact ⟨⟨entries, stated, valid⟩, usable, effects, names⟩
    · rintro ⟨-, -, effects, names⟩
      exact ⟨layered, (accepted layered).mpr ⟨effects, names, rfl⟩⟩

theorem exists_layered {settings : Settings} (done : request.settings world = .ok settings) :
    ∃ entries, world.ConfigSays request.config entries ∧ request.Layered entries settings := by
  rcases request.settings_cases world with ⟨-, error, failed⟩ | ⟨-, first, -, failed⟩ |
    ⟨entries, layered, stated, -, -, layers, accepted⟩
  · cases failed.symm.trans done
  · cases failed.symm.trans done
  · obtain ⟨-, -, rfl⟩ := (accepted settings).mp done
    exact ⟨entries, stated, layers⟩

theorem run_of_invalid_config {arguments : List String}
    (asked : Request.parse world.pathExists arguments = .ok (.generate request))
    (invalid : ¬world.ConfigValid request.config) :
    ∃ error, (world.run arguments).failure = some (.settings error) ∧ (world.run arguments).exitCode = 1 := by
  rcases request.settings_cases world with ⟨-, error, failed⟩ | ⟨valid, -⟩ | ⟨entries, _, stated, valid, -⟩
  · exact ⟨error, run_of_settings_error asked failed⟩
  · exact absurd valid invalid
  · exact absurd ⟨entries, stated, valid⟩ invalid

theorem run_of_unusable_scalar {arguments : List String}
    (asked : Request.parse world.pathExists arguments = .ok (.generate request))
    (valid : world.ConfigValid request.config) {option : String} (member : option ∈ request.scalars)
    (unusable : ¬IsMapping option) :
    ∃ first, FirstUnusable request.scalars first ∧ (world.run arguments).failure = some (.usage (.badScalar first)) ∧
      (world.run arguments).exitCode = 2 := by
  rcases request.settings_cases world with ⟨invalid, -⟩ | ⟨-, first, found, failed⟩ | ⟨_, _, -, -, usable, -⟩
  · exact absurd valid invalid
  · exact ⟨first, found, run_of_settings_error asked failed⟩
  · exact absurd (usable option member) unusable

/-- A run gets its settings exactly if the configuration is valid by itself and so is every option, and then they come
from the layers. Otherwise it fails: an invalid configuration is reported whatever the options are, and an option for a
scalar that names no scalar or no type is refused whatever the others are. -/
theorem settings_layered (request : GenerateRequest) (world : World) :
    ((∃ settings, request.settings world = .ok settings) ↔
      world.ConfigValid request.config ∧ (∀ option ∈ request.scalars, IsMapping option) ∧
      (∀ given, request.effect = some given → IsEffect given) ∧
      ∀ given, request.packageName = some given → isPackageName given.toList) ∧
    (∀ settings, request.settings world = .ok settings →
      ∃ entries, world.ConfigSays request.config entries ∧ request.Layered entries settings) ∧
    ∀ arguments, Request.parse world.pathExists arguments = .ok (.generate request) →
      (¬world.ConfigValid request.config →
        ∃ error, (world.run arguments).failure = some (.settings error) ∧ (world.run arguments).exitCode = 1) ∧
      ∀ option ∈ request.scalars, ¬IsMapping option → (world.run arguments).exitCode ≠ 0 ∧
        (world.ConfigValid request.config → ∃ first, FirstUnusable request.scalars first ∧
          (world.run arguments).failure = some (.usage (.badScalar first)) ∧ (world.run arguments).exitCode = 2) := by
  refine ⟨request.exists_settings_iff world, fun _ done => exists_layered done, fun arguments asked => ?_⟩
  refine ⟨run_of_invalid_config asked, fun option member unusable => ⟨?_, fun valid => ?_⟩⟩
  · by_cases valid : world.ConfigValid request.config
    · obtain ⟨_, -, -, code⟩ := run_of_unusable_scalar asked valid member unusable
      rw [code]
      decide
    · obtain ⟨_, -, code⟩ := run_of_invalid_config asked valid
      rw [code]
      decide
  · exact run_of_unusable_scalar asked valid member unusable

end GenerateRequest

def pierConfig : String :=
  "\x7b\"scalar_mappings\":\x7b\"Date\":\"B\",\"Id\":\"C\"\x7d\x7d"

/-- A directory with a schema and a configuration in it. -/
def pier : World where
  tree := .directory [("s.graphql", .file "".toUTF8), ("c.json", .file pierConfig.toUTF8)]
  directory := []
  formatter _ := .error .missing

def pierRequest : GenerateRequest where
  schema := "s.graphql"
  output := "Api.scala"
  config := some "c.json"
  effect := some " zio.Task "
  scalars := ["Date=D", " Date = E = F ", "Int=G"]

def pierEntries : Table Json :=
  [("scalar_mappings", .object [("Date", .string "B"), ("Id", .string "C")])]

/-- A command line with an option that names no scalar. -/
def namelessArguments : List String :=
  ["generate", "-s", "s.graphql", "-o", "Api.scala", "--scalar", "Date=D", "--scalar", " = E"]

theorem pier_configSays : pier.ConfigSays (some "c.json") pierEntries := by
  have read : pier.tree.readFile [] "c.json" = .ok pierConfig.toUTF8 := rfl
  have decoded : decodeText? pierConfig.toUTF8 = some pierConfig := rfl
  have parsed : Json.parse? pierConfig = some (.object pierEntries) := by with_unfolding_all rfl
  exact .file read decoded parsed

theorem not_isMapping_of_error {option : String} (refused : parseScalar option = .error (.badScalar option)) :
    ¬IsMapping option := by
  rcases parseScalar_cases option with ⟨name, type, -, -, read⟩ | ⟨unusable, -⟩
  · cases refused.symm.trans read
  · exact unusable

/-- The last option for a scalar counts, whatever equals signs and spaces it has, and one without a name is refused. -/
theorem GenerateRequest.settings_layered_pier :
    (∃ settings, pierRequest.settings pier = .ok settings ∧ pierRequest.Layered pierEntries settings ∧
      settings.effect = "zio.Task" ∧
      ["Date", "Id", "Int", "ID", "Ship"].map settings.scalars.resolve = ["E = F", "C", "G", "String", "Ship"]) ∧
    (pier.run namelessArguments).exitCode ≠ 0 := by
  constructor
  · have based : pierRequest.baseSettings pier = .ok { scalarMappings := [("Date", "B"), ("Id", "C")] } :=
      baseSettings_eq_ok_iff.mpr ⟨pierEntries, pier_configSays, rfl⟩
    have done : pierRequest.settings pier = .ok
        { effect := "zio.Task", scalarMappings := [("Date", "E = F"), ("Id", "C"), ("Int", "G")] } := by
      rw [settings, based]
      rfl
    obtain ⟨entries, stated, layered⟩ := (settings_layered pierRequest pier).2.1 _ done
    cases stated.unique pier_configSays
    exact ⟨_, done, layered, rfl, rfl⟩
  · have asked : Request.parse pier.pathExists namelessArguments = .ok (.generate
        { schema := "s.graphql", output := "Api.scala", scalars := ["Date=D", " = E"] }) := rfl
    obtain ⟨-, refuses⟩ := (settings_layered _ pier).2.2 _ asked
    exact (refuses " = E" (by decide) (not_isMapping_of_error rfl)).1

end SchemaScribe
