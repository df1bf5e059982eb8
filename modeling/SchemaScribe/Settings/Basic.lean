import SchemaScribe.Declaration.Emission
import SchemaScribe.Document.Write
import SchemaScribe.Settings.Json
import SchemaScribe.Text.Blank
import SchemaScribe.Text.Pieces

/-!
The settings of a run and how they are checked. Everything that is wrong with a set of values is reported at
once, in the order of the places where it stands. Of several entries of one name only the last is looked at, whether
they are settings, mappings of a scalar or unknown.
-/

namespace SchemaScribe

structure Settings where
  effect : String := "zio.UIO"
  packageName : Option String := none
  /-- Scala types for scalars, in addition to the built-in ones. -/
  scalarMappings : Table String := []
  deriving DecidableEq

/-- Whether values come from a running program or from the text of a file. -/
inductive ValueOrigin
  | program
  | file
  deriving DecidableEq

inductive SettingsFault
  | notAnObject (origin : ValueOrigin)
  | notAString
  | notAMapping (origin : ValueOrigin)
  | unknownSetting
  | badEffect
  | badPackageName (given : String)
  | notJson
  | frozen
  deriving DecidableEq

namespace SettingsFault

def kind : SettingsFault → String
  | notAnObject _ => "model_type"
  | notAString => "string_type"
  | notAMapping _ => "dict_type"
  | unknownSetting => "extra_forbidden"
  | badEffect => "value_error"
  | badPackageName _ => "value_error"
  | notJson => "json_invalid"
  | frozen => "frozen_instance"

/-- There is no message of its own for a text that is not JSON. -/
def message? : SettingsFault → Option String
  | notAnObject .program => some "Input should be a valid dictionary or instance of WriterConfig"
  | notAnObject .file => some "Input should be an object"
  | notAString => some "Input should be a valid string"
  | notAMapping .program => some "Input should be a valid dictionary"
  | notAMapping .file => some "Input should be an object"
  | unknownSetting => some "Extra inputs are not permitted"
  | badEffect => some "Value error, effect must be a single Scala type name, e.g. 'zio.UIO'"
  | badPackageName given => some s!"Value error, '{given}' is not a valid Scala package name"
  | notJson => none
  | frozen => some "Instance is frozen"

end SettingsFault

/-- A fault and the keys that lead to it. -/
structure SettingsIssue where
  location : List String
  fault : SettingsFault
  deriving DecidableEq

namespace Settings

def checkEffect (given : String) : Except SettingsFault String :=
  let stripped := Text.stripChars given.toList
  if stripped.isEmpty || stripped.any Text.isBlank then .error .badEffect else .ok (String.ofList stripped)

def isIdentifier : List Char → Bool
  | [] => false
  | first :: rest => Source.isNameStart first && rest.all Source.isNameContinue

/-- Identifiers with points between them. A line feed at the very end is let through. -/
def isPackageName (chars : List Char) : Bool :=
  let body := if chars.getLast? = some '\n' then chars.dropLast else chars
  (Text.pieces '.' body).all isIdentifier

def checkPackageName (given : String) : Except SettingsFault String :=
  if isPackageName given.toList then .ok given else .error (.badPackageName given)

def textOf : Json → Except SettingsFault String
  | .string text => .ok text
  | _ => .error .notAString

def effectOf : Option Json → Except SettingsFault String
  | none => .ok ({} : Settings).effect
  | some value => textOf value >>= checkEffect

def packageNameOf : Option Json → Except SettingsFault (Option String)
  | none => .ok none
  | some .null => .ok none
  | some value => (textOf value >>= checkPackageName).map some

def mappingIssues (entries : Table Json) : List SettingsIssue :=
  entries.filterMap fun (name, value) =>
    match textOf value with
    | .ok _ => none
    | .error fault => some { location := ["scalar_mappings", name], fault }

def mappingTexts (entries : Table Json) : Table String :=
  entries.filterMap fun (name, value) =>
    match textOf value with
    | .ok text => some (name, text)
    | .error _ => none

def scalarMappingsOf (origin : ValueOrigin) : Option Json → Except (List SettingsIssue) (Table String)
  | none => .ok []
  | some (.object entries) =>
    let given := Table.ofEntries entries
    if (mappingIssues given).isEmpty then .ok (mappingTexts given) else .error (mappingIssues given)
  | some _ => .error [{ location := ["scalar_mappings"], fault := .notAMapping origin }]

def settingNames : List String :=
  ["effect", "package_name", "scalar_mappings"]

def unknownIssues (entries : Table Json) : List SettingsIssue :=
  (entries.filter (!settingNames.contains ·.1)).map fun (name, _) => { location := [name], fault := .unknownSetting }

def issueOf (name : String) (outcome : Except SettingsFault α) : List SettingsIssue :=
  match outcome with
  | .ok _ => []
  | .error fault => [{ location := [name], fault }]

/-- The order of places: key by key, and a place before those inside it. -/
def locationLE : List String → List String → Bool
  | [], _ => true
  | _ :: _, [] => false
  | a :: rest, b :: others => if a = b then locationLE rest others else decide (a ≤ b)

def sortIssues (issues : List SettingsIssue) : List SettingsIssue :=
  issues.mergeSort fun a b => locationLE a.location b.location

def validateEntries (origin : ValueOrigin) (entries : Table Json) : Except (List SettingsIssue) Settings :=
  let given := Table.ofEntries entries
  let effect := effectOf (given.find? "effect")
  let packageName := packageNameOf (given.find? "package_name")
  let scalarMappings := scalarMappingsOf origin (given.find? "scalar_mappings")
  let unknown := unknownIssues given
  match effect, packageName, scalarMappings, unknown with
  | .ok effect, .ok packageName, .ok scalarMappings, [] => .ok { effect, packageName, scalarMappings }
  | _, _, _, _ =>
    let mappingIssues := match scalarMappings with
      | .ok _ => []
      | .error issues => issues
    .error (sortIssues (issueOf "effect" effect ++ issueOf "package_name" packageName ++ mappingIssues ++ unknown))

def validate (origin : ValueOrigin) : Json → Except (List SettingsIssue) Settings
  | .object entries => validateEntries origin entries
  | _ => .error [{ location := [], fault := .notAnObject origin }]

/-- The settings in a JSON text. -/
def ofText (text : String) : Except (List SettingsIssue) Settings :=
  match Json.parse? text with
  | some value => validate .file value
  | none => .error [{ location := [], fault := .notJson }]

/-- The settings as values that can be overridden. -/
def toEntries (settings : Settings) : Table Json :=
  [("effect", .string settings.effect),
   ("package_name", (settings.packageName.map Json.string).getD .null),
   ("scalar_mappings", .object (settings.scalarMappings.map fun (name, type) => (name, .string type)))]

def isNull : Json → Bool
  | .null => true
  | _ => false

/-- The settings with other values for the given names; a null is no override. -/
def merge (settings : Settings) (overrides : Table Json) : Except (List SettingsIssue) Settings :=
  validateEntries .program (settings.toEntries.insertAll (overrides.filter (!isNull ·.2)))

def scalars (settings : Settings) : Scalars :=
  Scalars.ofMappings settings.scalarMappings

/-- The effect for one run; without one, or with an empty one, that of the settings. -/
def effectFor (settings : Settings) : Option String → String
  | some effect => if effect = "" then settings.effect else effect
  | none => settings.effect

def context (settings : Settings) (effect : Option String) : WriteContext :=
  { scalars := settings.scalars, effect := settings.effectFor effect }

/-- The document for a schema under these settings. -/
def write (settings : Settings) (schema : Schema) (effect : Option String := none) : Except WriteError Document :=
  schema.write (settings.context effect) settings.packageName

end Settings

end SchemaScribe
