import SchemaScribe.Files.SchemaFiles
import SchemaScribe.Settings.Basic
import SchemaScribe.Text.Quote

/-!
Settings from files, and settings that change step by step. A step that fails leaves the settings as they are.
-/

namespace SchemaScribe

inductive SettingsError
  /-- Values that were to replace the settings as a whole, or one of them in place. -/
  | invalidValues (issues : List SettingsIssue)
  | invalidOverrides (issues : List SettingsIssue)
  | invalidFile (path : String) (issues : List SettingsIssue)
  | unreadableFile (path : String) (cause : AccessError)
  | malformedPath (path : String)
  | undecodableFile (path : String)
  deriving DecidableEq

namespace SettingsError

/-- What stands in front of the issues of a file. -/
def heading (path : String) : String :=
  s!"Invalid config file {path}: "

def unreadableMessage (path : String) (cause : AccessError) : String :=
  s!"Cannot read config file {path}: [Errno {cause.number}] {cause.reason}: {Text.quote path}"

end SettingsError

namespace Settings

def load (tree : FileTree) (directory : List String) (path : String) : Except SettingsError Settings :=
  let path := Path.tidy path
  match tree.readFile directory path with
  | .error .embeddedNull => .error (.malformedPath path)
  | .error cause => .error (.unreadableFile path cause)
  | .ok content =>
    match decodeText? content with
    | none => .error (.undecodableFile path)
    | some text => (ofText text).mapError (.invalidFile path)

inductive Step
  | replace (values : Json)
  | load (path : String)
  | merge (overrides : Table Json)
  | assign (name : String)
  | keep

/-- Settings are never changed in place, so an assignment is refused whatever its value. -/
def step (tree : FileTree) (directory : List String) (settings : Settings) :
    Step → Except SettingsError Settings
  | .replace values => (validate .program values).mapError .invalidValues
  | .load path => load tree directory path
  | .merge overrides => (settings.merge overrides).mapError .invalidOverrides
  | .assign name => .error (.invalidValues [{ location := [name], fault := .frozen }])
  | .keep => .ok settings

/-- The outcome of each step, and the settings after all of them. -/
def steps (tree : FileTree) (directory : List String) (settings : Settings) :
    List Step → List (Except SettingsError Settings) × Settings
  | [] => ([], settings)
  | first :: rest =>
    let outcome := settings.step tree directory first
    let next := match outcome with
      | .ok changed => changed
      | .error _ => settings
    let (outcomes, final) := next.steps tree directory rest
    (outcome :: outcomes, final)

end Settings

end SchemaScribe
