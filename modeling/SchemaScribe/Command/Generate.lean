import SchemaScribe.Command.Request
import SchemaScribe.Finish
import SchemaScribe.Settings.Load
import SchemaScribe.Text.Terminal

/-!
A run of the program on a tree of files. The output file and the missing directories above it are made last, when
everything that does not depend on them has gone well. Only then is the text encoded, and only then is it reported that
the file is there; both can still fail.
-/

namespace SchemaScribe

/-- Where a run takes place. -/
structure World where
  tree : FileTree
  directory : List String
  formatter : Formatter
  standIns : StandIns := .none
  /-- Whether standard output takes nothing but text. In some locales it takes undecoded bytes as well. -/
  strictOutput : Bool := true

inductive Failure
  | usage (error : UsageError)
  | settings (error : SettingsError)
  | load (error : LoadError)
  | write (error : WriteError)
  | formatter (failure : FormatterFailure)
  | output (cause : AccessError)
  | unencodable
  deriving DecidableEq

def Failure.exitCode : Failure → Nat
  | .usage (.malformedPath _) => 1
  | .usage _ => 2
  | _ => 1

/-- What a run has shown so far, as plain text. -/
structure Transcript where
  stdout : String := ""
  stderr : String := ""
  calls : List FormatterCall := []

/-- How far a run has come. -/
structure Progress where
  transcript : Transcript := {}
  tree : FileTree

/-- Whether a line can be shown on standard output. -/
def World.shows (world : World) (line : String) : Bool :=
  !world.strictOutput || world.standIns.isText (Text.plainText line)

def World.encode (world : World) (text : String) : Except Failure ByteArray :=
  match world.standIns.encode? text with
  | some content => .ok content
  | none => .error .unencodable

/-- A computation whose progress is left behind also when it fails. -/
abbrev Run := ExceptT Failure (StateM Progress)

namespace Run

def record (change : Transcript → Transcript) : Run Unit :=
  modify fun progress => { progress with transcript := change progress.transcript }

def say (world : World) (line : String) : Run Unit := do
  unless world.shows line do throw .unencodable
  record fun transcript => { transcript with stdout := transcript.stdout ++ Text.plainText line ++ "\n" }

/-- Standard error takes every line, with undecoded bytes spelled out. -/
def warn (world : World) (line : String) : Run Unit :=
  let shown := world.standIns.spellOut (Text.plainText line)
  record fun transcript => { transcript with stderr := transcript.stderr ++ shown ++ "\n" }

def attempt (toFailure : ε → Failure) (outcome : Except ε α) : Run α :=
  match outcome with
  | .ok value => pure value
  | .error error => throw (toFailure error)

def onlyIf (condition : Bool) (action : Run Unit) : Run Unit :=
  if condition then action else pure ()

/-- Works on the files. A refusal is a failure of the output, the only thing that is written. -/
def onFiles (access : FileAccess α) : Run α := do
  let (outcome, tree) := access.run.run (← get).tree
  modify fun progress => { progress with tree }
  attempt .output outcome

end Run

/-- A scalar and its Scala type, with an equals sign between them. -/
def parseScalar (value : String) : Except UsageError (String × String) :=
  match Text.cutAt '=' value.toList with
  | (_, none) => .error (.badScalar value)
  | (before, some behind) =>
    let name := Text.stripChars before
    let type := Text.stripChars behind
    if name.isEmpty || type.isEmpty then .error (.badScalar value)
    else .ok (String.ofList name, String.ofList type)

/-- Of several values for one scalar the last counts. -/
def parseScalars (values : List String) : Except UsageError (Table String) :=
  (values.mapM parseScalar).map Table.ofEntries

namespace GenerateRequest

def overrides (request : GenerateRequest) (scalarMappings : Option (Table String)) : Table Json :=
  let text (value : Option String) : Json := (value.map Json.string).getD .null
  let mapping (entries : Table String) : Json := .object (entries.map fun (name, type) => (name, .string type))
  [("effect", text request.effect), ("package_name", text request.packageName),
   ("scalar_mappings", (scalarMappings.map mapping).getD .null)]

/-- The settings of the file; without a file, the usual ones. -/
def baseSettings (request : GenerateRequest) (world : World) : Except SettingsError Settings :=
  match request.config with
  | some path => Settings.load world.tree world.directory path
  | none => .ok {}

/-- The mappings of the options on top of others; without an option there is nothing to override. -/
def scalarMappings (request : GenerateRequest) (base : Table String) : Except UsageError (Option (Table String)) :=
  if request.scalars.isEmpty then .ok none
  else (parseScalars request.scalars).map fun given => some (base.insertAll given)

/-- The settings of the file, overridden by the options. -/
def settings (request : GenerateRequest) (world : World) : Except Failure Settings := do
  let base ← (request.baseSettings world).mapError .settings
  let scalarMappings ← (request.scalarMappings base.scalarMappings).mapError .usage
  (base.merge (request.overrides scalarMappings)).mapError (.settings ∘ .invalidOverrides)

/-- An empty header is none. -/
def headerSteps (request : GenerateRequest) : List FinishStep :=
  match request.header with
  | some header => if header = "" then [] else [.header header]
  | none => []

/-- The formatter goes first, so that it leaves the header alone. -/
def finishSteps (request : GenerateRequest) : List FinishStep :=
  (if request.format then [defaultFormatter] else []) ++ request.headerSteps

def schemaPath (request : GenerateRequest) (world : World) : String :=
  Path.ofLocation (Path.resolve world.directory request.schema)

def outputLocation (request : GenerateRequest) (world : World) : List String :=
  Path.resolve world.directory request.output

/-- What is shown of a request on demand. -/
def settingLines (request : GenerateRequest) (world : World) (settings : Settings) : List String :=
  let outputPath := Path.ofLocation (request.outputLocation world)
  [s!"Schema: {request.schemaPath world}", s!"Output: {outputPath}", s!"Effect: {settings.effect}"]

/-- What is shown of a schema on demand. -/
def countLines (schema : Schema) (roots : Roots) : List String :=
  let names := sortedNames roots.names
  let listed := if names.isEmpty then "none" else Text.joinWith ", " names
  [s!"  Object types: {schema.objectTypes.length}", s!"  Input types: {schema.inputTypes.length}",
   s!"  Enums: {schema.enums.length}", s!"  Unions: {schema.unions.length}", s!"  Root operations: {listed}"]

def lengthLine (code : String) : String :=
  s!"  Lines: {Text.countLines code}"

def doneLine (request : GenerateRequest) (world : World) : String :=
  s!"Done! Generated code in {Path.ofLocation (request.outputLocation world)}"

/-- The text of the output file. -/
def generate (request : GenerateRequest) (world : World) : Run String := do
  let schemaPath := request.schemaPath world
  let settings ← Run.attempt id (request.settings world)
  Run.onlyIf request.verbose ((request.settingLines world settings).forM (Run.say world))
  Run.say world "Parsing schema..."
  let schema ← Run.attempt .load (Schema.load world.tree world.directory schemaPath)
  Run.onlyIf schema.isEmpty (Run.warn world s!"Warning: no type definitions found in {schemaPath}")
  Run.onlyIf request.verbose do
    let roots ← Run.attempt .write schema.roots
    (countLines schema roots).forM (Run.say world)
  Run.say world "Generating code..."
  let document ← Run.attempt .write (settings.write schema)
  let finished := finish world.formatter document.text request.finishSteps
  Run.record fun transcript => { transcript with calls := transcript.calls ++ finished.calls }
  let code ← Run.attempt .formatter finished.result
  Run.onlyIf request.verbose (Run.say world (lengthLine code))
  return code

/-- The output file is opened before it turns out whether the code can be encoded. -/
def execute (request : GenerateRequest) (world : World) : Run Unit := do
  let code ← request.generate world
  let location := request.outputLocation world
  Run.onFiles (FileAccess.openOutput location)
  let content ← Run.attempt id (world.encode code)
  Run.onFiles (FileAccess.fillFile content location)
  Run.say world (request.doneLine world)

end GenerateRequest

def versionLine : String :=
  "gql-scalagen, version 0.1.0"

def helpLines : List String :=
  ["Usage: gql-scalagen [--version] [--help] generate --schema PATH --output PATH [OPTIONS]", "",
   "Options:"] ++ generateOptions.map fun spec => "  " ++ spec.long

def Request.execute (world : World) : Request → Run Unit
  | .version => Run.say world versionLine
  | .help => helpLines.forM (Run.say world)
  | .generate request => request.execute world

/-- What is left behind by a run. -/
structure Report where
  exitCode : Nat
  transcript : Transcript
  tree : FileTree
  failure : Option Failure

def Report.ofRun : Except Failure Unit × Progress → Report
  | (.ok _, progress) => { exitCode := 0, transcript := progress.transcript, tree := progress.tree, failure := none }
  | (.error failure, progress) =>
    { exitCode := failure.exitCode, transcript := progress.transcript, tree := progress.tree, failure := some failure }

namespace Failure

def issueText (issue : SettingsIssue) : String :=
  Text.joinWith "." issue.location ++ ": " ++ (issue.fault.message?.getD "not a JSON text")

def settingsMessage : SettingsError → String
  | .invalidValues issues => Text.joinWith "; " (issues.map issueText)
  | .invalidOverrides issues => Text.joinWith "; " (issues.map issueText)
  | .invalidFile path issues => SettingsError.heading path ++ Text.joinWith "; " (issues.map issueText)
  | .unreadableFile path cause => SettingsError.unreadableMessage path cause
  | .malformedPath path => s!"{Text.quote path} is no path"
  | .undecodableFile path => s!"Cannot decode config file {path}"

def message : Failure → String
  | usage error => error.message
  | settings error => settingsMessage error
  | load (.unreadable path cause) => s!"Cannot read {path}: {cause.reason}"
  | load (.undecodable path) => s!"Cannot decode {path}"
  | load (.source error) => error.message
  | write error => error.message
  | formatter .missing => "The formatter cannot be found"
  | formatter (.failed code) => s!"The formatter ended with code {code}"
  | formatter .unencodable => "The formatter cannot be given what is no text"
  | formatter .undecodable => "The formatter prints what is no text"
  | output cause => cause.reason
  | unencodable => "The text cannot be encoded"

end Failure

def World.pathExists (world : World) (path : String) : Bool :=
  (world.tree.at? world.directory path).isOk

def World.run (world : World) (arguments : List String) : Report :=
  let run : Run Unit := do
    let request ← Run.attempt .usage (Request.parse world.pathExists arguments)
    request.execute world
  Report.ofRun (run.run.run { tree := world.tree })

end SchemaScribe
