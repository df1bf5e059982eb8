import SchemaScribe.Command.Options
import SchemaScribe.Files.Tree

/-!
What a command line asks for. Faults of single arguments come first, then the options are checked in the order in
which they were given and the missing ones in the order of their declaration, and superfluous arguments come last.
-/

namespace SchemaScribe

inductive GenerateOption
  | schema
  | output
  | config
  | effect
  | packageName
  | scalar
  | header
  | format
  | verbose
  | help
  deriving DecidableEq

def generateOptions : List (OptionSpec GenerateOption) :=
  [{ key := .schema, long := "--schema", short := some 's' },
   { key := .output, long := "--output", short := some 'o' },
   { key := .config, long := "--config", short := some 'c' },
   { key := .effect, long := "--effect", short := some 'e' },
   { key := .packageName, long := "--package-name", short := some 'p' },
   { key := .scalar, long := "--scalar" },
   { key := .header, long := "--header" },
   { key := .format, long := "--scalafmt", takesValue := false },
   { key := .verbose, long := "--verbose", short := some 'v', takesValue := false },
   { key := .help, long := "--help", takesValue := false }]

inductive ProgramOption
  | version
  | help
  deriving DecidableEq

def programOptions : List (OptionSpec ProgramOption) :=
  [{ key := .version, long := "--version", takesValue := false },
   { key := .help, long := "--help", takesValue := false }]

structure GenerateRequest where
  schema : String
  output : String
  config : Option String := none
  effect : Option String := none
  packageName : Option String := none
  scalars : List String := []
  header : Option String := none
  format : Bool := false
  verbose : Bool := false

inductive Request
  | version
  | help
  | generate (request : GenerateRequest)

namespace Request

/-- The options in the order in which they are checked. -/
def checkOrder (given : List (Given GenerateOption)) : List (OptionSpec GenerateOption) :=
  let keys := (given.map Prod.fst).eraseDups
  keys.filterMap (fun key => generateOptions.find? (·.key = key)) ++
    generateOptions.filter (!keys.contains ·.key)

def isRequired : GenerateOption → Bool
  | .schema => true
  | .output => true
  | _ => false

/-- Whether the value has to be the path of something that exists. -/
def namesExisting : GenerateOption → Bool
  | .schema => true
  | .config => true
  | _ => false

def namesPath : GenerateOption → Bool
  | .output => true
  | option => namesExisting option

def checkOption (pathExists : String → Bool) (given : List (Given GenerateOption))
    (spec : OptionSpec GenerateOption) : Except UsageError Unit :=
  match lastGiven? given spec.key with
  | some value =>
    if namesPath spec.key && Path.holdsNull value then .error (.malformedPath value)
    else if namesExisting spec.key && !pathExists value then .error (.missingPath spec.label value)
    else .ok ()
  | none => if isRequired spec.key then .error (.missingOption spec.label) else .ok ()

def ofGiven (given : List (Given GenerateOption)) : GenerateRequest :=
  { schema := (lastGiven? given .schema).getD ""
    output := (lastGiven? given .output).getD ""
    config := lastGiven? given .config
    effect := lastGiven? given .effect
    packageName := lastGiven? given .packageName
    scalars := allGiven given .scalar
    header := lastGiven? given .header
    format := isGiven given .format
    verbose := isGiven given .verbose }

def parseGenerate (pathExists : String → Bool) (arguments : List String) : Except UsageError Request := do
  let (given, extra) ← OptionSpec.parse generateOptions true arguments
  if isGiven given .help then return .help
  (checkOrder given).forM (checkOption pathExists given)
  unless extra.isEmpty do .error (.extraArguments extra)
  return .generate (ofGiven given)

/-- The request that options of the program itself make, if any, and the arguments behind them. -/
def parseProgram (arguments : List String) : Except UsageError (Option Request × List String) := do
  let (given, rest) ← OptionSpec.parse programOptions false arguments
  return match given with
    | [] => (none, rest)
    | (.version, _) :: _ => (some .version, rest)
    | (.help, _) :: _ => (some .help, rest)

def commandNames : List String :=
  ["generate"]

/-- An unknown command that looks like an option is reported as one. -/
def parseCommand (pathExists : String → Bool) : List String → Except UsageError Request
  | [] => .error .missingCommand
  | command :: arguments =>
    if command = "generate" then parseGenerate pathExists arguments
    else do
      match ← parseProgram (command :: arguments) with
      | (some request, _) => return request
      | (none, _) => .error (.noSuchCommand command (Text.suggestions commandNames command))

/-- An empty command line asks for help. -/
def parse (pathExists : String → Bool) (arguments : List String) : Except UsageError Request := do
  if arguments.isEmpty then return .help
  match ← parseProgram arguments with
  | (some request, _) => return request
  | (none, rest) => parseCommand pathExists rest

end Request

end SchemaScribe
