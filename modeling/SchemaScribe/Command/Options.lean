import SchemaScribe.Text.Pieces
import SchemaScribe.Text.Quote
import SchemaScribe.Text.Similarity

/-!
Options on a command line. A long option takes its value behind an equals sign or from the next argument, a short
one from the rest of its cluster or from the next argument; two dashes end the options.
-/

namespace SchemaScribe

structure OptionSpec (κ : Type) where
  key : κ
  long : String
  short : Option Char := none
  takesValue : Bool := true

/-- How the option is called in messages about its value. -/
def OptionSpec.label (spec : OptionSpec κ) : String :=
  match spec.short with
  | some letter => s!"'{spec.long}' / '-{letter}'"
  | none => s!"'{spec.long}'"

/-- What is wrong with a command line. An unknown name comes with the known ones that are close to it. -/
inductive UsageError
  | noSuchOption (name : String) (suggestions : List String)
  | missingValue (name : String)
  | unexpectedValue (name : String)
  | missingOption (label : String)
  | missingPath (label path : String)
  | malformedPath (path : String)
  | badScalar (value : String)
  | extraArguments (arguments : List String)
  | noSuchCommand (name : String) (suggestions : List String)
  | missingCommand
  deriving DecidableEq

/-- What follows the message about an unknown name. -/
def suggestionText : List String → String
  | [] => ""
  | [name] => s!" Did you mean {Text.quote name}?"
  | names =>
    let listed := Text.joinWith ", " (names.map Text.quote)
    s!" (Did you mean one of: {listed}?)"

def UsageError.message : UsageError → String
  | .noSuchOption name suggestions => s!"No such option {Text.quote name}.{suggestionText suggestions}"
  | .missingValue name => s!"Option {Text.quote name} requires an argument."
  | .unexpectedValue name => s!"Option {Text.quote name} does not take a value."
  | .missingOption label => s!"Missing option {label}."
  | .missingPath label path => s!"Invalid value for {label}: Path {Text.quote path} does not exist."
  | .malformedPath _ => "embedded null byte"
  | .badScalar value => s!"Invalid value for --scalar: expected NAME=ScalaType, got '{value}'"
  | .extraArguments [argument] => s!"Got unexpected extra argument ({argument})"
  | .extraArguments arguments =>
    let listed := Text.joinWith " " arguments
    s!"Got unexpected extra arguments ({listed})"
  | .noSuchCommand name suggestions => s!"No such command {Text.quote name}.{suggestionText suggestions}"
  | .missingCommand => "Missing command."

/-- An option as it was given, with its value if it takes one. -/
abbrev Given (κ : Type) := κ × Option String

/-- What one argument gives, and the option that waits for the next argument as its value. -/
structure OptionReading (κ : Type) where
  given : List (Given κ) := []
  waiting : Option (κ × String) := none

namespace OptionSpec

/-- The letters of a cluster, up to the first option that takes a value. Nothing is suggested for a letter. -/
def readCluster (specs : List (OptionSpec κ)) : List Char → Except UsageError (OptionReading κ)
  | [] => .ok {}
  | letter :: rest =>
    let name := String.ofList ['-', letter]
    match specs.find? (·.short = some letter) with
    | none => .error (.noSuchOption name [])
    | some spec =>
      if spec.takesValue then
        .ok (if rest.isEmpty then { waiting := some (spec.key, name) }
          else { given := [(spec.key, some (String.ofList rest))] })
      else (readCluster specs rest).map fun later => { later with given := (spec.key, none) :: later.given }

/-- The name of an option and the value behind the first equals sign, if there is one. -/
def splitValue (argument : List Char) : String × Option String :=
  (Text.cutAt '=' argument).map String.ofList (Option.map String.ofList)

def readArgument (specs : List (OptionSpec κ)) (argument : List Char) : Except UsageError (OptionReading κ) :=
  let (name, value) := splitValue argument
  match specs.find? (·.long = name), value with
  | some spec, some value =>
    if spec.takesValue then .ok { given := [(spec.key, some value)] } else .error (.unexpectedValue name)
  | some spec, none =>
    .ok (if spec.takesValue then { waiting := some (spec.key, name) } else { given := [(spec.key, none)] })
  | none, _ =>
    if ['-', '-'].isPrefixOf argument then .error (.noSuchOption name (Text.suggestions (specs.map (·.long)) name))
    else readCluster specs argument.tail

/-- A dash alone is an ordinary argument. -/
def isOption (argument : List Char) : Bool :=
  argument.head? == some '-' && argument.length > 1

/-- The options given and the ordinary arguments. Where these are not `mixed` with options, the first of them ends
the options. -/
def parse (specs : List (OptionSpec κ)) (mixed : Bool) :
    List String → Except UsageError (List (Given κ) × List String)
  | [] => .ok ([], [])
  | argument :: rest =>
    if argument = "--" then .ok ([], rest)
    else if isOption argument.toList then
      match readArgument specs argument.toList with
      | .error error => .error error
      | .ok reading =>
        match reading.waiting, rest with
        | none, rest => (parse specs mixed rest).map (Prod.map (reading.given ++ ·) id)
        | some (_, name), [] => .error (.missingValue name)
        | some (key, _), value :: rest =>
          (parse specs mixed rest).map (Prod.map (reading.given ++ (key, some value) :: ·) id)
    else if mixed then (parse specs mixed rest).map (Prod.map id (argument :: ·))
    else .ok ([], argument :: rest)

end OptionSpec

/-- The value given last. -/
def lastGiven? [DecidableEq κ] (given : List (Given κ)) (key : κ) : Option String :=
  (given.reverse.find? (·.1 = key)).bind Prod.snd

def isGiven [DecidableEq κ] (given : List (Given κ)) (key : κ) : Bool :=
  given.any (·.1 = key)

def allGiven [DecidableEq κ] (given : List (Given κ)) (key : κ) : List String :=
  given.filterMap fun (other, value) => if other = key then value else none

end SchemaScribe
