import SchemaScribe.Text.Encoding

/-!
What is done to a document after it has been written: it may be passed through an external formatter and be given
a header. Each step works on the outcome of the one before it.
-/

namespace SchemaScribe

structure FormatterCall where
  command : List String
  input : String
  deriving DecidableEq

inductive FormatterFailure
  | missing
  | failed (code : Int)
  | unencodable
  | undecodable
  deriving DecidableEq

/-- What a call of the formatter comes to. Texts go in and out: what a program prints has been decoded by then. -/
abbrev Formatter := FormatterCall → Except FormatterFailure String

/-- A program of the operating system. It is given a command and its input, and prints bytes. -/
abbrev Process := List String → ByteArray → Except FormatterFailure ByteArray

/-- A program as a formatter. Every line end that it prints is read as a line feed. -/
def Process.formatter (process : Process) (standIns : StandIns) : Formatter := fun call =>
  match standIns.encode? call.input with
  | none => .error .unencodable
  | some input => do
    match decodeText? (← process call.command input) with
    | none => .error .undecodable
    | some output => return output

inductive FinishStep
  | header (text : String)
  | format (executable : String) (configPath : Option String)
  deriving DecidableEq

structure Finished where
  calls : List FormatterCall
  result : Except FormatterFailure String

/-- The header, an empty line, and the document. -/
def withHeader (header document : String) : String :=
  let header := if header.toList.getLast? = some '\n' then header else header ++ "\n"
  header ++ "\n" ++ document

def formatterCommand (executable : String) (configPath : Option String) : List String :=
  [executable, "--stdin", "--non-interactive"] ++
    match configPath with
    | some path => if path = "" then [] else ["--config", path]
    | none => []

def defaultFormatter : FinishStep :=
  .format "scalafmt" none

def finish (formatter : Formatter) (text : String) : List FinishStep → Finished
  | [] => { calls := [], result := .ok text }
  | .header header :: rest => finish formatter (withHeader header text) rest
  | .format executable configPath :: rest =>
    let call := { command := formatterCommand executable configPath, input := text }
    match formatter call with
    | .error failure => { calls := [call], result := .error failure }
    | .ok formatted =>
      let later := finish formatter formatted rest
      { later with calls := call :: later.calls }

end SchemaScribe
