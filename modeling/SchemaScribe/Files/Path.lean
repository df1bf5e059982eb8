import SchemaScribe.Text.Pieces

/-!
Paths as texts and as lists of names. A path is relative to a working directory unless it begins with a slash;
`.` stands for the directory itself and `..` for the one above.
-/

namespace SchemaScribe.Path

open Text (joinWith)

def components (path : String) : List String :=
  (Text.pieces '/' path.toList).map String.ofList

def isAbsolute (path : String) : Bool :=
  path.toList.head? == some '/'

/-- A path ends where a null character stands, so a text with one in it is no path. -/
def holdsNull (path : String) : Bool :=
  path.toList.contains '\x00'

/-- One step from a location, without a look at what is there. -/
def step (location : List String) (component : String) : List String :=
  if component = "" ∨ component = "." then location
  else if component = ".." then location.dropLast
  else location ++ [component]

/-- The location of a path, as a list of names from the top. -/
def resolve (directory : List String) (path : String) : List String :=
  (components path).foldl step (if isAbsolute path then [] else directory)

/-- A location as an absolute path. -/
def ofLocation (location : List String) : String :=
  "/" ++ joinWith "/" location

/-- The path without `.` components and needless slashes; two leading slashes are kept apart from one. -/
def tidy (path : String) : String :=
  let names := (components path).filter fun component => component ≠ "" ∧ component ≠ "."
  let slashes := (path.toList.takeWhile (· == '/')).length
  let root := if slashes = 0 then "" else if slashes = 2 then "//" else "/"
  if root = "" ∧ names.isEmpty then "." else root ++ joinWith "/" names

/-- A name below a directory. -/
def join (directory name : String) : String :=
  if directory = "" ∨ directory.toList.getLast? = some '/' then directory ++ name else directory ++ "/" ++ name

/-- What stands behind the last slash. -/
def fileName (path : String) : String :=
  ((components path).getLast?).getD ""

end SchemaScribe.Path
