import SchemaScribe.Files.Path
import SchemaScribe.Table

/-!
Files and directories as a tree. Following a path looks at every directory on its way, so a path that leads up
again out of a missing directory leads nowhere. Directories are made one at a time, from the top down, and a later
refusal does not take them away again.
-/

namespace SchemaScribe

inductive FileTree
  | file (content : ByteArray)
  | directory (entries : List (String × FileTree))

/-- Why the operating system refuses an access. -/
inductive AccessError
  | notFound
  | notADirectory
  | isADirectory
  | alreadyExists
  | nameTooLong
  | embeddedNull
  deriving DecidableEq

namespace AccessError

def number : AccessError → Nat
  | notFound => 2
  | alreadyExists => 17
  | notADirectory => 20
  | isADirectory => 21
  | embeddedNull => 22
  | nameTooLong => 36

def reason : AccessError → String
  | notFound => "No such file or directory"
  | alreadyExists => "File exists"
  | notADirectory => "Not a directory"
  | isADirectory => "Is a directory"
  | nameTooLong => "File name too long"
  | embeddedNull => "embedded null byte"

end AccessError

namespace FileTree

def child? (tree : FileTree) (name : String) : Option FileTree :=
  match tree with
  | file _ => none
  | directory entries => entries.lookup name

/-- What stands at a location. -/
def get? (tree : FileTree) (location : List String) : Option FileTree :=
  location.foldlM child? tree

/-- How many bytes a name may have. -/
def nameLimit : Nat := 255

def isTooLong (name : String) : Bool :=
  name.utf8ByteSize > nameLimit

/-- How many bytes a whole path may have. -/
def pathLimit : Nat := 4095

/-- Whether the operating system takes the path at all. -/
def admits (path : String) : Bool :=
  path.utf8ByteSize ≤ pathLimit

/-- One step on a path. Only a directory can be stepped from. -/
def stepFrom (tree : FileTree) (location : List String) (component : String) : Except AccessError (List String) :=
  match tree.get? location with
  | none => .error .notFound
  | some (.file _) => .error .notADirectory
  | some (.directory _) =>
    let next := Path.step location component
    if isTooLong component then .error .nameTooLong
    else if (tree.get? next).isSome then .ok next
    else .error .notFound

/-- The location that a path leads to, seen from a directory. The empty path leads nowhere. -/
def follow (tree : FileTree) (directory : List String) (path : String) : Except AccessError (List String) :=
  if Path.holdsNull path then .error .embeddedNull
  else if path = "" then .error .notFound
  else if !admits path then .error .nameTooLong
  else (Path.components path).foldlM (stepFrom tree) (if Path.isAbsolute path then [] else directory)

/-- What a path leads to. -/
def at? (tree : FileTree) (directory : List String) (path : String) : Except AccessError FileTree := do
  match tree.get? (← tree.follow directory path) with
  | some found => return found
  | none => .error .notFound

def readFile (tree : FileTree) (directory : List String) (path : String) : Except AccessError ByteArray := do
  match ← tree.at? directory path with
  | .file content => return content
  | .directory _ => .error .isADirectory

def isDirectory : FileTree → Bool
  | file _ => false
  | directory _ => true

/-- Whether a directory stands at the location. -/
def hasDirectory (tree : FileTree) (location : List String) : Bool :=
  (tree.get? location).any isDirectory

/-- The tree with something put at a location. Everything above the location has to be there. -/
def place (entry : FileTree) : List String → FileTree → Except AccessError FileTree
  | [], _ => .ok entry
  | _ :: _, file _ => .error .notADirectory
  | name :: rest, directory entries =>
    if isTooLong name then .error .nameTooLong
    else match Table.find? entries name with
      | some below => (place entry rest below).map fun below => directory (Table.insert name below entries)
      | none => if rest.isEmpty then .ok (directory (Table.insert name entry entries)) else .error .notFound

mutual

/-- Every file below, by its path from here on. Only the directories whose paths pass are looked into. -/
def files (enters : String → Bool) (path : String) : FileTree → List (String × ByteArray)
  | file content => [(path, content)]
  | directory entries => if enters path then entryFiles enters path entries else []
termination_by structural tree => tree

def entryFiles (enters : String → Bool) (path : String) : List (String × FileTree) → List (String × ByteArray)
  | [] => []
  | (name, tree) :: entries => tree.files enters (Path.join path name) ++ entryFiles enters path entries
termination_by structural entries => entries

end

/-- The files that are new or have another content, sorted by their paths from the top. -/
def changedFiles (before after : FileTree) : List (String × ByteArray) :=
  let known := before.files (fun _ => true) ""
  let isChanged (path : String) (content : ByteArray) : Bool :=
    match known.lookup path with
    | some old => old.data != content.data
    | none => true
  ((after.files (fun _ => true) "").filter fun (path, content) => isChanged path content).mergeSort
    fun a b => decide (a.1 ≤ b.1)

end FileTree

/-- Work on the files. What was done before a refusal stays done. -/
abbrev FileAccess := ExceptT AccessError (StateM FileTree)

namespace FileAccess

/-- A single step is taken as a whole or not at all. -/
def change (update : FileTree → Except AccessError FileTree) : FileAccess Unit := do
  match update (← get) with
  | .ok tree => set tree
  | .error refusal => throw refusal

def makeDirectory (location : List String) : FileAccess Unit :=
  change fun tree =>
    if (tree.get? location).isSome then .error .alreadyExists else FileTree.place (.directory []) location tree

/-- Opens a file to write into it. One that is already there is emptied. -/
def openFile (location : List String) : FileAccess Unit :=
  change fun tree =>
    if tree.hasDirectory location then .error .isADirectory else FileTree.place (.file .empty) location tree

/-- Writes into a file that has been opened. -/
def fillFile (content : ByteArray) (location : List String) : FileAccess Unit :=
  change (FileTree.place (.file content) location)

/-- Makes a directory unless there is one, and before it the missing ones above it. Its names stand innermost first. -/
def makeDirectories : List String → FileAccess Unit
  | [] => do
    unless (← get).hasDirectory [] do throw .alreadyExists
  | name :: above =>
    let location := (name :: above).reverse
    tryCatch (makeDirectory location) fun refusal => do
      if refusal = .notFound then
        makeDirectories above
        makeDirectory location
      else
        unless (← get).hasDirectory location do throw refusal

/-- Opens a file and before it makes the missing directories above it. -/
def openOutput (location : List String) : FileAccess Unit := do
  makeDirectories location.dropLast.reverse
  openFile location

end FileAccess

end SchemaScribe
