import SchemaScribe.Files.Tree
import SchemaScribe.Schema.Build
import SchemaScribe.Text.Encoding

/-!
The files of a schema: a single file, or all files below a directory whose names end like those of schemas. They
are read in the order of their whole paths, which does not follow the order of the directories. A directory that
cannot be listed because its path is too long is passed over, while a file with such a path cannot be read.
-/

namespace SchemaScribe

def schemaEndings : List String :=
  [".graphql", ".graphqls"]

def isSchemaPath (path : String) : Bool :=
  schemaEndings.any fun ending => ending.toList.isSuffixOf path.toList

namespace FileTree

def schemaFiles (tree : FileTree) (directory : List String) (path : String) : List (String × ByteArray) :=
  match tree.at? directory path with
  | .error _ => []
  | .ok found =>
    match found with
    | .file content => if isSchemaPath path then [(path, content)] else []
    | .directory _ =>
      ((found.files admits path).filter (isSchemaPath ·.1)).mergeSort fun a b => decide (a.1 ≤ b.1)

end FileTree

inductive LoadError
  | unreadable (path : String) (cause : AccessError)
  | undecodable (path : String)
  | source (error : SourceError)
  deriving DecidableEq

/-- Adds the text of a file, which errors call by its name alone. -/
def Schema.addFile (schema : Schema) (path : String) (content : ByteArray) : Except LoadError Schema :=
  if !FileTree.admits path then .error (.unreadable path .nameTooLong)
  else match decodeText? content with
    | none => .error (.undecodable path)
    | some text => (schema.addSource (Path.fileName path) text).mapError .source

def Schema.ofFiles (files : List (String × ByteArray)) : Except LoadError Schema :=
  files.foldlM (fun schema (path, content) => schema.addFile path content) {}

/-- The schema at a path. A path that leads nowhere has no files, but what is no path at all is refused. -/
def Schema.load (tree : FileTree) (directory : List String) (path : String) : Except LoadError Schema :=
  if Path.holdsNull path then .error (.unreadable path .embeddedNull)
  else ofFiles (tree.schemaFiles directory path)

end SchemaScribe
