import SchemaScribe.Command.Generate

/-!
The program. It sees the files below the working directory, and writes what a run has changed. No formatter is
started from here.
-/

namespace SchemaScribe

/-- A directory entry with everything below it. -/
partial def readEntry (entry : IO.FS.DirEntry) : IO (String × FileTree) := do
  if ← entry.path.isDir then
    let entries ← (← entry.path.readDir).toList.mapM readEntry
    return (entry.fileName, .directory entries)
  else
    return (entry.fileName, .file (← IO.FS.readBinFile entry.path))

def readWorld : IO World := do
  let current ← IO.currentDir
  let directory := Path.resolve [] current.toString
  let entries ← (← current.readDir).toList.mapM readEntry
  let tree := directory.foldr (fun name below => .directory [(name, below)]) (.directory entries)
  return { tree, directory, formatter := fun _ => .error .missing }

def writeChange (path : String) (content : ByteArray) : IO Unit := do
  IO.FS.createDirAll (Path.ofLocation (Path.resolve [] path).dropLast)
  IO.FS.writeBinFile (Path.ofLocation (Path.resolve [] path)) content

end SchemaScribe

open SchemaScribe in
/-- Failures are reported on standard error and by the exit code. -/
def main (arguments : List String) : IO UInt32 := do
  let world ← readWorld
  let report := world.run arguments
  for (path, content) in world.tree.changedFiles report.tree do
    writeChange path content
  IO.print report.transcript.stdout
  IO.eprint report.transcript.stderr
  if let some failure := report.failure then
    IO.eprintln s!"Error: {failure.message}"
  return UInt32.ofNat report.exitCode
