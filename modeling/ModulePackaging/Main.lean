import ModulePackaging.CommandLine.Run
import ModulePackaging.Shell.Run

/-!
# The program

Takes the files below the current directory as a tree, runs the command line on it, and puts what
changed back. Paths that lead out of the directory lead to nothing. The overrides that have a name
are taken from the environment.
-/

namespace ModulePackaging.Main

/-- A path that the system understands, below the current directory. -/
def systemPath (home location : Files.Location) : String :=
  (Text.joined [Path.slash] (location.drop home.length)).toString

/-- Adds a directory and all below it to the nodes of a tree. -/
partial def collect (home location : Files.Location) (nodes : List (Files.Location × Files.Node)) :
    IO (List (Files.Location × Files.Node)) := do
  let here ← IO.currentDir
  let directory := if location == home then here else here / systemPath home location
  let mut nodes := nodes
  for entry in (← directory.readDir) do
    let place := location ++ [Text.ofString entry.fileName]
    if ← entry.path.isDir then nodes ← collect home place (nodes ++ [(place, .directory)])
    else
      let content ← IO.FS.readBinFile entry.path
      nodes := nodes ++ [(place, .file content.toList Files.Tree.defaultMode)]
  return nodes

/-- Puts a node into its place, if it was not there before. -/
def restore (before after : Files.Tree) (location : Files.Location) (node : Files.Node) :
    IO Unit := do
  if !after.home.isPrefixOf location || before.node? location == some node then return ()
  let path := systemPath after.home location
  match node with
  | .directory => IO.FS.createDirAll path
  | .file content mode => do
    IO.FS.writeBinFile path (ByteArray.mk content.toArray)
    if mode ≠ Files.Tree.defaultMode then
      IO.setAccessRights path ⟨⟨true, true, false⟩, ⟨false, false, false⟩, ⟨false, false, false⟩⟩

/-- Puts all that changed into its place, directories first. -/
def restoreAll (before after : Files.Tree) : IO Unit := do
  for (location, node) in after.nodes.mergeSort fun a b => decide (a.1.length ≤ b.1.length) do
    restore before after location node
  for (location, node) in before.nodes do
    match node, after.node? location with
    | .file _ _, none => IO.FS.removeFile (systemPath before.home location)
    | _, _ => pure ()

/-- The overrides in the environment. -/
def environment : IO Members := do
  let mut found : Members := []
  for field in Field.all do
    match ← IO.getEnv (Override.key field).toString with
    | some value => found := found ++ [(Override.key field, .str (Text.ofString value))]
    | none => pure ()
  return found

/-- Runs the program on the files below the current directory. -/
def run (arguments : List String) : IO UInt32 := do
  let start := (Text.ofString (← IO.currentDir).toString).splitOn Path.slash
  let home := start.filter fun name => !name.isEmpty
  let empty := Files.Tree.empty home
  let before : Files.Tree := ⟨home, ← collect home home empty.nodes⟩
  let chance ← IO.getRandomBytes 32
  let mark := Hex.encode (← IO.getRandomBytes 4).toList
  let action := CommandLine.run Shell.machine (← environment) chance.toList
    (arguments.map Text.ofString)
  let (result, after) := (ExceptT.run action).run ⟨before, [], mark⟩
  restoreAll before after.files
  match result with
  | .ok result => do
    IO.print result.output.toString
    IO.eprint result.errors.toString
    return result.code.toUInt32
  | .error fault => do
    IO.eprintln (fault.kindName ++ ": " ++ fault.line).toString
    return 1

end ModulePackaging.Main

/-- The command line. -/
def main (arguments : List String) : IO UInt32 := ModulePackaging.Main.run arguments
