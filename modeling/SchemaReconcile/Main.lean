import SchemaReconcile.Command.Generate

/-!
# The command line

The first argument names a command and the others belong to it.  A command works on a tree of the files that
its arguments and the settings name; what it changes in the tree is carried out afterwards, and places that
went away go first.  No database client is linked in, so every connection is refused, and a deployment ends
there.
-/

namespace SchemaReconcile.Main

open Command (Outcome)
open File (Path Place Tree)

/-- The variables that settings are read from. -/
def variableNames : List String :=
  ["DATABASE_URL", "POSTGRES_HOST", "POSTGRES_DB", "POSTGRES_USER", "POSTGRES_PASSWORD", "POSTGRES_PORT",
    "POSTGRES_SSLMODE", "SYNC_SCHEMA", "SYNC_INDEX_COUNT_LIMIT", "SYNC_TIMESTAMP_COLUMNS",
    "CODEGEN_OUTPUT_DIR", "CODEGEN_RECREATE_MODELS_DIR"]

/-- The variables that are set. -/
def environment : IO Settings.Environment := do
  let values ← variableNames.mapM fun name => do return (name, ← IO.getEnv name)
  return values.filterMap fun (name, value) => value.map fun text => (name, text)

/-- The texts that may name files: the arguments, what stands behind their equals signs, and the directory
of the settings. -/
def namedPaths (env : Settings.Environment) (arguments : List String) : List String :=
  arguments ++ arguments.filterMap (fun s => (Command.splitEquals s).map (·.2)) ++
    [(Settings.ArtifactDefaults.ofEnvironment env).outputDirectory]

/-- The paths of the directories above a path, and the path itself. -/
def pathsTo (p : Path) : List Path :=
  (List.range (p.names.length + 1)).map fun n => { p with names := p.names.take n }

/-- The place of a path whose directories are all there. -/
def placeOf (p : Path) : Place :=
  p.names.foldl (fun place name => if name == Tree.up then Tree.above place else place ++ [name])
    (Tree.start p)

/-- A path to a place. -/
def pathOf (place : Place) : Path :=
  match place with
  | "/" :: names => ⟨"/", names⟩
  | names => ⟨"", names⟩

/-- A tree with the node that stands at a path. -/
def loadNode (tree : Tree) (p : Path) : IO Tree := do
  let place := placeOf p
  if Tree.isBare place then return tree
  let path := (← IO.currentDir) / p.text
  if ← path.isDir then return tree.set place .directory
  if ← path.pathExists then
    return tree.set place (.file (← IO.FS.readBinFile path).toList)
  return tree

/-- A tree with everything below the directory of a path. -/
partial def loadBelow (tree : Tree) (p : Path) : IO Tree := do
  let path := (← IO.currentDir) / p.text
  unless ← path.isDir do return tree
  let entries ← path.readDir
  entries.foldlM (fun tree entry => do
    let child := p.child entry.fileName
    loadBelow (← loadNode tree child) child) tree

/-- A tree with the directories in the directory of a path. -/
def loadDirectories (tree : Tree) (p : Path) : IO Tree := do
  let path := (← IO.currentDir) / p.text
  unless ← path.isDir do return tree
  let entries ← path.readDir
  entries.foldlM (fun tree entry => do
    if ← entry.path.isDir then loadNode tree (p.child entry.fileName) else return tree) tree

/-- A tree with what stands at a path and above it, the directories in it, and all that is in the directory
of models there. -/
def loadNamed (tree : Tree) (p : Path) : IO Tree := do
  let models := ({ output := p, schema := "" } : Artifact.Target).models
  let tree ← (pathsTo p).foldlM loadNode tree
  let tree ← loadDirectories tree p
  loadBelow (← loadNode tree models) models

/-- Removes what one tree has and another one has not, and writes what the other one has instead. -/
def carryOut (before after : Tree) : IO Unit := do
  let base ← IO.currentDir
  for (place, node) in before.reverse do
    if (after.lookup place).isNone then
      let path := base / (pathOf place).text
      match node with
      | .directory => IO.FS.removeDir path
      | .file _ => IO.FS.removeFile path
  for (place, node) in after do
    if before.lookup place != some node then
      let path := base / (pathOf place).text
      match node with
      | .directory => IO.FS.createDirAll path
      | .file bytes => IO.FS.writeBinFile path ⟨bytes.toArray⟩

/-- Why nobody can connect. -/
def refusal : Catalog.Failure := ⟨.database, "connection refused"⟩

/-- Prints the outcome of a command, and gives its exit code. -/
def report (outcome : Outcome) : IO UInt32 := do
  for line in outcome.lines do IO.println line
  for failure in outcome.failures do IO.eprintln failure
  match outcome.exit with
  | .code n => return n.toUInt32
  | .escaped fault =>
    IO.eprintln fault.message
    return 1

/-- Runs a command on the files that it names. -/
def run (command : Settings.Environment → Tree → List String → Outcome) (arguments : List String) :
    IO UInt32 := do
  let env ← environment
  let tree ← ((namedPaths env arguments).map Path.ofText).foldlM loadNamed []
  let outcome := command env tree arguments
  carryOut tree outcome.tree
  report outcome

end SchemaReconcile.Main

open SchemaReconcile in
/-- The program: a deployment or a generation. -/
def main (arguments : List String) : IO UInt32 := do
  match arguments with
  | "deploy" :: rest =>
    Main.run (fun env tree => Command.deploy env tree {} (some Main.refusal)) rest
  | "generate" :: rest => Main.run Command.generate rest
  | _ =>
    IO.eprintln "usage: deploy|generate OPTIONS"
    return 2
