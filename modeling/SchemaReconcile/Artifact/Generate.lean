import SchemaReconcile.Artifact.Manifest

/-!
# Generation

A manifest is written to a file tree file by file.  The directory of the models is made ready first, before
the manifest is looked at; the first fault ends the generation, and what was written before stays.
-/

namespace SchemaReconcile.Artifact

open File (Path Tree)

/-- Why a generation ends early. -/
inductive GenerateFault where
  | prepare (path : Path) (cause : File.Fault)
  | write (artifact : String) (path : Path) (cause : File.Fault)
  | manifest (fault : ManifestFault)
  deriving DecidableEq, Repr

/-- The wording of a fault, without its cause. -/
def GenerateFault.message : GenerateFault → String
  | prepare path cause =>
    if cause.kind = .nulCharacter then cause.message else "Failed to prepare " ++ path.text
  | write artifact path _ => "When rendering " ++ artifact ++ " to " ++ path.text
  | manifest fault => fault.message

/-- The wording of a fault with its cause. -/
def GenerateFault.fullMessage (f : GenerateFault) : String :=
  match f with
  | prepare _ cause =>
    if cause.kind = .nulCharacter then f.message else f.message ++ ": " ++ cause.message
  | write _ _ cause => f.message ++ ": " ++ cause.message
  | manifest _ => f.message

/-- What a generation produced. -/
structure Result where
  output : Path
  files : List Path
  models : Bool
  enums : Bool
  interfaces : Bool
  deriving DecidableEq, Repr, Inhabited

/-- The result of a generation as a record. -/
def Result.toValue (r : Result) : Value :=
  .object [("output_dir", .text r.output.text), ("files", .texts (r.files.map Path.text)),
    ("models", .bool r.models), ("enums", .bool r.enums), ("interfaces", .bool r.interfaces)]

/-- A tree with the directory of the models ready: it is there, and empty if that is wanted. -/
def prepare (t : Target) (tree : Tree) : Tree × Option GenerateFault :=
  let path := t.models
  let emptied := if t.fresh then tree.removeDirectory path else .ok tree
  match emptied with
  | .error cause => (tree, some (.prepare path cause))
  | .ok tree =>
    match tree.ensureDirectories path with
    | (tree, some cause) => (tree, some (.prepare path cause))
    | (tree, none) => (tree, none)

/-- A tree with a file written; the directories above it are made. -/
def writeOutput (tree : Tree) (o : Output) : Tree × Option GenerateFault :=
  match tree.ensureDirectories o.path.parent with
  | (tree, some cause) => (tree, some (.write o.artifact o.path cause))
  | (tree, none) =>
    match tree.write o.path o.text.toUTF8.toList with
    | .error cause => (tree, some (.write o.artifact o.path cause))
    | .ok tree => (tree, none)

/-- A tree after the steps of a manifest, with the steps taken and why they ended early. -/
def takeSteps : Tree → List Step → Tree × List Step × Option GenerateFault
  | tree, [] => (tree, [], none)
  | tree, step :: rest =>
    match step.output? with
    | none =>
      let (tree, taken, fault) := takeSteps tree rest
      (tree, step :: taken, fault)
    | some o =>
      match writeOutput tree o with
      | (tree, some fault) => (tree, [], some fault)
      | (tree, none) =>
        let (tree, taken, fault) := takeSteps tree rest
        (tree, step :: taken, fault)

/-- A generation: the tree after it, the steps taken, and why it ended early. -/
structure Run where
  tree : Tree
  steps : List Step
  fault : Option GenerateFault
  deriving Repr

/-- A generation for a model. -/
def run (t : Target) (m : Model) (tree : Tree) : Run :=
  match prepare t tree with
  | (tree, some fault) => ⟨tree, [], some fault⟩
  | (tree, none) =>
    let wanted := manifest t m
    match takeSteps tree wanted.done with
    | (tree, taken, some fault) => ⟨tree, taken, some fault⟩
    | (tree, taken, none) => ⟨tree, taken, wanted.fault.map GenerateFault.manifest⟩

/-- The result of a generation that took all steps of a manifest. -/
def resultOf (t : Target) (m : Model) (steps : List Step) : Result where
  output := t.output
  files := (outputs steps).map (·.path)
  models := !m.entities.isEmpty
  enums := !m.enums.isEmpty
  interfaces := !m.jsonShapes.isEmpty

/-- The tree after a generation, and its result. -/
def generate (t : Target) (m : Model) (tree : Tree) : Tree × Except GenerateFault Result :=
  let r := run t m tree
  match r.fault with
  | some fault => (r.tree, .error fault)
  | none => (r.tree, .ok (resultOf t m r.steps))

end SchemaReconcile.Artifact
