import SchemaReconcile.Command.Deploy

/-!
# The generate command

The generate command writes the artifacts of a schema file.
-/

namespace SchemaReconcile.Command

open Settings (Environment)

/-- The options of the generate command. -/
def generateOptions : List Option_ :=
  [ { names := ["--schema"], takes := .text, required := true },
    { names := ["--output"], takes := .text },
    { names := ["--db-schema"], takes := .text },
    { names := ["--keep-models-dir"], takes := .nothing },
    { names := ["--verbose", "-v"], takes := .nothing } ]

/-- Where and how artifacts are generated; an empty directory stands for the one of the settings. -/
def artifactTarget (d : Settings.ArtifactDefaults) (output : String) (schema : String)
    (fresh : Option Bool) : Artifact.Target where
  output := .ofText (if output.isEmpty then d.outputDirectory else output)
  schema
  fresh := fresh.getD d.fresh

/-- The target of the settings and the arguments. -/
def targetOf (d : Settings.Defaults) (given : Given) : Artifact.Target :=
  artifactTarget d.artifacts ((given.text? "--output").getD d.artifacts.outputDirectory)
    ((given.text? "--db-schema").getD d.sync.schema)
    (if given.has "--keep-models-dir" then some false else none)

/-- The lines about a generation. -/
def generatedLines (r : Artifact.Result) : List String :=
  ("✅ Generated " ++ toString r.files.length ++ " files in " ++ r.output.text) ::
    r.files.map fun p => "   " ++ p.text

/-- The generate command. -/
def generate (env : Environment) (tree : File.Tree) (arguments : List String) : Outcome :=
  match Settings.Defaults.ofEnvironment env with
  | .error fault => { exit := .escaped (.settings fault), tree }
  | .ok d =>
    match readArguments generateOptions arguments with
    | .error r => unread r tree
    | .ok given =>
      let reported := [Family.pipeline, .system]
      match modelOfFile tree ((given.text? "--schema").getD "") with
      | .error fault => refused reported fault tree
      | .ok m =>
        match Artifact.generate (targetOf d given) m tree with
        | (tree, .error fault) => refused reported (.generate fault) tree
        | (tree, .ok r) => { exit := .code 0, lines := generatedLines r, tree }

end SchemaReconcile.Command
