import SchemaReconcile.Document.Yaml
import SchemaReconcile.File.Tree

/-!
# Schema files

A schema file is text in UTF-8, where every kind of line end counts as a line feed.  The suffix of its name
says in which language it is written.
-/

namespace SchemaReconcile

/-- The languages of schema files. -/
inductive SchemaLanguage where
  | schemaText
  | yaml
  deriving DecidableEq, Repr, Inhabited

/-- The suffixes of schema files with their languages. -/
def schemaSuffixes : List (String × SchemaLanguage) :=
  [(".graphql", .schemaText), (".gql", .schemaText), (".yaml", .yaml), (".yml", .yaml)]

/-- The suffix of a path in lower case. -/
def suffixOfFile (path : File.Path) : String :=
  String.ofList (Text.lower path.suffix.toList)

/-- A text in which every line end is a line feed. -/
def plainLineEnds : List Char → List Char
  | '\r' :: '\n' :: rest => '\n' :: plainLineEnds rest
  | '\r' :: rest => '\n' :: plainLineEnds rest
  | c :: rest => c :: plainLineEnds rest
  | [] => []

/-- Why a schema file is refused. -/
inductive SchemaFileFault where
  | file (fault : File.Fault)
  | encoding (fault : Text.Utf8Fault)
  | suffix (text : String)
  | schemaText (fault : SchemaTextFault)
  | yaml (fault : YamlFault)
  deriving DecidableEq, Repr

/-- The wording of a suffix that no language has. -/
def suffixMessage (suffix : String) : String :=
  "Schema: unsupported schema file type " ++ Text.quoted suffix ++ " (expected one of " ++
    ", ".intercalate (schemaSuffixes.map (·.1)) ++ ")"

/-- The wording of a refusal, without the words for what is wrong in the text. -/
def SchemaFileFault.message : SchemaFileFault → String
  | file fault => fault.message
  | encoding fault => fault.message
  | suffix text => suffixMessage text
  | schemaText fault => fault.message
  | yaml fault => fault.message

/-- The text of a schema file. -/
def readSchemaFile (tree : File.Tree) (path : File.Path) : Except SchemaFileFault String := do
  let bytes ← (tree.read path).mapError .file
  let cs ← (Text.decodeUtf8 bytes).mapError .encoding
  return String.ofList (plainLineEnds cs)

/-- The document of a schema file. -/
def Document.ofFile (tree : File.Tree) (path : File.Path) : Except SchemaFileFault Document := do
  let text ← readSchemaFile tree path
  match schemaSuffixes.lookup (suffixOfFile path) with
  | some .schemaText => (Document.ofSchemaText text).mapError .schemaText
  | some .yaml => (Document.ofYamlText text).mapError .yaml
  | none => throw (.suffix (suffixOfFile path))

end SchemaReconcile
