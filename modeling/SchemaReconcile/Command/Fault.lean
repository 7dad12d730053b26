import SchemaReconcile.Artifact.Generate
import SchemaReconcile.Catalog.Session
import SchemaReconcile.Command.Arguments
import SchemaReconcile.Document.File
import SchemaReconcile.Extract.Basic

/-!
# Faults of commands

Everything that can end a command early, with the family that it belongs to.  A command reports the faults
of some families in its own words; a fault of another family escapes from it.
-/

namespace SchemaReconcile.Command

/-- The families of faults. -/
inductive Family where
  /-- Faults of documents, models, plans and artifacts. -/
  | pipeline
  /-- Faults of files. -/
  | system
  /-- Values that something cannot be made from. -/
  | value
  /-- Faults of the database. -/
  | database
  | other
  deriving DecidableEq, Repr, Inhabited

/-- Why a command ends early. -/
inductive Fault where
  | settings (fault : Text.IntegerFault)
  | options (faults : List Shape.Fault)
  | document (fault : SchemaFileFault)
  | extract (fault : ExtractFault)
  /-- Settings that do not say how to connect. -/
  | notConfigured
  | session (fault : Catalog.SessionFault)
  | generate (fault : Artifact.GenerateFault)
  deriving DecidableEq, Repr

/-- The number of faults of a record, in words. -/
def faultCount (n : Nat) (record : String) : String :=
  toString n ++ (if n == 1 then " validation error for " else " validation errors for ") ++ record

/-- The family of a fault of YAML text. -/
def yamlFamily : YamlFault → Family
  | .load .malformed => .pipeline
  | .load (.codePoint n) => if n < Nat.pow 2 31 then .value else .other
  | .load .emptyNumber => .other
  | .load .largePlace => .other
  | .load (.truthValue _) => .other
  | .load .momentForm => .other
  | .load .notText => .other
  | .load _ => .value
  | .document .notIterable => .other
  | _ => .pipeline

/-- The family of a fault of a schema file. -/
def documentFamily : SchemaFileFault → Family
  | .file fault => if fault.kind = .nulCharacter then .value else .system
  | .encoding _ => .value
  | .schemaText (.integer _) => .value
  | .yaml fault => yamlFamily fault
  | _ => .pipeline

/-- The family of a fault of the extraction. -/
def extractFamily : ExtractFault → Family
  | .unsafeName _ => .value
  | .directive _ _ (.unwritable _ _) => .value
  | .indexGroupNested => .other
  | _ => .pipeline

/-- The family of a fault of the compilation. -/
def compileFamily : CompileFault → Family
  | .unsafeName _ => .value
  | .undefinedEnum _ _ _ => .pipeline

/-- The family of a fault of a plan. -/
def planFamily : Plan.Fault → Family
  | .compile fault => compileFamily fault
  | .unknownField _ _ => .other
  | .unknownEntity _ => .other
  | _ => .pipeline

/-- The family of a fault of a session. -/
def sessionFamily : Catalog.SessionFault → Family
  | .plan fault => planFamily fault
  | .statement .nulCharacter => .database
  | .statement .blank => .other
  | .statement _ => .value
  | .failure f =>
    match f.kind with
    | .database => .database
    | .value => .value
    | .pipeline => .pipeline
    | .interrupt => .other

/-- The family of a fault of a generation. -/
def generateFamily : Artifact.GenerateFault → Family
  | .prepare _ cause => if cause.kind = .nulCharacter then .value else .pipeline
  | .write _ _ _ => .pipeline
  | .manifest (.compile fault) => compileFamily fault
  | .manifest _ => .other

/-- The family of a fault. -/
def Fault.family : Fault → Family
  | settings _ => .value
  | options _ => .value
  | document fault => documentFamily fault
  | extract fault => extractFamily fault
  | notConfigured => .value
  | session fault => sessionFamily fault
  | generate fault => generateFamily fault

/-- The wording of a fault of a schema file with its cause, where the cause has one. -/
def documentMessage (fault : SchemaFileFault) : String :=
  match fault with
  | .yaml (.document (.shape faults)) =>
    fault.message ++ ": " ++ faultCount faults.length "SchemaDocument"
  | fault => fault.message

/-- The wording of a fault. -/
def Fault.message : Fault → String
  | settings fault => fault.message
  | options faults => faultCount faults.length "SyncOptions"
  | document fault => documentMessage fault
  | extract fault => fault.message
  | notConfigured => Settings.notConfiguredMessage
  | session fault => fault.message
  | generate fault => fault.fullMessage

/-- How a command ends. -/
inductive Exit where
  | code (n : Nat)
  /-- A fault that the command does not report. -/
  | escaped (fault : Fault)
  deriving DecidableEq, Repr

/-- The outcome of a command: how it ends, the lines that it prints, the failures that it reports, and what
it told the server. -/
structure Outcome where
  exit : Exit
  lines : List String := []
  failures : List String := []
  events : List Catalog.Event := []
  tree : File.Tree := []

/-- The mark of a failure. -/
def failureMark : String := "❌ "

/-- The outcome of a command that ends with a fault of its input. -/
def refused (reported : List Family) (fault : Fault) (tree : File.Tree) : Outcome :=
  if reported.contains fault.family then
    { exit := .code 1, failures := [failureMark ++ fault.message], tree }
  else { exit := .escaped fault, tree }

/-- The outcome of a command whose arguments do not fit, or that is asked for help. -/
def unread (refusal : Refusal) (tree : File.Tree) : Outcome :=
  { exit := .code (match refusal with | .help => 0 | .usage => 2), tree }

end SchemaReconcile.Command
