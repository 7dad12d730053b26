import SchemaReconcile.Catalog.Snapshot
import SchemaReconcile.Sql.Definition

/-!
# Operations

An operation is one step of a reconciliation.  It has statements, which carry it out in a database, and an
effect on a snapshot, which predicts what they do.  It is pending in a snapshot that does not show its
effect yet, and it conflicts with a snapshot where its enum type has other labels.
-/

namespace SchemaReconcile.Catalog

/-- The phases of a reconciliation. -/
inductive Phase where
  | types
  | tables
  | deferred
  deriving DecidableEq, Repr, Inhabited

namespace Phase

/-- The phases in order. -/
def all : List Phase := [types, tables, deferred]

/-- The word of a phase. -/
def name : Phase → String
  | types => "enums"
  | tables => "structure"
  | deferred => "deferred"

end Phase

/-- One step of a reconciliation. -/
inductive Operation where
  | createSchema (schema : String)
  | createEnumType (schema type : String) (labels : List String) (enumeration : String)
  | commentOnType (schema type comment : String)
  | createTable (schema table : String) (columns : List Sql.Column) (comment : Option String)
  | addColumn (schema table : String) (column : Sql.Column)
  | createIndex (schema table name : String) (columns : List String) (unique : Bool)
      (method : Option String) (late : Bool)
  | addForeignKey (schema table constraint column refTable refColumn onDelete : String)
  | commentOnConstraint (schema table constraint comment : String)
  | createUpdatedTrigger (schema table : String)
  /-- A step that says nothing of what it does; it cannot be carried out. -/
  | blank
  deriving DecidableEq, Repr, Inhabited

/-- Why the statements of an operation cannot be had. -/
inductive StatementFault where
  | deleteAction (action : String)
  | indexMethod (name : Naming.UnsafeName)
  /-- The operation has no statements. -/
  | blank
  /-- A literal holds the character that no literal can. -/
  | nulCharacter
  deriving DecidableEq, Repr

/-- The wording of a fault. -/
def StatementFault.message : StatementFault → String
  | deleteAction action => Sql.actionMessage action
  | indexMethod name => name.message
  | blank => ""
  | nulCharacter => Sql.nulMessage

namespace Operation

/-- The word of a kind of operation. -/
def kind : Operation → String
  | createSchema .. => "CreateSchema"
  | createEnumType .. => "CreateEnumType"
  | commentOnType .. => "CommentOnType"
  | createTable .. => "CreateTable"
  | addColumn .. => "AddColumn"
  | createIndex .. => "CreateIndex"
  | addForeignKey .. => "AddForeignKey"
  | commentOnConstraint .. => "CommentOnConstraint"
  | createUpdatedTrigger .. => "CreateUpdatedAtTrigger"
  | blank => "Operation"

/-- The phase in which an operation is carried out. -/
def phase : Operation → Phase
  | createSchema .. => .types
  | createEnumType .. => .types
  | commentOnType .. => .types
  | createIndex _ _ _ _ _ _ late => if late then .deferred else .tables
  | commentOnConstraint .. => .deferred
  | _ => .tables

/-- A short description of an operation. -/
def describe : Operation → String
  | createSchema schema => "create schema " ++ schema
  | createEnumType _ type _ enumeration => "create enum type " ++ type ++ " for " ++ enumeration
  | commentOnType _ type _ => "comment on type " ++ type
  | createTable _ table columns _ =>
    "create table " ++ table ++ " (" ++ toString columns.length ++ " columns)"
  | addColumn _ table column => "add column " ++ table ++ "." ++ column.name
  | createIndex _ table name columns unique _ _ =>
    "create " ++ (if unique then "unique index " else "index ") ++ name ++ " on " ++ table ++ " (" ++
      ", ".intercalate columns ++ ")"
  | addForeignKey _ table constraint column refTable _ _ =>
    "add foreign key " ++ constraint ++ " (" ++ table ++ "." ++ column ++ " -> " ++ refTable ++ ")"
  | commentOnConstraint _ _ constraint _ => "comment on constraint " ++ constraint
  | createUpdatedTrigger _ table => "create updated_at trigger on " ++ table
  | blank => "Operation"

/-! ## Statements -/

/-- A comment if there is one and it is not empty. -/
def comments (comment : Option String) (statement : String → Sql.Statement) : List Sql.Statement :=
  match comment with
  | none => []
  | some c => if c.isEmpty then [] else [statement c]

/-- The statement that comments on a column of a table. -/
def columnComments (schema table : String) (column : Sql.Column) : List Sql.Statement :=
  comments column.comment (Sql.commentOnColumn schema table column.name)

/-- The statements that carry an operation out. -/
def statements : Operation → Except StatementFault (List Sql.Statement)
  | createSchema schema => .ok [Sql.createSchema schema]
  | createEnumType schema type labels _ => .ok [Sql.createEnum schema type labels]
  | commentOnType schema type comment => .ok [Sql.commentOnType schema type comment]
  | createTable schema table columns comment =>
    .ok (Sql.createTable schema table columns ::
      comments comment (Sql.commentOnTable schema table) ++
        columns.flatMap (columnComments schema table))
  | addColumn schema table column =>
    .ok (Sql.addColumn schema table column :: columnComments schema table column)
  | createIndex schema table name columns unique method _ =>
    let name := if name.isEmpty then Naming.indexName table columns (Naming.indexLead unique) else name
    match Sql.createIndex schema table columns name unique method with
    | .ok s => .ok [s]
    | .error e => .error (.indexMethod e)
  | addForeignKey schema table constraint column refTable refColumn onDelete =>
    match Sql.addForeignKey? schema table constraint column refTable refColumn onDelete with
    | some s => .ok [s]
    | none => .error (.deleteAction onDelete)
  | commentOnConstraint schema table constraint comment =>
    .ok [Sql.commentOnConstraint schema table constraint comment]
  | createUpdatedTrigger schema table => .ok (Sql.updatedAt schema table)
  | blank => .error .blank

/-- The text of a statement. -/
def renderStatement (s : Sql.Statement) : Except StatementFault String :=
  match Sql.render? s with
  | some text => .ok text
  | none => .error .nulCharacter

/-- The texts of the statements of an operation. -/
def render (op : Operation) : Except StatementFault (List String) := do
  let statements ← op.statements
  statements.mapM renderStatement

/-! ## Effects -/

/-- The snapshot after an operation. -/
def apply (op : Operation) (s : Snapshot) : Snapshot :=
  match op with
  | createSchema _ => { s with schemaExists := true }
  | createEnumType _ type labels _ => { s with enums := put type labels s.enums }
  | commentOnType _ type comment => { s with typeComments := put type (some comment) s.typeComments }
  | createTable _ table columns _ =>
    let s := { s with tables := put table (columns.map (·.name)) s.tables }
    if (Sql.keyColumns columns).isEmpty then s
    else
      let key := Naming.primaryKeyName table
      { s with constraints := putNew (table, key) none s.constraints,
               indexes := addMember key s.indexes }
  | addColumn _ table column =>
    { s with tables := alter table [] (fun columns => columns ++ [column.name]) s.tables }
  | createIndex _ _ name _ _ _ _ => { s with indexes := addMember name s.indexes }
  | addForeignKey _ table constraint _ _ _ _ =>
    { s with constraints := putNew (table, constraint) none s.constraints }
  | commentOnConstraint _ table constraint comment =>
    { s with constraints := put (table, constraint) (some comment) s.constraints }
  | createUpdatedTrigger _ table =>
    { s with triggers := addMember (table, Naming.triggerName table) s.triggers }
  | blank => s

/-- The snapshot after operations in order. -/
def applyAll (ops : List Operation) (s : Snapshot) : Snapshot :=
  ops.foldl (fun s op => op.apply s) s

/-- Whether a snapshot does not show the effect of an operation yet. -/
def pending (op : Operation) (s : Snapshot) : Bool :=
  match op with
  | createSchema _ => !s.schemaExists
  | createEnumType _ type _ _ => (s.labels? type).isNone
  | commentOnType _ type comment => s.typeComment? type != some comment
  | createTable _ table _ _ => !s.hasTable table
  | addColumn _ table column => !s.hasColumn table column.name
  | createIndex _ _ name _ _ _ _ => !s.hasIndex name
  | addForeignKey _ table constraint _ _ _ _ => !s.hasConstraint table constraint
  | commentOnConstraint _ table constraint comment =>
    s.constraintComment? table constraint != some comment
  | createUpdatedTrigger _ table => !s.hasTrigger table (Naming.triggerName table)
  | blank => true

/-- The labels that an enum type has in place of those that an operation would give it. -/
def conflict? (op : Operation) (s : Snapshot) : Option (List String) :=
  match op with
  | createEnumType _ type labels _ => (s.labels? type).filter fun live => live != labels
  | _ => none

end Operation

end SchemaReconcile.Catalog
