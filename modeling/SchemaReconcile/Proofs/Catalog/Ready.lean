import SchemaReconcile.Compile.Basic
import SchemaReconcile.Proofs.Catalog.Fact

/-!
# Operations that are ready

An operation relies on facts of the snapshot that it is carried out against (`Operation.needs`), and there
must be nothing yet by the names that it gives (`Operation.creations`).  The key and the index that come with
a table are not named by the operation, so they are not among these.  A pending operation never meets
something of its names (`fresh_of_pending`); what it needs is a matter of the operations before it.
-/

namespace SchemaReconcile.Catalog

/-- The type that the type of a column names, if it is not a built-in one. -/
def namedType? : Sql.Statement → Option String
  | .identifier _ :: .fixed _ :: .identifier type :: _ => some type
  | _ => none

/-- The type of a column of an enum type names that type. -/
@[simp] theorem namedType?_enumColumn (schema type : String) (isArray : Bool) :
    namedType? (Sql.enumColumn schema type isArray) = some type := rfl

/-- The enum type that a column needs. -/
def columnNeeds (column : Sql.Column) : List Fact :=
  (namedType? column.type).toList.map .enumType

namespace Operation

/-- The facts that an operation relies on. -/
def needs : Operation → List Fact
  | createSchema _ => []
  | createEnumType .. => [.schema]
  | commentOnType _ type _ => [.schema, .enumType type]
  | createTable _ _ columns _ => .schema :: columns.flatMap columnNeeds
  | addColumn _ table column => .schema :: .table table :: columnNeeds column
  | createIndex _ table _ columns _ _ _ => .schema :: .table table :: columns.map (.column table)
  | addForeignKey _ table _ column refTable refColumn _ =>
    [.schema, .table table, .column table column, .table refTable, .column refTable refColumn]
  | commentOnConstraint _ table constraint _ => [.schema, .table table, .constraint table constraint]
  | createUpdatedTrigger _ table => [.schema, .table table, .column table updatedColumn]
  | blank => []

/-- What an operation creates by a name that it gives. -/
def creations : Operation → List Fact
  | createSchema _ => [.schema]
  | createEnumType _ type _ _ => [.enumType type]
  | createTable _ table columns _ => .table table :: columns.map fun c => .column table c.name
  | addColumn _ table column => [.column table column.name]
  | createIndex _ _ name _ _ _ _ => [.index name]
  | addForeignKey _ table constraint _ _ _ _ => [.constraint table constraint]
  | createUpdatedTrigger _ table => [.trigger table (Naming.triggerName table)]
  | _ => []

/-- An operation is ready in a snapshot: what it relies on is there, nothing that it creates is there yet,
and it creates nothing twice. -/
structure Ready (op : Operation) (s : Snapshot) : Prop where
  needs : ∀ f ∈ op.needs, s.Shows f
  fresh : ∀ f ∈ op.creations, ¬ s.Shows f
  distinct : op.creations.Nodup

/-- A column needs nothing but an enum type. -/
theorem exists_of_mem_columnNeeds {column : Sql.Column} {f : Fact} (h : f ∈ columnNeeds column) :
    ∃ type, f = .enumType type ∧ namedType? column.type = some type := by
  obtain ⟨type, htype, rfl⟩ := List.mem_map.mp h
  exact ⟨type, rfl, Option.mem_toList.mp htype⟩

/-- What an operation relies on is never taken back. -/
theorem lasting_of_mem_needs {op : Operation} {f : Fact} (h : f ∈ op.needs) : f.Lasting := by
  cases op with
  | createTable schema table columns comment =>
    rcases List.mem_cons.mp h with rfl | h
    · exact trivial
    · obtain ⟨column, -, h⟩ := List.mem_flatMap.mp h
      obtain ⟨type, rfl, -⟩ := exists_of_mem_columnNeeds h
      exact trivial
  | addColumn schema table column =>
    rcases List.mem_cons.mp h with rfl | h
    · exact trivial
    · rcases List.mem_cons.mp h with rfl | h
      · exact trivial
      · obtain ⟨type, rfl, -⟩ := exists_of_mem_columnNeeds h
        exact trivial
  | createIndex schema table name columns unique method late =>
    rcases List.mem_cons.mp h with rfl | h
    · exact trivial
    · rcases List.mem_cons.mp h with rfl | h
      · exact trivial
      · obtain ⟨column, -, rfl⟩ := List.mem_map.mp h
        exact trivial
  | _ => revert f; simp [needs, Fact.Lasting]

/-- A column is shown only of a table that is shown. -/
theorem shows_table_of_shows_column {s : Snapshot} {table column : String}
    (h : s.Shows (.column table column)) : s.Shows (.table table) := by
  simp only [Snapshot.Shows, Snapshot.hasColumn, Snapshot.hasTable] at h ⊢
  cases hcolumns : s.columns? table with
  | none => simp [hcolumns] at h
  | some columns => rfl

/-- A pending operation creates nothing that is there. -/
theorem fresh_of_pending {op : Operation} {s : Snapshot} (h : op.pending s = true) {f : Fact}
    (hf : f ∈ op.creations) : ¬ s.Shows f := by
  have hfirst : ∀ g ∈ op.wants.head?, ¬ s.Shows g := pending_iff.mp h
  cases op with
  | createTable schema table columns comment =>
    have htable : ¬ s.Shows (.table table) := hfirst _ rfl
    rcases List.mem_cons.mp hf with rfl | hf
    · exact htable
    · obtain ⟨c, -, rfl⟩ := List.mem_map.mp hf
      exact fun hcolumn => htable (shows_table_of_shows_column hcolumn)
  | commentOnType => cases hf
  | commentOnConstraint => cases hf
  | blank => cases hf
  | _ =>
    rw [List.mem_singleton.mp hf]
    exact hfirst _ rfl

end Operation

end SchemaReconcile.Catalog
