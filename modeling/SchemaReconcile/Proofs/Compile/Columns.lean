import SchemaReconcile.Plan.Agenda
import SchemaReconcile.Proofs.Compile.Entities

/-!
# Columns of a table

The columns of a table are those of the fields and then the timestamp columns that no field takes, so their
names are different when those of the fields are (`nodup_columns`).  The only named type of a column is
that of an enumeration.
-/

namespace SchemaReconcile

namespace CompiledEntity

variable {c : CompiledEntity} {timestamps : Bool}

/-- The names of the timestamp columns that no field takes. -/
def freeTimestamps (c : CompiledEntity) : List String :=
  [createdColumn, updatedColumn].filter fun name => !c.fieldColumns.contains name

/-- The names of the columns of a table: those of the fields, then the timestamps. -/
theorem names_columns (c : CompiledEntity) (timestamps : Bool) :
    (c.columns timestamps).map (·.name) =
      c.fieldColumns ++ if timestamps then c.freeTimestamps else [] := by
  have hfields : (c.fields.map CompiledField.toColumn).map (·.name) = c.fieldColumns := by
    rw [List.map_map]
    rfl
  have htimes : c.timestampColumns.map (·.name) = c.freeTimestamps := by
    rw [timestampColumns, List.map_map]
    exact List.map_id _
  rw [columns, List.map_append, hfields]
  cases timestamps with
  | true => rw [if_pos rfl, if_pos rfl, htimes]
  | false => rfl

/-- The names of the columns of a table are different. -/
theorem nodup_columns (timestamps : Bool) (h : c.fieldColumns.Nodup) :
    ((c.columns timestamps).map (·.name)).Nodup := by
  rw [names_columns]
  cases timestamps with
  | false => simpa using h
  | true =>
    rw [if_pos rfl, List.nodup_append']
    refine ⟨h, List.Nodup.filter _ (by decide), ?_⟩
    intro name hfield hfree
    have := (List.mem_filter.mp hfree).2
    simp [hfield] at this

/-- The column of a field is a column of the table. -/
theorem exists_column_of_field (timestamps : Bool) {name : String} (h : name ∈ c.fieldColumns) :
    ∃ column ∈ c.columns timestamps, column.name = name := by
  have hmem : name ∈ (c.columns timestamps).map (·.name) := by
    rw [names_columns]
    exact List.mem_append_left _ h
  exact List.mem_map.mp hmem

/-- A table whose trigger keeps the time of the last update has a column for it. -/
theorem exists_updatedColumn (h : Plan.keepsUpdated c timestamps = true) :
    ∃ column ∈ c.columns timestamps, column.name = updatedColumn := by
  obtain ⟨rfl, hfree⟩ := Bool.and_eq_true_iff.mp h
  have hmem : updatedColumn ∈ (c.columns true).map (·.name) := by
    rw [names_columns, if_pos rfl]
    exact List.mem_append_right _ (List.mem_filter.mpr ⟨by simp, hfree⟩)
  exact List.mem_map.mp hmem

/-- Timestamps are no key columns. -/
theorem keyColumns_columns (c : CompiledEntity) (timestamps : Bool) :
    Sql.keyColumns (c.columns timestamps) = (c.fields.filter CompiledField.isPrimaryKey).map (·.column) := by
  have htimes : c.timestampColumns.filter (·.primaryKey) = [] := by
    rw [List.filter_eq_nil_iff]
    intro column hcolumn
    obtain ⟨name, -, rfl⟩ := List.mem_map.mp hcolumn
    exact Bool.false_ne_true
  have hwanted : (if timestamps then c.timestampColumns else []).filter (·.primaryKey) = [] := by
    cases timestamps with
    | true => exact htimes
    | false => rfl
  rw [Sql.keyColumns, columns, List.filter_append, hwanted, List.append_nil, List.filter_map, List.map_map]
  rfl

end CompiledEntity

/-- The key columns of an entity are those of its primary keys. -/
theorem Entity.keyColumns_eq {e : Entity} {target : CompileTarget} {c : CompiledEntity}
    (hc : e.compile target = .ok c) (timestamps : Bool) :
    Sql.keyColumns (c.columns timestamps) = e.primaryKeys.map EntityField.columnName := by
  rw [CompiledEntity.keyColumns_columns, Entity.primaryKeys, ← Entity.map_declared hc, List.filter_map, List.map_map]
  exact List.map_congr_left fun g hg => Entity.column_eq hc (List.mem_of_mem_filter hg)

/-- A column of an entity that compiles has the type of a scalar kind, or that of an enumeration of the
target. -/
theorem Entity.type_of_mem_columns {e : Entity} {target : CompileTarget} {c : CompiledEntity}
    (hc : e.compile target = .ok c) {timestamps : Bool} {column : Sql.Column}
    (hcolumn : column ∈ c.columns timestamps) :
    (∃ kind : FieldKind, column.type = [.fixed kind.storage]) ∨ ∃ name ∈ target.enums, ∃ isArray,
      column.type = Sql.enumColumn target.schema (Naming.enumTypeOf target.schema name) isArray := by
  rcases List.mem_append.mp hcolumn with hcolumn | hcolumn
  · obtain ⟨g, hg, rfl⟩ := List.mem_map.mp hcolumn
    obtain ⟨-, -, -, hfields⟩ := Entity.compile_ok hc
    obtain ⟨f, -, hfg⟩ := exists_left_of_forall₂ hfields hg
    obtain ⟨-, -, ⟨name, -, hname, htype⟩ | ⟨kind, htype⟩⟩ := Entity.compileField_ok hfg
    · exact .inr ⟨name, hname, g.declared.isArray, by rw [CompiledField.toColumn, htype]⟩
    · exact .inl ⟨kind, by rw [CompiledField.toColumn, htype]⟩
  · split at hcolumn
    · obtain ⟨name, -, rfl⟩ := List.mem_map.mp hcolumn
      exact .inl ⟨.date, rfl⟩
    · cases hcolumn

end SchemaReconcile
