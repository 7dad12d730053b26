import SchemaReconcile.Extract.Entities
import SchemaReconcile.Proofs.Results

/-!
# Names in the database held apart

An extracted model has a table of its own for each entity and a column of its own for each stored field of
an entity, all with safe names.  The names are read off an entity and a field without the check
(`Entity.tableName`, `EntityField.columnName`), and the check is what makes them safe and different.
-/

namespace SchemaReconcile

/-- The name of the table of an entity, whether it is safe or not. -/
def Entity.tableName (e : Entity) : String := Naming.snakeCase e.name

/-- The name of the column of a field, whether it is safe or not. -/
def EntityField.columnName (f : EntityField) : String := Naming.snakeCase f.storedName

/-- A field is a reference when it refers to an entity. -/
theorem EntityField.isReference_iff (f : EntityField) :
    f.isReference = true ↔ ∃ target, f.type = .reference target := by
  unfold isReference
  cases f.type <;> simp [FieldType.reference?]

/-- A name passes when it is safe. -/
theorem Naming.safe_eq_ok {role name result : String} :
    Naming.safe role name = .ok result ↔ Naming.isSafe name = true ∧ result = name := by
  unfold Naming.safe
  cases Naming.isSafe name with
  | true => simp [eq_comm]
  | false => simp

/-- The column of a field is there when its name is safe. -/
theorem EntityField.column_eq_ok {f : EntityField} {column : String} :
    f.column = .ok column ↔ Naming.isSafe f.columnName = true ∧ column = f.columnName :=
  Naming.safe_eq_ok

/-- The table of an entity is there when its name is safe. -/
theorem Entity.tableName_eq_ok {e : Entity} {table : String} :
    Naming.tableName e.name = .ok table ↔ Naming.isSafe e.tableName = true ∧ table = e.tableName :=
  Naming.safe_eq_ok

/-- A key is not found among entries when it differs from the key of each. -/
theorem lookup_cons_eq_none_iff {key k value : String} {entries : List (String × String)} :
    ((k, value) :: entries).lookup key = none ↔ key ≠ k ∧ entries.lookup key = none := by
  rw [List.lookup_cons]
  cases hk : key == k with
  | true => simp [beq_iff_eq.mp hk]
  | false => simp [beq_eq_false_iff_ne.mp hk]

/-- A field passes the check of columns when its column is safe and not taken; then it is taken for the
rest. -/
theorem checkColumns_cons_eq_ok_iff {owner : String} {taken : List (String × String)} {f : EntityField}
    {rest : List EntityField} :
    checkColumns owner taken (f :: rest) = .ok () ↔
      (Naming.isSafe f.columnName = true ∧ taken.lookup f.columnName = none) ∧
        checkColumns owner ((f.columnName, f.name) :: taken) rest = .ok () := by
  rw [checkColumns]
  cases hcolumn : f.column with
  | error u =>
    have hnotSafe : ¬ Naming.isSafe f.columnName = true := fun hsafe => by
      rw [EntityField.column_eq_ok.mpr ⟨hsafe, rfl⟩] at hcolumn
      cases hcolumn
    simp [hnotSafe]
  | ok column =>
    obtain ⟨hsafe, rfl⟩ := EntityField.column_eq_ok.mp hcolumn
    cases hfresh : taken.lookup f.columnName with
    | some first => simp [hfresh]
    | none => simp [hfresh, hsafe]

/-- Fields pass the check of columns when these are safe and different, and none was taken. -/
theorem checkColumns_eq_ok_iff {owner : String} {taken : List (String × String)}
    {fields : List EntityField} :
    checkColumns owner taken fields = .ok () ↔
      (fields.map EntityField.columnName).Nodup ∧
        ∀ f ∈ fields, Naming.isSafe f.columnName = true ∧ taken.lookup f.columnName = none := by
  induction fields generalizing taken with
  | nil => simp [checkColumns]
  | cons f rest ih =>
    rw [checkColumns_cons_eq_ok_iff, ih, List.map_cons, List.nodup_cons, List.forall_mem_cons]
    simp only [lookup_cons_eq_none_iff]
    -- the column in front is taken for the rest, which keeps it apart from theirs
    grind

/-- The columns of the stored fields of an entity are safe and different. -/
structure Entity.ColumnsApart (e : Entity) : Prop where
  nodup : (e.fields.map EntityField.columnName).Nodup
  safe : ∀ f ∈ e.fields, Naming.isSafe f.columnName = true

/-- The stored fields of an entity pass the check of columns when these are apart. -/
theorem Entity.columnsApart_iff {e : Entity} :
    e.ColumnsApart ↔ checkColumns e.name [] e.fields = .ok () := by
  rw [checkColumns_eq_ok_iff]
  constructor
  · exact fun h => ⟨h.nodup, fun f hf => ⟨h.safe f hf, rfl⟩⟩
  · exact fun h => ⟨h.1, fun f hf => (h.2 f hf).1⟩

/-- An entity passes when its table is safe and not taken and its columns are apart; then its table is taken
for the rest. -/
theorem checkStorageNames_cons_eq_ok_iff {taken : List (String × String)} {e : Entity}
    {rest : List Entity} :
    checkStorageNames taken (e :: rest) = .ok () ↔
      (Naming.isSafe e.tableName = true ∧ taken.lookup e.tableName = none ∧ e.ColumnsApart) ∧
        checkStorageNames ((e.tableName, e.name) :: taken) rest = .ok () := by
  rw [checkStorageNames]
  cases htable : Naming.tableName e.name with
  | error u =>
    have hnotSafe : ¬ Naming.isSafe e.tableName = true := fun hsafe => by
      rw [Entity.tableName_eq_ok.mpr ⟨hsafe, rfl⟩] at htable
      cases htable
    simp [hnotSafe]
  | ok table =>
    obtain ⟨hsafe, rfl⟩ := Entity.tableName_eq_ok.mp htable
    cases hfresh : taken.lookup e.tableName with
    | some first => simp [hfresh]
    | none =>
      simp only [hfresh, hsafe, true_and, Entity.columnsApart_iff]
      exact bind_eq_ok.trans ⟨fun ⟨_, h⟩ => h, fun h => ⟨(), h⟩⟩

/-- Entities pass when their tables are safe and different, none was taken, and their columns are apart. -/
theorem checkStorageNames_eq_ok_iff {taken : List (String × String)} {entities : List Entity} :
    checkStorageNames taken entities = .ok () ↔
      (entities.map Entity.tableName).Nodup ∧
        ∀ e ∈ entities, Naming.isSafe e.tableName = true ∧ taken.lookup e.tableName = none ∧
          e.ColumnsApart := by
  induction entities generalizing taken with
  | nil => simp [checkStorageNames]
  | cons e rest ih =>
    rw [checkStorageNames_cons_eq_ok_iff, ih, List.map_cons, List.nodup_cons, List.forall_mem_cons]
    simp only [lookup_cons_eq_none_iff]
    grind

end SchemaReconcile
