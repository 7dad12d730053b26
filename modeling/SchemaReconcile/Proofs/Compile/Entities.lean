import SchemaReconcile.Compile.Basic
import SchemaReconcile.Proofs.Extract.Sound

/-!
# Compiled entities of a sound model

Compiling keeps the fields with their order, and gives each its column (`compile_ok`).  So the lookups on a
compiled entity answer as those on the entity: the column of a field, the field of a foreign key, and the
primary key.  Every entity of a sound model compiles for a target with the enumerations of the model
(`Model.SoundEntity.compiles`).
-/

namespace SchemaReconcile

/-- A field of a type that is there for a target. -/
def EntityField.Storable (f : EntityField) (target : CompileTarget) : Prop :=
  ∀ name, f.type = .enumeration name → name ∈ target.enums

/-- The type of a field that holds an enumeration is that of the enumeration in the target schema; any other
field has the built-in type of a scalar kind. -/
def EntityField.HasType (f : EntityField) (target : CompileTarget) (type : ColumnType) : Prop :=
  (∃ name, f.type = .enumeration name ∧ name ∈ target.enums ∧
      type = .enumType target.schema (Naming.enumTypeOf target.schema name)) ∨
    ∃ kind : FieldKind, type = .builtin kind.storage

namespace Entity

variable {e : Entity} {target : CompileTarget} {c : CompiledEntity}

/-! ## Fields -/

/-- The type of a compiled field. -/
theorem storage_ok {f : EntityField} {owner : String}
    {result : ColumnType × String × Option Codec} (h : f.storage owner target = .ok result) :
    f.HasType target result.1 := by
  unfold EntityField.storage at h
  split at h
  · next name htype =>
    split at h
    · next hname =>
      obtain rfl := Except.ok.inj h
      exact .inl ⟨name, htype, by simpa using hname, rfl⟩
    · cases h
  · obtain rfl := Except.ok.inj h
    exact .inr ⟨.id, rfl⟩
  · obtain rfl := Except.ok.inj h
    unfold scalarStorage
    split
    · exact .inr ⟨.json, rfl⟩
    · exact .inr ⟨.json, rfl⟩
  · next kind _ =>
    obtain rfl := Except.ok.inj h
    unfold scalarStorage
    split
    · exact .inr ⟨.json, rfl⟩
    · exact .inr ⟨kind, rfl⟩

/-- A field has a type in a target that has its enumeration. -/
theorem exists_storage {f : EntityField} (owner : String) (h : f.Storable target) :
    ∃ result, f.storage owner target = .ok result := by
  unfold EntityField.storage
  split
  · next name htype => exact ⟨_, if_pos (by simpa using h name htype)⟩
  · exact ⟨_, rfl⟩
  · exact ⟨_, rfl⟩
  · exact ⟨_, rfl⟩

/-- A name that must be safe is. -/
theorem safely_eq_ok {α : Type} {x : Except Naming.UnsafeName α} {a : α} :
    safely x = .ok a ↔ x = .ok a := by
  cases x <;> simp [safely, Except.mapError]

/-- A compiled field is that of its declared field, with its column. -/
theorem compileField_ok {f : EntityField} {g : CompiledField} (h : e.compileField target f = .ok g) :
    g.declared = f ∧ g.column = f.columnName ∧ f.HasType target g.type := by
  obtain ⟨column, hcolumn, h⟩ := bind_eq_ok.mp h
  obtain ⟨⟨type, host, codec⟩, hstorage, h⟩ := bind_eq_ok.mp h
  obtain rfl := Except.ok.inj h
  exact ⟨rfl, (EntityField.column_eq_ok.mp (safely_eq_ok.mp hcolumn)).2, storage_ok hstorage⟩

/-- A field with a safe column compiles for a target that has its enumeration. -/
theorem exists_compileField {f : EntityField} (hsafe : Naming.isSafe f.columnName = true)
    (hstorable : f.Storable target) : ∃ g, e.compileField target f = .ok g := by
  obtain ⟨⟨type, host, codec⟩, hstorage⟩ := exists_storage e.name hstorable
  have hcolumn : f.column = .ok f.columnName := EntityField.column_eq_ok.mpr ⟨hsafe, rfl⟩
  refine ⟨_, bind_eq_ok.mpr ⟨f.columnName, ?_, bind_eq_ok.mpr ⟨_, hstorage, rfl⟩⟩⟩
  rw [hcolumn]
  rfl

/-! ## Entities -/

/-- A compiled entity has the name, the table, the description and the fields of its entity. -/
theorem compile_ok (h : e.compile target = .ok c) :
    c.name = e.name ∧ c.table = e.tableName ∧ c.description = e.description ∧
      List.Forall₂ (fun f g => e.compileField target f = .ok g) e.fields c.fields := by
  obtain ⟨table, htable, h⟩ := bind_eq_ok.mp h
  obtain ⟨fields, hfields, h⟩ := bind_eq_ok.mp h
  obtain rfl := Except.ok.inj h
  exact ⟨rfl, (tableName_eq_ok.mp (safely_eq_ok.mp htable)).2, rfl, mapM_eq_ok_iff.mp hfields⟩

/-- An entity compiles alike for targets of one schema with the same enumerations, in any order. -/
theorem compile_congr {target' : CompileTarget} (hschema : target.schema = target'.schema)
    (henums : ∀ name, name ∈ target.enums ↔ name ∈ target'.enums) :
    e.compile target = e.compile target' := by
  have hcontains : ∀ name, target.enums.contains name = target'.enums.contains name := fun name => by
    rw [Bool.eq_iff_iff, List.contains_iff_mem, List.contains_iff_mem, henums]
  have hfield : e.compileField target = e.compileField target' := by
    funext f
    simp only [compileField, EntityField.storage, hschema, hcontains]
  simp only [compile, compileFields, hfield]

/-- The fields of a compiled entity are those that were declared. -/
theorem map_declared (h : e.compile target = .ok c) :
    c.fields.map CompiledField.declared = e.fields := by
  obtain ⟨-, -, -, hfields⟩ := compile_ok h
  have := map_eq_map_of_forall₂ (f := id) hfields fun f g hg => (compileField_ok hg).1
  rwa [List.map_id] at this

/-- A compiled field is one that was declared. -/
theorem declared_mem (h : e.compile target = .ok c) {g : CompiledField} (hg : g ∈ c.fields) :
    g.declared ∈ e.fields := by
  rw [← map_declared h]
  exact List.mem_map_of_mem hg

/-- The column of a compiled field is that of the declared one. -/
theorem column_eq (h : e.compile target = .ok c) {g : CompiledField} (hg : g ∈ c.fields) :
    g.column = g.declared.columnName := by
  obtain ⟨-, -, -, hfields⟩ := compile_ok h
  obtain ⟨f, -, hf⟩ := exists_left_of_forall₂ hfields hg
  obtain ⟨hdeclared, hcolumn, -⟩ := compileField_ok hf
  rw [hcolumn, hdeclared]

/-- The columns of the fields of a compiled entity. -/
theorem fieldColumns_eq (h : e.compile target = .ok c) :
    c.fieldColumns = e.fields.map EntityField.columnName := by
  obtain ⟨-, -, -, hfields⟩ := compile_ok h
  exact map_eq_map_of_forall₂ hfields fun f g hg => (compileField_ok hg).2.1

/-- The lookup of a compiled field finds that of the declared one. -/
theorem find?_declared (h : e.compile target = .ok c) (p : EntityField → Bool) :
    e.fields.find? p = (c.fields.find? fun g => p g.declared).map CompiledField.declared := by
  rw [← map_declared h, List.find?_map]
  rfl

/-- The column of a field by its name. -/
theorem column?_eq (h : e.compile target = .ok c) (name : String) :
    c.column? name = (e.field? name).map EntityField.columnName := by
  rw [CompiledEntity.column?, Entity.field?, find?_declared h]
  cases hfind : c.fields.find? fun g => g.declared.name == name with
  | none => rfl
  | some g => simp [column_eq h (List.mem_of_find?_eq_some hfind)]

/-- The primary key of a compiled entity is that of the declared one. -/
theorem primaryKey?_eq (h : e.compile target = .ok c) :
    e.primaryKey? = c.primaryKey?.map CompiledField.declared :=
  find?_declared h EntityField.isPrimaryKey

/-- An entity with one primary key keeps it. -/
theorem exists_primaryKey (hkey : e.primaryKeys.length = 1) (h : e.compile target = .ok c) :
    ∃ g ∈ c.fields, c.primaryKey? = some g := by
  obtain ⟨f, hf⟩ : ∃ f, e.primaryKey? = some f := by
    rw [Entity.primaryKey?, ← Option.isSome_iff_exists, List.find?_isSome]
    obtain ⟨f, hf⟩ := List.length_eq_one_iff.mp hkey
    have hmem : f ∈ e.primaryKeys := by
      rw [hf]
      exact List.mem_singleton_self f
    exact ⟨f, List.mem_filter.mp hmem⟩
  rw [primaryKey?_eq h] at hf
  obtain ⟨g, hg, -⟩ := Option.map_eq_some_iff.mp hf
  exact ⟨g, List.mem_of_find?_eq_some hg, hg⟩

/-- The key column of an entity with one primary key is that of a field. -/
theorem keyColumn_mem (hkey : e.primaryKeys.length = 1) (h : e.compile target = .ok c) :
    c.keyColumn ∈ c.fieldColumns := by
  obtain ⟨g, hg, hkey⟩ := exists_primaryKey hkey h
  rw [CompiledEntity.keyColumn, hkey]
  exact List.mem_map_of_mem hg

/-- The table and the columns of an entity that compiles are safe. -/
theorem safe_of_compile (h : e.compile target = .ok c) :
    Naming.isSafe e.tableName = true ∧ ∀ f ∈ e.fields, Naming.isSafe f.columnName = true := by
  obtain ⟨-, -, -, hfields⟩ := compile_ok h
  obtain ⟨table, htable, -⟩ := bind_eq_ok.mp h
  refine ⟨(tableName_eq_ok.mp (safely_eq_ok.mp htable)).1, fun f hf => ?_⟩
  obtain ⟨g, -, hg⟩ := exists_right_of_forall₂ hfields hf
  obtain ⟨column, hcolumn, -⟩ := bind_eq_ok.mp hg
  exact (EntityField.column_eq_ok.mp (safely_eq_ok.mp hcolumn)).1

end Entity

namespace Model.SoundEntity

variable {m : Model} {e : Entity} {target : CompileTarget} {c : CompiledEntity}

/-- An entity of a sound model compiles. -/
theorem compiles (h : m.SoundEntity e) (target : CompileTarget)
    (htarget : target.enums = m.enums.map (·.name)) :
    ∃ c, e.compile target = .ok c := by
  have hfields : ∀ f ∈ e.fields, ∃ g, e.compileField target f = .ok g := by
    intro f hf
    refine Entity.exists_compileField (h.columns.safe f hf) ?_
    intro name hname
    rw [htarget]
    exact List.mem_map.mpr (h.enumeration f hf name hname)
  choose! g hg using hfields
  refine ⟨_, bind_eq_ok.mpr ⟨e.tableName, ?_, bind_eq_ok.mpr ⟨_, mapM_eq_ok_map hg, rfl⟩⟩⟩
  rw [Entity.tableName_eq_ok.mpr ⟨h.safeTable, rfl⟩]
  rfl

/-- An entity of a sound model has a primary key. -/
theorem exists_primaryKey (h : m.SoundEntity e) (hc : e.compile target = .ok c) :
    ∃ g ∈ c.fields, c.primaryKey? = some g :=
  Entity.exists_primaryKey h.key hc

/-- The columns of an index of an entity of a sound model are all there. -/
theorem exists_indexed_column (h : m.SoundEntity e) (hc : e.compile target = .ok c)
    {spec : IndexSpec} (hspec : spec ∈ e.indexes) {name : String} (hname : name ∈ spec.fields) :
    ∃ column ∈ c.fieldColumns, c.column? name = some column := by
  obtain ⟨f, hf, rfl⟩ := h.indexes spec hspec name hname
  obtain ⟨g, hg⟩ : ∃ g, e.field? f.name = some g := by
    rw [Entity.field?, ← Option.isSome_iff_exists, List.find?_isSome]
    exact ⟨f, hf, by simp⟩
  refine ⟨g.columnName, ?_, by rw [Entity.column?_eq hc, hg]; rfl⟩
  rw [Entity.fieldColumns_eq hc]
  exact List.mem_map.mpr ⟨g, List.mem_of_find?_eq_some hg, rfl⟩

/-- Fields of an entity of a sound model with one column are the same. -/
theorem eq_of_columnName (h : m.SoundEntity e) {f g : EntityField} (hf : f ∈ e.fields)
    (hg : g ∈ e.fields) (hcolumn : f.columnName = g.columnName) : f = g :=
  List.inj_on_of_nodup_map h.columns.nodup hf hg hcolumn

end Model.SoundEntity

/-- The column of a reference field is its foreign key attribute in snake case. -/
theorem EntityField.columnName_of_reference {f : EntityField} {target : String}
    (h : f.type = .reference target) : f.columnName = Naming.snakeCase (keyName f.name) := by
  simp [columnName, storedName, foreignKey?, isReference, h, FieldType.reference?]

/-- A compiled field has what the indexes say about it. -/
theorem Entity.flags_eq {e : Entity} {target : CompileTarget} {f : EntityField} {g : CompiledField}
    (h : e.compileField target f = .ok g) : g.flags = e.indexFlags f.name := by
  obtain ⟨column, -, h⟩ := bind_eq_ok.mp h
  obtain ⟨⟨type, host, codec⟩, -, h⟩ := bind_eq_ok.mp h
  obtain rfl := Except.ok.inj h
  rfl

/-- Where the columns are different, a reference field compiles to the only foreign key with its column. -/
theorem Entity.exists_only_keyField {e : Entity} {target : CompileTarget} {c : CompiledEntity}
    (hc : e.compile target = .ok c) (hcolumns : (e.fields.map EntityField.columnName).Nodup)
    {f : EntityField} (hf : f ∈ e.fields) (hrefers : f.isReference = true) :
    ∃ g, (c.fields.filter fun k => k.column == f.columnName && k.isForeignKey) = [g] ∧
      g.declared = f ∧ g.flags = e.indexFlags f.name := by
  obtain ⟨-, -, -, hfields⟩ := Entity.compile_ok hc
  obtain ⟨g, hg, hfg⟩ := exists_right_of_forall₂ hfields hf
  obtain ⟨hdeclared, hcolumn, -⟩ := Entity.compileField_ok hfg
  have hnodup : (c.fields.map CompiledField.column).Nodup := by
    rw [← CompiledEntity.fieldColumns, Entity.fieldColumns_eq hc]
    exact hcolumns
  refine ⟨g, filter_eq_singleton hnodup.of_map hg fun k hk => ?_, hdeclared, Entity.flags_eq hfg⟩
  rw [Bool.and_eq_true, beq_iff_eq]
  constructor
  · rintro ⟨hkcolumn, -⟩
    exact List.inj_on_of_nodup_map hnodup hk hg (hkcolumn.trans hcolumn.symm)
  · rintro rfl
    exact ⟨hcolumn, by rw [CompiledField.isForeignKey, hdeclared, hrefers]⟩

end SchemaReconcile
