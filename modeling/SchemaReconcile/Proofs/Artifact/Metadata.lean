import SchemaReconcile.Artifact.Manifest
import SchemaReconcile.Proofs.Plan.ForeignKeys

/-!
# Generated metadata and plans

The file of an entity says what its table is, and works this out from the model without a look at a plan.  For a
sound model it always can (`sourceOf_of_sound`): each reference field gives an entry for a foreign key
(`Model.referenceEntry`), each index a record.

A plan has a foreign key for a reference field only where the lookup of the name of the field finds it, so the
entries are those of the plan exactly when this is so for all of them (`entries_perm_iff`).  In everything else the
file and the plan say the same (`metadata_matches`).
-/

namespace SchemaReconcile

/-- The entry for a foreign key: its column, with the table and the column that it refers to. -/
def keyEntry (schema column table key : String) : String × String :=
  (column, schema ++ "." ++ table ++ "(" ++ key ++ ")")

/-- The entry for the foreign key of a reference field. -/
def Model.referenceEntry (m : Model) (schema : String) (f : EntityField) : String × String :=
  let target := f.type.reference?.bind m.entity?
  keyEntry schema f.columnName ((target.map Entity.tableName).getD "")
    (((target.bind Entity.primaryKey?).map EntityField.columnName).getD "")

/-- The column of a field that refers to nothing is its name in snake case. -/
theorem EntityField.columnName_of_isReference_eq_false {f : EntityField} (h : f.isReference = false) :
    f.columnName = Naming.snakeCase f.name := by
  simp [columnName, storedName, foreignKey?, h]

/-- A primary key refers to nothing. -/
theorem EntityField.isReference_of_isPrimaryKey {f : EntityField} (h : f.isPrimaryKey = true) :
    f.isReference = false := by
  have htype : f.type = .scalar .id := by simpa [isPrimaryKey] using h
  rw [isReference, htype]
  rfl

namespace Model.Sound

variable {m : Model} {e : Entity} {f : EntityField}

/-- An entity of a sound model is found by its name. -/
theorem entity?_eq (h : m.Sound) (he : e ∈ m.entities) : m.entity? e.name = some e :=
  find?_of_nodup Entity.name h.entities he

/-- A reference field of a sound model refers to the key of an entity. -/
theorem exists_target (h : m.Sound) (he : e ∈ m.entities) (hf : f ∈ e.fields) (hrefers : f.isReference = true) :
    ∃ t ∈ m.entities, f.type = .reference t.name ∧ ∃ id, t.primaryKeys = [id] ∧ t.primaryKey? = some id := by
  obtain ⟨name, htype⟩ := f.isReference_iff.mp hrefers
  obtain ⟨t, ht, rfl⟩ := (h.entity e he).reference f hf name htype
  obtain ⟨id, hid⟩ := List.length_eq_one_iff.mp (h.entity t ht).key
  refine ⟨t, ht, htype, id, hid, ?_⟩
  rw [Entity.primaryKey?, ← List.head?_filter, ← Entity.primaryKeys, hid]
  rfl

/-- The entry of a reference field is about the table and the key of the entity that it refers to. -/
theorem referenceEntry_eq (h : m.Sound) {t : Entity} (ht : t ∈ m.entities) (htype : f.type = .reference t.name)
    {id : EntityField} (hid : t.primaryKey? = some id) (schema : String) :
    m.referenceEntry schema f = keyEntry schema f.columnName t.tableName id.columnName := by
  rw [referenceEntry, htype]
  simp [FieldType.reference?, h.entity?_eq ht, hid]

end Model.Sound

namespace Artifact

open Catalog (Operation)
open Settings (Options)
open Plan (targetOf indexedColumns declaredIndexName)

variable {options : Options} {m : Model} {e : Entity} {c : CompiledEntity} {target : CompileTarget}

/-! ## What is generated -/

/-- The tables of the entities of a sound model. -/
theorem tablesOf_of_sound (h : m.Sound) :
    tablesOf m = .ok (m.entities.map fun e => (e.name, e.tableName)) := by
  have htables : (m.entities.mapM fun e => do
      let table ← (safely (Naming.tableName e.name)).mapError ManifestFault.compile
      return (e.name, table)) = .ok (m.entities.map fun e => (e.name, e.tableName)) := by
    refine mapM_eq_ok_map fun e he => ?_
    rw [Entity.tableName_eq_ok.mpr ⟨(h.entity e he).safeTable, rfl⟩]
    rfl
  refine bind_eq_ok.mpr ⟨_, htables, congrArg Except.ok (Catalog.ofPairs_of_nodup ?_)⟩
  rw [List.map_map]
  exact h.entities

/-- The table and the key that a reference field of a sound model refers to. -/
theorem keyReference_of_sound (h : m.Sound) (schema : String) (he : e ∈ m.entities) {g : CompiledField}
    (hg : g.declared ∈ e.fields) {name : String} (hname : g.declared.type.reference? = some name) :
    keyReference schema m (m.entities.map fun e => (e.name, e.tableName)) c g name =
      .ok (m.referenceEntry schema g.declared).2 := by
  obtain ⟨t, ht, htype, id, hid, hkey⟩ := h.exists_target he hg (by rw [EntityField.isReference, hname]; rfl)
  obtain rfl : name = t.name := by
    rw [htype] at hname
    exact (Option.some.inj hname).symm
  have hlookup : (m.entities.map fun e => (e.name, e.tableName)).lookup t.name = some t.tableName := by
    refine Catalog.lookup_of_mem ?_ (List.mem_map.mpr ⟨t, ht, rfl⟩)
    intro a ha b hb hab
    obtain ⟨x, hx, rfl⟩ := List.mem_map.mp ha
    obtain ⟨y, hy, rfl⟩ := List.mem_map.mp hb
    rw [List.inj_on_of_nodup_map h.entities hx hy hab]
  have hcolumn : id.columnName = Naming.snakeCase id.name :=
    EntityField.columnName_of_isReference_eq_false
      (EntityField.isReference_of_isPrimaryKey (List.find?_some hkey))
  rw [h.referenceEntry_eq ht htype hkey, keyReference, h.entity?_eq ht, hlookup, hcolumn]
  dsimp only
  rw [hkey]
  rfl

/-- The reference fields of an entity, as they are compiled. -/
theorem map_references (hc : e.compile target = .ok c) {α : Type} (entry : EntityField → α) :
    ((c.fields.filterMap fun g => g.declared.type.reference?.map fun t => (g, t)).map
      fun p => entry p.1.declared) = (e.fields.filter EntityField.isReference).map entry := by
  rw [← Entity.map_declared hc]
  induction c.fields with
  | nil => rfl
  | cons g rest ih =>
    rw [List.filterMap_cons, List.map_cons, List.filter_cons, EntityField.isReference]
    cases g.declared.type.reference? with
    | none => simpa using ih
    | some t => simpa using ih

/-- The entries for the foreign keys of an entity of a sound model are those of its reference fields. -/
theorem foreignKeys_of_sound (h : m.Sound) (schema : String) (he : e ∈ m.entities)
    (hc : e.compile target = .ok c) :
    foreignKeys schema m (m.entities.map fun e => (e.name, e.tableName)) c =
      .ok ((e.fields.filter EntityField.isReference).map (m.referenceEntry schema)) := by
  have hkeys : ∀ p ∈ c.fields.filterMap fun g => g.declared.type.reference?.map fun t => (g, t),
      (do
        let reference ← keyReference schema m (m.entities.map fun e => (e.name, e.tableName)) c p.1 p.2
        return (p.1.column, reference) : Except ManifestFault (String × String)) =
        .ok (m.referenceEntry schema p.1.declared) := by
    intro p hp
    obtain ⟨g, hg, hp⟩ := List.mem_filterMap.mp hp
    obtain ⟨name, hname, rfl⟩ := Option.map_eq_some_iff.mp hp
    have hdeclared := Entity.declared_mem hc hg
    refine bind_eq_ok.mpr ⟨_, keyReference_of_sound h schema he hdeclared hname, ?_⟩
    rw [Entity.column_eq hc hg]
    rfl
  refine bind_eq_ok.mpr ⟨_, mapM_eq_ok_map hkeys, congrArg Except.ok ?_⟩
  rw [map_references hc]
  refine Catalog.ofPairs_of_nodup ?_
  rw [List.map_map]
  exact ((h.entity e he).columns.nodup.sublist (List.filter_sublist.map _))

/-- The record of an index. -/
def indexRecord (c : CompiledEntity) (spec : IndexSpec) : SourceIndex where
  name := declaredIndexName c spec
  columns := indexedColumns c spec
  unique := Plan.isUnique spec
  method := spec.method

/-- The record of an index of an entity of a sound model. -/
theorem sourceIndex_of_sound (h : m.SoundEntity e) (hc : e.compile target = .ok c) {spec : IndexSpec}
    (hspec : spec ∈ e.indexes) : sourceIndex c spec = .ok (indexRecord c spec) := by
  have hfound : ∀ name ∈ spec.fields, c.column? name = some ((c.column? name).getD "") := by
    intro name hname
    obtain ⟨column, -, hcolumn⟩ := h.exists_indexed_column hc hspec hname
    rw [hcolumn]
    rfl
  have hcolumns : indexedColumns c spec = spec.fields.map fun name => (c.column? name).getD "" :=
    filterMap_eq_of_forall₂ (List.forall₂_map_right_iff.mpr (List.forall₂_same.mpr hfound))
  refine bind_eq_ok.mpr ⟨indexedColumns c spec, ?_, rfl⟩
  rw [hcolumns]
  refine mapM_eq_ok_map fun name hname => ?_
  rw [hfound name hname]
  rfl

/-- What the file of an entity of a sound model says. -/
def entitySource (schema : String) (m : Model) (e : Entity) (c : CompiledEntity) : EntitySource where
  entity := c
  schema := schema
  foreignKeys := (e.fields.filter EntityField.isReference).map (m.referenceEntry schema)
  indexes := e.indexes.map (indexRecord c)
  relations := m.relationsFrom e.name

/-- The file of an entity of a sound model can be written. -/
theorem sourceOf_of_sound (h : m.Sound) (schema : String) (he : e ∈ m.entities) (hc : e.compile target = .ok c) :
    sourceOf schema m c = .ok (entitySource schema m e c) := by
  obtain ⟨hname, -⟩ := Entity.compile_ok hc
  refine bind_eq_ok.mpr ⟨_, tablesOf_of_sound h, bind_eq_ok.mpr ⟨_, foreignKeys_of_sound h schema he hc, ?_⟩⟩
  refine bind_eq_ok.mpr ⟨e.indexes.map (indexRecord c), ?_, ?_⟩
  · rw [hname, h.entity?_eq he]
    exact mapM_eq_ok_map fun spec hspec => sourceIndex_of_sound (h.entity e he) hc hspec
  · rw [hname]
    rfl

/-! ## What is planned -/

/-- The entry for the foreign key that an operation adds to a table. -/
def entryOfKey? (table : String) : Operation → Option (String × String)
  | .addForeignKey schema t _ column refTable refColumn _ =>
    if t = table then some (keyEntry schema column refTable refColumn) else none
  | _ => none

variable {ops : List Operation}

/-- An operation without an entry adds no key to the table. -/
theorem filterMap_entryOfKey? (table : String) (ops : List Operation) :
    (ops.filter Plan.addsKey).filterMap (entryOfKey? table) = ops.filterMap (entryOfKey? table) := by
  rw [List.filterMap_filter]
  refine List.filterMap_congr fun op _ => ?_
  cases op <;> rfl

/-- The key of a reference field has the entry of the field. -/
theorem entryOfKey?_of_keyOf (h : m.Sound) {f : EntityField} {op : Operation}
    (hkey : Plan.KeyOf options m ops e f op) (table : String) :
    entryOfKey? table op = if e.tableName = table then some (m.referenceEntry options.schema f) else none := by
  obtain ⟨t, ht, htype, id, hid, columns, column, -, -, -, rfl⟩ := hkey
  have hfind : t.primaryKey? = some id := by
    rw [Entity.primaryKey?, ← List.head?_filter, ← Entity.primaryKeys, hid]
    rfl
  rw [h.referenceEntry_eq ht htype hfind]
  rfl

/-- The found reference fields of an entity, among those of all entities. -/
theorem filterMap_references (h : m.Sound) (he : e ∈ m.entities) {α : Type} (entry : EntityField → α) :
    ((m.references.filter fun p => p.1.finds p.2).filterMap fun p =>
      if p.1.tableName = e.tableName then some (entry p.2) else none) =
      ((e.fields.filter EntityField.isReference).filter e.finds).map entry := by
  have hpick : ∀ pairs : List (Entity × EntityField), (pairs.filterMap fun p =>
      if p.1.tableName = e.tableName then some (entry p.2) else none) =
      (pairs.filter fun p => p.1.tableName == e.tableName).map fun p => entry p.2 := by
    intro pairs
    induction pairs with
    | nil => rfl
    | cons p rest ih => by_cases hp : p.1.tableName = e.tableName <;> simp [hp, ih]
  have hown : (m.references.filter fun p => p.1.tableName == e.tableName) =
      (e.fields.filter EntityField.isReference).map fun f => (e, f) := by
    refine filter_flatMap_of_nodup Entity.tableName h.tables (fun a _ p hp => ?_) he
    obtain ⟨f, -, rfl⟩ := List.mem_map.mp hp
    rfl
  rw [hpick, List.filter_comm, hown, List.filter_map, List.map_map]
  rfl

/-- The foreign keys that a plan for a schema that does not exist adds to the table of an entity have the entries
of its reference fields that the lookup of their names finds, in some order. -/
theorem perm_keyEntries {d : Document} (hextract : extract d = .ok m) (hapart : m.HashesApart)
    (hplan : Plan.plan options m (.empty options.schema) = .ok ops) (he : e ∈ m.entities) :
    (((e.fields.filter EntityField.isReference).filter e.finds).map (m.referenceEntry options.schema)).Perm
      (ops.filterMap (entryOfKey? e.tableName)) := by
  have hsound := extract_sound hextract
  obtain ⟨keys, hperm, hkeys⟩ := Plan.mirror_found hextract hapart hplan
  have hentries := filterMap_eq_filterMap_of_forall₂ hkeys fun p op hkey =>
    (entryOfKey?_of_keyOf hsound hkey e.tableName).symm
  rw [← filterMap_references hsound he, hentries, ← filterMap_entryOfKey? e.tableName ops]
  exact hperm.filterMap _

/-- The entries of a file are those of a plan exactly when the lookup of its name finds each reference field. -/
theorem entries_perm_iff {d : Document} (hextract : extract d = .ok m) (hapart : m.HashesApart)
    (hplan : Plan.plan options m (.empty options.schema) = .ok ops) (he : e ∈ m.entities) :
    ((e.fields.filter EntityField.isReference).map (m.referenceEntry options.schema)).Perm
        (ops.filterMap (entryOfKey? e.tableName)) ↔
      ∀ f ∈ e.fields, f.isReference = true → e.finds f = true := by
  have hplanned := perm_keyEntries hextract hapart hplan he
  have hall : (∀ f ∈ e.fields, f.isReference = true → e.finds f = true) ↔
      ∀ f ∈ e.fields.filter EntityField.isReference, e.finds f = true := by
    simp only [List.mem_filter, and_imp]
  rw [hall]
  constructor
  · intro hperm
    -- a filter that keeps the number of items keeps them all
    have hlength := (hperm.trans hplanned.symm).length_eq
    rw [List.length_map, List.length_map] at hlength
    exact List.length_filter_eq_length_iff.mp hlength.symm
  · intro hfound
    rwa [List.filter_eq_self.mpr hfound] at hplanned

/-! ## Both -/

/-- An attribute of a class is that of a column: a reference is named after the column, any other field as it was
declared. -/
def IsAttributeOf (e : Entity) (a : SourceField) (column : Sql.Column) : Prop :=
  ∃ f ∈ e.fields, column.name = f.columnName ∧
    a.name = unreserved (if f.isReference then column.name else f.name)

/-- The file of an entity matches the operations of a plan. -/
structure Matches (options : Options) (ops : List Operation) (e : Entity) (source : EntitySource) : Prop where
  schema : source.schema = options.schema
  /-- One operation creates the table, with the key column; the attributes are those of its columns, in their
  order, but for the timestamps. -/
  table : ∃ declared comment,
    .createTable options.schema source.entity.table
      (declared ++ if options.timestamps then source.entity.timestampColumns else []) comment ∈ ops ∧
    (∀ schema columns comment', .createTable schema source.entity.table columns comment' ∈ ops →
      columns = declared ++ if options.timestamps then source.entity.timestampColumns else []) ∧
    Sql.keyColumns declared = [source.entity.keyColumn] ∧
    List.Forall₂ (IsAttributeOf e) (source.entity.fields.map entityField) declared
  /-- The foreign keys of the table have entries. -/
  keys : (ops.filterMap (entryOfKey? source.entity.table)).Subperm source.foreignKeys
  /-- There is no other entry exactly when the lookup of its name finds each reference field. -/
  keysOnly : source.foreignKeys.Perm (ops.filterMap (entryOfKey? source.entity.table)) ↔
    ∀ f ∈ e.fields, f.isReference = true → e.finds f = true
  /-- The indexes of the table that are not deferred have records. -/
  indexes : ∀ schema name columns unique method,
    .createIndex schema source.entity.table name columns unique method false ∈ ops →
      ∃ i ∈ source.indexes, i.name = name ∧ i.columns = columns ∧ i.unique = unique ∧
        i.method.map IndexMethod.name = method

/-- The key columns among the columns of the fields of a sound entity. -/
theorem keyColumns_fields (h : m.SoundEntity e) (hc : e.compile target = .ok c) :
    Sql.keyColumns (c.fields.map CompiledField.toColumn) = [c.keyColumn] := by
  obtain ⟨key, hkey⟩ := List.length_eq_one_iff.mp h.key
  obtain ⟨g, hg, hfind⟩ := h.exists_primaryKey hc
  have hdeclared : g.declared = key := by
    have hfirst : e.primaryKey? = some key := by
      rw [Entity.primaryKey?, ← List.head?_filter]
      exact congrArg List.head? hkey
    rw [Entity.primaryKey?_eq hc, hfind] at hfirst
    exact Option.some.inj hfirst
  have hcolumns := Entity.keyColumns_eq hc false
  rw [CompiledEntity.columns, if_neg Bool.false_ne_true, List.append_nil, hkey, List.map_singleton] at hcolumns
  rw [hcolumns, CompiledEntity.keyColumn, hfind, ← hdeclared]
  exact congrArg (fun column => [column]) (Entity.column_eq hc hg).symm

/-- The attributes of an entity are those of the columns of its fields. -/
theorem isAttributeOf_fields (hc : e.compile target = .ok c) :
    List.Forall₂ (IsAttributeOf e) (c.fields.map entityField) (c.fields.map CompiledField.toColumn) := by
  rw [List.forall₂_map_left_iff, List.forall₂_map_right_iff, List.forall₂_same]
  intro g hg
  have hdeclared := Entity.declared_mem hc hg
  exact ⟨g.declared, hdeclared, Entity.column_eq hc hg, rfl⟩

/-- The file of an entity of a model matches a plan for a schema that does not exist. -/
theorem matches_entitySource {d : Document} (hextract : extract d = .ok m) (hapart : m.HashesApart)
    (hplan : Plan.plan options m (.empty options.schema) = .ok ops) (he : e ∈ m.entities)
    (hc : e.compile (targetOf options m) = .ok c) :
    Matches options ops e (entitySource options.schema m e c) := by
  have hsound := extract_sound hextract
  obtain ⟨-, htable, -⟩ := Entity.compile_ok hc
  have hcalls := (Plan.eachTurn_of_plan hsound hplan).1
  refine ⟨rfl, ⟨c.fields.map CompiledField.toColumn, c.description,
    Plan.createTable_mem_plan hsound hplan he hc rfl, fun schema columns comment' hop => ?_,
    keyColumns_fields (hsound.entity e he) hc, isAttributeOf_fields hc⟩, ?_, ?_, ?_⟩
  · exact (Operation.createTable.inj ((hcalls _ hop).eq_table hsound he hc)).2.2.1
  · have hsub : ((e.fields.filter EntityField.isReference).filter e.finds).Sublist
        (e.fields.filter EntityField.isReference) := List.filter_sublist
    have hplanned := perm_keyEntries hextract hapart hplan he
    rw [← htable] at hplanned
    exact hplanned.symm.subperm.trans (hsub.map _).subperm
  · have hiff := entries_perm_iff hextract hapart hplan he
    rwa [← htable] at hiff
  · intro schema name columns unique method hop
    have hcall := hcalls _ hop
    generalize htable' : (entitySource options.schema m e c).entity.table = table at hcall
    cases hcall with
    | @index e' c' spec he' hc' hspec =>
      have howner : e.tableName = e'.tableName := htable.symm.trans (htable'.trans (Entity.compile_ok hc').2.1)
      obtain rfl : e = e' := List.inj_on_of_nodup_map hsound.tables he he' howner
      obtain rfl : c = c' := Except.ok.inj (hc.symm.trans hc')
      exact ⟨indexRecord c spec, List.mem_map_of_mem hspec, rfl, rfl, rfl, rfl⟩

/-! ## Files -/

/-- The steps for an entity of a sound model write its file. -/
theorem entitySteps_of_sound (h : m.Sound) (t : Target) (he : e ∈ m.entities) (hc : e.compile target = .ok c) :
    entitySteps t m target e = ⟨[.compiled c, .write (some c.name) ⟨c.name, t.models.child (moduleFile
      (moduleName c.name)), (entitySource t.schema m e c).text⟩, .modelDone c.name], none⟩ := by
  rw [entitySteps, hc]
  dsimp only
  rw [sourceOf_of_sound h t.schema he hc]

/-- The parts of the manifest of a model: its entities and the index of them, its shapes, its enumerations, and
the index of all. -/
def manifestParts (t : Target) (m : Model) : List (Progress Step ManifestFault) :=
  m.entities.map (entitySteps t m ⟨t.schema, m.enums.map (·.name)⟩) ++
    unlessEmpty m.entities
      (writing "models index" (t.models.child (moduleFile "__init__"))
        (entityIndexText (m.entities.map fun e => (moduleName e.name, e.name)))) ++
    unlessEmpty m.jsonShapes
      (writing "json interfaces" (t.output.child (moduleFile "interfaces")) (shapesText (inOrder m.jsonShapes))) ++
    unlessEmpty m.enums (writing "enums" (t.output.child (moduleFile "enums")) (enumsText m.enums)) ++
    if hasOutput m then
      [ writing "index" (t.output.child (moduleFile "__init__"))
          (indexText (!m.entities.isEmpty) (!m.jsonShapes.isEmpty) (!m.enums.isEmpty)),
        ⟨[.indexDone], none⟩ ]
    else []

/-- The manifest of a sound model has all its parts, where the name of the schema is safe. -/
theorem manifest_of_sound (h : m.Sound) {t : Target} (hsafe : Naming.isSafe t.schema = true) :
    manifest t m = ⟨(manifestParts t m).flatMap Progress.done, none⟩ := by
  have htarget : CompileTarget.of t.schema m.enums = .ok ⟨t.schema, m.enums.map (·.name)⟩ := by
    rw [CompileTarget.of, Naming.safe, if_pos hsafe]
    rfl
  have hentities : ∀ declared ∈ m.entities,
      (entitySteps t m ⟨t.schema, m.enums.map (·.name)⟩ declared).fault = none := by
    intro declared hdeclared
    obtain ⟨c', hc'⟩ := (h.entity declared hdeclared).compiles ⟨t.schema, m.enums.map (·.name)⟩ rfl
    rw [entitySteps_of_sound h t hdeclared hc']
  have hothers : ∀ {α : Type} (items : List α) (part : Progress Step ManifestFault), part.fault = none →
      ∀ p ∈ unlessEmpty items part, p.fault = none := by
    intro α items part hpart p hp
    unfold unlessEmpty at hp
    split at hp
    · cases hp
    · rwa [List.mem_singleton.mp hp]
  have hparts : ∀ p ∈ manifestParts t m, p.fault = none := by
    simp only [manifestParts, List.forall_mem_append, List.forall_mem_map]
    refine ⟨⟨⟨⟨hentities, hothers _ _ rfl⟩, hothers _ _ rfl⟩, hothers _ _ rfl⟩, ?_⟩
    intro p hp
    split at hp
    · rcases List.mem_pair.mp hp with rfl | rfl <;> rfl
    · cases hp
  rw [manifest, htarget]
  exact Progress.join_eq_flatten hparts

/-- The file of each entity of a sound model is in the manifest, where the name of the schema is safe. -/
theorem mem_outputs_manifest (h : m.Sound) {t : Target} (hsafe : Naming.isSafe t.schema = true)
    (he : e ∈ m.entities) (hc : e.compile ⟨t.schema, m.enums.map (·.name)⟩ = .ok c) :
    ⟨c.name, t.models.child (moduleFile (moduleName c.name)), (entitySource t.schema m e c).text⟩ ∈
      outputs (manifest t m).done := by
  rw [outputs, List.mem_filterMap, manifest_of_sound h hsafe]
  refine ⟨.write (some c.name) _, List.mem_flatMap.mpr
    ⟨entitySteps t m ⟨t.schema, m.enums.map (·.name)⟩ e, ?_, ?_⟩, rfl⟩
  · simp only [manifestParts, List.mem_append, List.mem_map]
    exact .inl (.inl (.inl (.inl ⟨e, he, rfl⟩)))
  · rw [entitySteps_of_sound h t he hc]
    exact List.mem_cons_of_mem _ List.mem_cons_self

/-! ## The metadata of a model -/

/-- The metadata that is generated matches the plan for a schema that does not exist, but for foreign keys.  Within
the index limit there is a plan, and every entity has a file that says the table and the key of the entity, its
columns by attributes, its indexes and its foreign keys as they are planned.  It says no more foreign keys than
those exactly when the lookup of its name finds each reference field of the entity. -/
theorem metadata_matches {d : Document} (hextract : extract d = .ok m) (hapart : m.HashesApart)
    (hsafe : Naming.isSafe options.schema = true) (hlimit : ∀ e ∈ m.entities, ¬ Plan.OverLimit options e) :
    ∃ ops, Plan.plan options m (.empty options.schema) = .ok ops ∧
      ∀ t : Target, t.schema = options.schema → ∀ e ∈ m.entities, ∃ source,
        e.compile (targetOf options m) = .ok source.entity ∧
        sourceOf t.schema m source.entity = .ok source ∧
        ⟨e.name, t.models.child (moduleFile (moduleName e.name)), source.text⟩ ∈ outputs (manifest t m).done ∧
        Matches options ops e source := by
  have hsound := extract_sound hextract
  obtain ⟨ops, hplan⟩ := Plan.exists_plan_empty hsound hlimit (Plan.nodup_enumTypes hsound hapart _)
  refine ⟨ops, hplan, fun t hschema e he => ?_⟩
  obtain ⟨c, hc⟩ := (hsound.entity e he).compiles (targetOf options m) rfl
  have hmem := mem_outputs_manifest hsound (t := t) (hschema ▸ hsafe) he (by rw [hschema]; exact hc)
  rw [(Entity.compile_ok hc).1, hschema] at hmem
  refine ⟨entitySource options.schema m e c, hc, ?_, hmem, matches_entitySource hextract hapart hplan he hc⟩
  rw [hschema]
  exact sourceOf_of_sound hsound options.schema he hc

/-- The files for clubs and their members match the plan, with one entry for each of the three keys. -/
theorem metadata_matches_clubModel : Naming.isSafe "public" = true ∧
    ∃ ops, Plan.plan {} Plan.clubModel (.empty "public") = .ok ops ∧
      ∀ e ∈ Plan.clubModel.entities, ∃ source, sourceOf "public" Plan.clubModel source.entity = .ok source ∧
        Matches {} ops e source ∧
        source.foreignKeys.Perm (ops.filterMap (entryOfKey? source.entity.table)) := by
  have hextract : extract Plan.clubDocument = .ok Plan.clubModel := eq_ok_of_toOption (by decide +kernel)
  have hapart : Plan.clubModel.HashesApart := ⟨by decide +kernel, by decide +kernel⟩
  have hlimit : ∀ e ∈ Plan.clubModel.entities, ¬ Plan.OverLimit {} e := by
    unfold Plan.OverLimit
    decide +kernel
  have hfound : ∀ e ∈ Plan.clubModel.entities, ∀ f ∈ e.fields, f.isReference = true → e.finds f = true := by
    decide +kernel
  have hsafe : Naming.isSafe ({} : Settings.Options).schema = true := rfl
  obtain ⟨ops, hplan, hfiles⟩ := metadata_matches hextract hapart hsafe hlimit
  refine ⟨rfl, ops, hplan, fun e he => ?_⟩
  obtain ⟨source, -, hsource, -, hmatches⟩ := hfiles { output := {}, schema := "public" } rfl e he
  exact ⟨source, hsource, hmatches, hmatches.keysOnly.mpr (hfound e he)⟩

/-- The file of an entity says a foreign key that the plan does not have. -/
theorem metadata_without_foreignKey :
    extract Plan.sharedNameDocument = .ok Plan.sharedNameModel ∧ Plan.sharedNameModel.HashesApart ∧
      ∃ ops, Plan.plan { timestamps := false } Plan.sharedNameModel (.empty "public") = .ok ops ∧
        ops.filter Plan.addsKey = [] ∧
        ∃ e ∈ Plan.sharedNameModel.entities, ∃ c,
          e.compile (targetOf { timestamps := false } Plan.sharedNameModel) = .ok c ∧
          (sourceOf "public" Plan.sharedNameModel c).toOption.map EntitySource.foreignKeys =
            some [("b_id", "public.a(id)")] :=
  ⟨eq_ok_of_toOption (by decide +kernel), ⟨by decide +kernel, by decide +kernel⟩,
    (Plan.plan { timestamps := false } Plan.sharedNameModel (.empty "public")).toOption.getD [],
    eq_ok_of_toOption (by decide +kernel), by decide +kernel, _, List.mem_cons_self,
    ((Plan.sharedNameModel.entities.headD default).compile
      (targetOf { timestamps := false } Plan.sharedNameModel)).toOption.getD default,
    eq_ok_of_toOption (by decide +kernel), by decide +kernel⟩

end Artifact

end SchemaReconcile
