import SchemaReconcile.Proofs.Catalog.Names
import SchemaReconcile.Proofs.Compile.Columns
import SchemaReconcile.Proofs.Extract.Names
import SchemaReconcile.Proofs.Plan.Complete
import SchemaReconcile.Proofs.Settings.Options

/-!
# Names in a plan

Every name in a plan has one of a few origins (`Origin`): the schema of the options, an enumeration, an
entity, a field, the two timestamps, or it is put together from the names of a table and of columns.  So a
property of names holds throughout a plan when it holds of these and is kept by the ways in which names are
put together.

The other way round, a plan against a schema without tables names every table and every column of the model
(`mem_namesOf_of_tables_nil`), so nothing can be left out of the assumptions on these.
-/

namespace SchemaReconcile.Plan

open Catalog (Operation Snapshot Fact NameKind columnNames)
open Catalog.Operation (applyAll names)
open Settings (Options)

/-- The names in operations. -/
def namesOf (ops : List Operation) : List (NameKind × String) := ops.flatMap names

/-- Where a name in a plan comes from. -/
inductive Origin (options : Options) (m : Model) : NameKind → String → Prop where
  | schema : Origin options m .schema options.schema
  | type {n : Enumeration} (hn : n ∈ m.enums) :
      Origin options m .type (Naming.enumTypeOf options.schema n.name)
  | table {e : Entity} (he : e ∈ m.entities) : Origin options m .table e.tableName
  | field {e : Entity} {f : EntityField} (he : e ∈ m.entities) (hf : f ∈ e.fields) :
      Origin options m .column f.columnName
  | timestamp {name : String} (hname : name ∈ [createdColumn, updatedColumn]) :
      Origin options m .column name
  | index {table : String} {columns : List String} (unique : Bool)
      (htable : Origin options m .table table)
      (hcolumns : ∀ column ∈ columns, Origin options m .column column) :
      Origin options m .index (Naming.indexName table columns (Naming.indexLead unique))
  | uniqueIndex {table column : String} (htable : Origin options m .table table)
      (hcolumn : Origin options m .column column) :
      Origin options m .index (Naming.uniqueIndex table column)
  | constraint {table column : String} (htable : Origin options m .table table)
      (hcolumn : Origin options m .column column) :
      Origin options m .constraint (Naming.foreignKeyConstraint table column)
  | trigger {table : String} (htable : Origin options m .table table) :
      Origin options m .trigger (Naming.triggerName table)

variable {options : Options} {m : Model} {s : Snapshot} {ops : List Operation}

/-! ## Names of operations that are called for -/

namespace Origin

variable {e : Entity} {c : CompiledEntity}

/-- The table of a compiled entity. -/
theorem of_compiled (he : e ∈ m.entities) (hc : e.compile (targetOf options m) = .ok c) :
    Origin options m .table c.table := by
  rw [(Entity.compile_ok hc).2.1]
  exact .table he

/-- A column of a compiled field. -/
theorem of_mem_fieldColumns (he : e ∈ m.entities) (hc : e.compile (targetOf options m) = .ok c)
    {name : String} (h : name ∈ c.fieldColumns) : Origin options m .column name := by
  rw [Entity.fieldColumns_eq hc] at h
  obtain ⟨f, hf, rfl⟩ := List.mem_map.mp h
  exact .field he hf

/-- The names in a column of a table. -/
theorem of_mem_columnNames (he : e ∈ m.entities) (hc : e.compile (targetOf options m) = .ok c)
    {column : Sql.Column} (hcolumn : column ∈ c.columns options.timestamps) {p : NameKind × String}
    (hp : p ∈ columnNames column) : Origin options m p.1 p.2 := by
  rcases List.mem_cons.mp hp with rfl | hp
  · have hname : column.name ∈ (c.columns options.timestamps).map (·.name) :=
      List.mem_map_of_mem hcolumn
    rw [CompiledEntity.names_columns] at hname
    rcases List.mem_append.mp hname with hname | hname
    · exact of_mem_fieldColumns he hc hname
    · split at hname
      · exact .timestamp (List.mem_of_mem_filter hname)
      · cases hname
  · rcases Entity.type_of_mem_columns hc hcolumn with ⟨name, htype⟩ | ⟨name, hname, isArray, htype⟩
    · rw [htype] at hp
      cases hp
    · rw [htype] at hp
      obtain ⟨n, hn, rfl⟩ := List.mem_map.mp hname
      rcases List.mem_pair.mp hp with rfl | rfl
      · exact .schema
      · exact .type hn

/-- The columns of a declared index. -/
theorem of_mem_indexedColumns (he : e ∈ m.entities) (hc : e.compile (targetOf options m) = .ok c)
    {spec : IndexSpec} {name : String} (h : name ∈ indexedColumns c spec) :
    Origin options m .column name := by
  obtain ⟨field, -, hcolumn⟩ := List.mem_filterMap.mp h
  rw [Entity.column?_eq hc] at hcolumn
  obtain ⟨f, hf, rfl⟩ := Option.map_eq_some_iff.mp hcolumn
  exact .field he (List.mem_of_find?_eq_some hf)

/-- Every name in an operation that a sound model calls for has an origin. -/
theorem of_calls (h : m.Sound) {op : Operation} (hop : Calls options m op) :
    ∀ p ∈ op.names, Origin options m p.1 p.2 := by
  cases hop with
  | schema => exact List.forall_mem_singleton.mpr .schema
  | enumType hn => exact List.forall_mem_cons.mpr ⟨.schema, List.forall_mem_singleton.mpr (.type hn)⟩
  | typeComment hn => exact List.forall_mem_cons.mpr ⟨.schema, List.forall_mem_singleton.mpr (.type hn)⟩
  | table he hc =>
    simp only [names, List.forall_mem_cons]
    refine ⟨.schema, of_compiled he hc, fun p hp => ?_⟩
    obtain ⟨column, hcolumn, hp⟩ := List.mem_flatMap.mp hp
    exact of_mem_columnNames he hc hcolumn hp
  | column he hc hcolumn =>
    simp only [names, List.forall_mem_cons]
    exact ⟨.schema, of_compiled he hc, fun p hp => of_mem_columnNames he hc hcolumn hp⟩
  | index he hc hspec =>
    simp only [indexOperation, names, List.forall_mem_cons, List.forall_mem_map]
    exact ⟨.schema, of_compiled he hc,
      .index _ (of_compiled he hc) fun column hcolumn => of_mem_indexedColumns he hc hcolumn,
      fun column hcolumn => of_mem_indexedColumns he hc hcolumn⟩
  | trigger he hc hkeeps =>
    simp only [names, List.forall_mem_cons]
    exact ⟨.schema, of_compiled he hc, .trigger (of_compiled he hc), by simp⟩
  | key hr hjoins =>
    have howner := of_compiled hjoins.ownerMem hjoins.ownerCompiled
    have hcolumn := of_mem_fieldColumns hjoins.ownerMem hjoins.ownerCompiled hjoins.mem_fieldColumns
    have htarget := of_compiled hjoins.targetMem hjoins.targetCompiled
    have hkey := of_mem_fieldColumns hjoins.targetMem hjoins.targetCompiled (hjoins.keyColumn_mem h)
    simp only [relationPart, names, List.forall_mem_cons]
    exact ⟨.schema, howner, .constraint howner hcolumn, hcolumn, htarget, hkey, by simp⟩
  | keyComment hr hjoins hkind =>
    have howner := of_compiled hjoins.ownerMem hjoins.ownerCompiled
    have hcolumn := of_mem_fieldColumns hjoins.ownerMem hjoins.ownerCompiled hjoins.mem_fieldColumns
    simp only [names, List.forall_mem_cons]
    exact ⟨.schema, howner, .constraint howner hcolumn, by simp⟩
  | uniqueIndex hr hjoins hkind =>
    have howner := of_compiled hjoins.ownerMem hjoins.ownerCompiled
    have hcolumn := of_mem_fieldColumns hjoins.ownerMem hjoins.ownerCompiled hjoins.mem_fieldColumns
    simp only [names, List.map_cons, List.forall_mem_cons]
    exact ⟨.schema, howner, .uniqueIndex howner hcolumn, hcolumn, by simp⟩

end Origin

/-- Every name in a plan has an origin. -/
theorem origin_of_plan (h : m.Sound) (hplan : plan options m s = .ok ops) {p : NameKind × String}
    (hp : p ∈ namesOf ops) : Origin options m p.1 p.2 := by
  obtain ⟨op, hop, hp⟩ := List.mem_flatMap.mp hp
  exact Origin.of_calls h ((eachTurn_of_plan h hplan).1 op hop) p hp

/-! ## Names that a plan cannot leave out -/

/-- What an operation that a model calls for is for is shown already, or a plan has the name. -/
theorem shows_or_mem_namesOf (h : m.Sound) (hplan : plan options m s = .ok ops) {op : Operation}
    (hop : Calls options m op) {f : Fact} (hf : f ∈ op.wants) (hlasting : f.Lasting) :
    s.Shows f ∨ Catalog.Operation.factNames f ⊆ namesOf ops := by
  have hsettle := ((plan_ok_iff h).mp hplan).2
  have hshown := settle_shows_of_steady hsettle ((mem_wanted h).mpr hop) hf (steady_of_lasting hlasting)
  rcases (shows_applyAll_iff hlasting (eachTurn_of_plan h hplan).2).mp hshown with hbefore | ⟨a, ha, heffect⟩
  · exact .inl hbefore
  · refine .inr fun p hp => List.mem_flatMap.mpr ⟨a, ha, ?_⟩
    exact Catalog.Operation.mem_names_of_mem_effects heffect hp

/-- A plan against a schema without tables names every table and every column of the model. -/
theorem mem_namesOf_of_tables_nil (h : m.Sound) (hplan : plan options m s = .ok ops)
    (htables : s.tables = []) {e : Entity} (he : e ∈ m.entities) :
    (.table, e.tableName) ∈ namesOf ops ∧ ∀ f ∈ e.fields, (.column, f.columnName) ∈ namesOf ops := by
  obtain ⟨c, hc⟩ := (h.entity e he).compiles (targetOf options m) rfl
  have htable : c.table = e.tableName := (Entity.compile_ok hc).2.1
  constructor
  · rcases shows_or_mem_namesOf h hplan (.table he hc) (List.mem_singleton_self _) trivial with hs | hnames
    · simp [Snapshot.Shows, Snapshot.hasTable, Snapshot.columns?, htables] at hs
    · rw [← htable]
      exact hnames (List.mem_singleton_self _)
  · intro f hf
    have hcolumn : f.columnName ∈ c.fieldColumns := by
      rw [Entity.fieldColumns_eq hc]
      exact List.mem_map_of_mem hf
    obtain ⟨column, hmem, hname⟩ := CompiledEntity.exists_column_of_field options.timestamps hcolumn
    rcases shows_or_mem_namesOf h hplan (.column he hc hmem) (List.mem_singleton_self _) trivial
      with hs | hnames
    · simp [Snapshot.Shows, Snapshot.hasColumn, Snapshot.columns?, htables] at hs
    · rw [← hname]
      exact hnames (List.mem_singleton_self _)

/-- A plan against a schema without enum types names the type of every enumeration. -/
theorem mem_namesOf_of_enums_nil (h : m.Sound) (hplan : plan options m s = .ok ops)
    (henums : s.enums = []) {n : Enumeration} (hn : n ∈ m.enums) :
    (.type, Naming.enumTypeOf options.schema n.name) ∈ namesOf ops := by
  rcases shows_or_mem_namesOf h hplan (.enumType hn) List.mem_cons_self trivial with hs | hnames
  · simp [Snapshot.Shows, Snapshot.labels?, henums] at hs
  · exact hnames (List.mem_singleton_self _)

end SchemaReconcile.Plan
